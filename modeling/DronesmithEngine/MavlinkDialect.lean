import Mathlib.Data.List.Basic
import Mathlib.Tactic

/-!
# Dialects

`mavlink/parser/dialect.go`: the lists of message definitions an encoder or
decoder knows, as far as they are read there: the extra checksum byte of each
message id.
-/

namespace DronesmithEngine.Mavlink

/-- `crcExtras` lists the entries of a map literal, whose keys are
distinct. -/
structure Dialect where
  Name : String
  crcExtras : List (UInt8 × UInt8)
  deriving DecidableEq

abbrev DialectSlice := List Dialect

/-- The extra checksum byte of `msgid`, `none` for `ErrUnknownMsgID`. -/
def findCrcX (ds : DialectSlice) (msgid : UInt8) : Option UInt8 :=
  ds.findSome? (fun d => d.crcExtras.lookup msgid)

/-- `DialectCommon` of `mavlink/parser/common.go`. -/
def DialectCommon : Dialect where
  Name := "common"
  crcExtras :=
   [(0, 50), (1, 124), (2, 137), (4, 237), (5, 217), (6, 104), (7, 119),
    (11, 89), (20, 214), (21, 159), (22, 220), (23, 168), (24, 24),
    (25, 23), (26, 170), (27, 144), (28, 67), (29, 115), (30, 39),
    (31, 246), (32, 185), (33, 104), (34, 237), (35, 244), (36, 175),
    (37, 212), (38, 9), (39, 254), (40, 230), (41, 28), (42, 28),
    (43, 132), (44, 221), (45, 232), (46, 11), (47, 153), (48, 41),
    (49, 39), (50, 78), (51, 196), (54, 15), (55, 3), (61, 167), (62, 183),
    (63, 119), (64, 191), (65, 118), (66, 148), (67, 21), (69, 243),
    (70, 124), (73, 38), (74, 20), (75, 158), (76, 152), (77, 143),
    (81, 106), (82, 49), (83, 22), (84, 143), (85, 140), (86, 5),
    (87, 150), (89, 231), (90, 183), (91, 63), (92, 54), (93, 47),
    (100, 175), (101, 102), (102, 158), (103, 208), (104, 56), (105, 93),
    (106, 138), (107, 108), (108, 32), (109, 185), (110, 84), (111, 34),
    (112, 174), (113, 124), (114, 237), (115, 4), (116, 76), (117, 128),
    (118, 56), (119, 116), (120, 134), (121, 237), (122, 203), (123, 250),
    (124, 87), (125, 203), (126, 220), (127, 25), (128, 226), (129, 46),
    (130, 29), (131, 223), (132, 85), (133, 6), (134, 229), (135, 203),
    (136, 1), (137, 195), (138, 109), (139, 168), (140, 181), (141, 47),
    (142, 72), (143, 131), (144, 127), (146, 103), (147, 154), (148, 178),
    (149, 200), (230, 163), (231, 105), (232, 151), (233, 35), (234, 150),
    (241, 90), (242, 104), (243, 85), (244, 95), (245, 130), (246, 184),
    (247, 81), (248, 8), (249, 204), (250, 49), (251, 170), (252, 44),
    (253, 83), (254, 46)]

end DronesmithEngine.Mavlink
