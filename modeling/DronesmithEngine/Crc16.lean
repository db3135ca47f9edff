import DronesmithEngine.Checksums
import Mathlib.Tactic

/-!
# The checksum of cloud messages

`cloudlink/crc16/crc16.go`.
-/

namespace DronesmithEngine.Cloudlink

open Checksums

def TABLE : List UInt16 := [
  0x0000, 0xc0c1, 0xc181, 0x0140, 0xc301, 0x03c0, 0x0280, 0xc241,
  0xc601, 0x06c0, 0x0780, 0xc741, 0x0500, 0xc5c1, 0xc481, 0x0440,
  0xcc01, 0x0cc0, 0x0d80, 0xcd41, 0x0f00, 0xcfc1, 0xce81, 0x0e40,
  0x0a00, 0xcac1, 0xcb81, 0x0b40, 0xc901, 0x09c0, 0x0880, 0xc841,
  0xd801, 0x18c0, 0x1980, 0xd941, 0x1b00, 0xdbc1, 0xda81, 0x1a40,
  0x1e00, 0xdec1, 0xdf81, 0x1f40, 0xdd01, 0x1dc0, 0x1c80, 0xdc41,
  0x1400, 0xd4c1, 0xd581, 0x1540, 0xd701, 0x17c0, 0x1680, 0xd641,
  0xd201, 0x12c0, 0x1380, 0xd341, 0x1100, 0xd1c1, 0xd081, 0x1040,
  0xf001, 0x30c0, 0x3180, 0xf141, 0x3300, 0xf3c1, 0xf281, 0x3240,
  0x3600, 0xf6c1, 0xf781, 0x3740, 0xf501, 0x35c0, 0x3480, 0xf441,
  0x3c00, 0xfcc1, 0xfd81, 0x3d40, 0xff01, 0x3fc0, 0x3e80, 0xfe41,
  0xfa01, 0x3ac0, 0x3b80, 0xfb41, 0x3900, 0xf9c1, 0xf881, 0x3840,
  0x2800, 0xe8c1, 0xe981, 0x2940, 0xeb01, 0x2bc0, 0x2a80, 0xea41,
  0xee01, 0x2ec0, 0x2f80, 0xef41, 0x2d00, 0xedc1, 0xec81, 0x2c40,
  0xe401, 0x24c0, 0x2580, 0xe541, 0x2700, 0xe7c1, 0xe681, 0x2640,
  0x2200, 0xe2c1, 0xe381, 0x2340, 0xe101, 0x21c0, 0x2080, 0xe041,
  0xa001, 0x60c0, 0x6180, 0xa141, 0x6300, 0xa3c1, 0xa281, 0x6240,
  0x6600, 0xa6c1, 0xa781, 0x6740, 0xa501, 0x65c0, 0x6480, 0xa441,
  0x6c00, 0xacc1, 0xad81, 0x6d40, 0xaf01, 0x6fc0, 0x6e80, 0xae41,
  0xaa01, 0x6ac0, 0x6b80, 0xab41, 0x6900, 0xa9c1, 0xa881, 0x6840,
  0x7800, 0xb8c1, 0xb981, 0x7940, 0xbb01, 0x7bc0, 0x7a80, 0xba41,
  0xbe01, 0x7ec0, 0x7f80, 0xbf41, 0x7d00, 0xbdc1, 0xbc81, 0x7c40,
  0xb401, 0x74c0, 0x7580, 0xb541, 0x7700, 0xb7c1, 0xb681, 0x7640,
  0x7200, 0xb2c1, 0xb381, 0x7340, 0xb101, 0x71c0, 0x7080, 0xb041,
  0x5000, 0x90c1, 0x9181, 0x5140, 0x9301, 0x53c0, 0x5280, 0x9241,
  0x9601, 0x56c0, 0x5780, 0x9741, 0x5500, 0x95c1, 0x9481, 0x5440,
  0x9c01, 0x5cc0, 0x5d80, 0x9d41, 0x5f00, 0x9fc1, 0x9e81, 0x5e40,
  0x5a00, 0x9ac1, 0x9b81, 0x5b40, 0x9901, 0x59c0, 0x5880, 0x9841,
  0x8801, 0x48c0, 0x4980, 0x8941, 0x4b00, 0x8bc1, 0x8a81, 0x4a40,
  0x4e00, 0x8ec1, 0x8f81, 0x4f40, 0x8d01, 0x4dc0, 0x4c80, 0x8c41,
  0x4400, 0x84c1, 0x8581, 0x4540, 0x8701, 0x47c0, 0x4680, 0x8641,
  0x8201, 0x42c0, 0x4380, 0x8341, 0x4100, 0x81c1, 0x8081, 0x4040]

theorem TABLE_eq :
    TABLE =
      (List.range 256).map fun i => (shift 0xa001)^[8] i.toUInt16 := by
  decide +kernel

theorem length_TABLE : TABLE.length = 256 := by
  rw [TABLE_eq, List.length_map, List.length_range]

theorem mask_lt (x : UInt16) : (x &&& 0xff).toNat < TABLE.length := by
  have hle : (x &&& 0xff).toNat ≤ 0xff := by
    rw [UInt16.toNat_and]
    exact Nat.and_le_right
  rw [length_TABLE]
  exact Nat.lt_succ_of_le hle

/-- `TABLE[x & 0xff]`. -/
def tableEntry (x : UInt16) : UInt16 := TABLE.get ⟨_, mask_lt x⟩

theorem getElem?_tableEntry (x : UInt16) :
    TABLE[(x &&& 0xff).toNat]? = some (tableEntry x) := by
  rw [tableEntry, List.get_eq_getElem]
  exact List.getElem?_eq_getElem (mask_lt x)

def crcStep (crc : UInt16) (b : UInt8) : UInt16 :=
  (tableEntry (crc ^^^ b.toUInt16) ^^^ (crc >>> 8)) &&& 0xffff

def Crc16 (bs : List UInt8) : UInt16 := bs.foldl crcStep 0

/-! ## Changes are detected -/

theorem entries_lead_back :
    ∀ entry ∈ TABLE.zipIdx,
      tableIndex 0xa001 (entry.1.toNat / 256) = entry.2 := by
  decide +kernel

theorem toNat_masked (x : UInt8) :
    (x.toUInt16 &&& 0xff).toNat = x.toNat := by
  have hmask := Nat.and_two_pow_sub_one_eq_mod x.toNat 8
  have hx := x.toNat_lt
  simp at hmask ⊢
  omega

theorem tableIndex_entry (x : UInt16) :
    tableIndex 0xa001 ((tableEntry x).toNat / 256) =
      (x &&& 0xff).toNat :=
  entries_lead_back (tableEntry x, (x &&& 0xff).toNat)
    (List.mk_mem_zipIdx_iff_getElem?.mpr (getElem?_tableEntry x))

theorem tableEntry_injective :
    Function.Injective fun x : UInt8 => tableEntry x.toUInt16 >>> 8 :=
  injective_of_tableIndex 0xa001 fun x =>
    (tableIndex_entry x.toUInt16).trans (toNat_masked x)

theorem masked_toUInt8 (v : UInt16) :
    v.toUInt8.toUInt16 &&& 0xff = v &&& 0xff := by
  apply UInt16.toNat_inj.mp
  have hmask := Nat.and_two_pow_sub_one_eq_mod v.toNat 8
  rw [toNat_masked]
  simp at hmask ⊢
  rw [hmask]

theorem crcStep_eq :
    crcStep = reflectedStep fun x => tableEntry x.toUInt16 := by
  funext crc b
  have hindex : (crc ^^^ b.toUInt16) &&& 0xff =
      (b ^^^ crc.toUInt8).toUInt16 &&& 0xff := by
    rw [← masked_toUInt8, UInt16.toUInt8_xor, UInt8.xor_comm]
    simp
  have hentry : tableEntry (crc ^^^ b.toUInt16) =
      tableEntry (b ^^^ crc.toUInt8).toUInt16 := by
    simp only [tableEntry, hindex]
  have hall (v : UInt16) : v &&& 0xffff = v := UInt16.and_neg_one
  rw [crcStep, hall, hentry, UInt16.xor_comm]
  rfl

theorem crcStep_detecting : Detecting crcStep := by
  rw [crcStep_eq]
  exact reflectedStep_detecting tableEntry_injective

/-! ## Bit by bit -/

theorem getElem?_TABLE {i : ℕ} (hi : i < 256) :
    TABLE[i]? = some ((shift 0xa001)^[8] i.toUInt16) := by
  rw [TABLE_eq, List.getElem?_map, List.getElem?_range hi]
  rfl

theorem tableEntry_eq (x : UInt8) :
    tableEntry x.toUInt16 = (shift 0xa001)^[8] x.toUInt16 := by
  have hentry := getElem?_tableEntry x.toUInt16
  rw [toNat_masked, getElem?_TABLE x.toNat_lt, Option.some_inj] at hentry
  rw [← hentry]
  exact congrArg _ (UInt16.toNat_inj.mp (by simp))

/-- Every entry is eight shifts of its index, and the checksum is the bitwise
one of the reflected polynomial. -/
theorem Crc16_eq_bitwise (bs : List UInt8) :
    (∀ i < 256, TABLE[i]? = some ((shift 0xa001)^[8] i.toUInt16)) ∧
      Crc16 bs = bitwise 0xa001 0 bs := by
  refine ⟨fun i hi => getElem?_TABLE hi, ?_⟩
  have hstep : crcStep = bitwiseStep 0xa001 := by
    rw [crcStep_eq, bitwiseStep_eq]
    exact congrArg reflectedStep (funext tableEntry_eq)
  rw [Crc16, bitwise, hstep]

example :
    bitwise 0xa001 0 [49, 50, 51, 52, 53, 54, 55, 56, 57] = 0xbb3d := by
  decide +kernel

end DronesmithEngine.Cloudlink
