import DronesmithEngine.ApiService
import DronesmithEngine.Crc16
import DronesmithEngine.GoBytes
import DronesmithEngine.MavlinkPacket
import Mathlib.Tactic

/-!
# Cloud messages

`cloudlink/dronedp/dronedp.go`.  JSON encoding and decoding are parameters:
a text, or an error; a value of the type asked for, or an error.  The message
that `ParseMsg` returns along with an error is read by nobody, so a result is
one of the two.
-/

namespace DronesmithEngine.Cloudlink

open Go BufferedIO Apiservice

abbrev OP := UInt8

def OP_STATUS : OP := 0x10
def OP_CODE : OP := 0x11
def OP_TERMINAL : OP := 0x12
def OP_MAVLINK_TEXT : OP := 0xFD
def OP_MAVLINK_BIN : OP := 0xFE

structure StatusMsg where
  Op : String
  Serial : String
  SimId : String
  Email : String
  Password : String
  Drone : GoMap String Json
  User : String
  Terminal : Bool

/-- The values that the data of a decoded message can be. -/
inductive MsgData
  | bytes (decoded : List UInt8)
  | packet (p : Mavlink.Packet)
  | status (statusMsg : StatusMsg)
  | text (decoded : List UInt8)

structure Msg where
  Op : OP
  Session : UInt32
  Data : MsgData

/-! ## `GenerateMsg` -/

section

variable {α ε : Type}

/-- The data to send: a byte slice, or any other value. -/
inductive Outgoing (α : Type)
  | bytes (packet : List UInt8)
  | value (a : α)

inductive GenerateError (ε : Type)
  | json (e : ε)
  | unknownOp

variable (Marshal : Outgoing α → Except ε (List UInt8))

def messagePayload (opCode : OP) (data : Outgoing α) :
    Checked (Except (GenerateError ε) (List UInt8)) :=
  if opCode = OP_MAVLINK_BIN then
    match data with
    | .bytes packet => .ok (.ok packet)
    | .value _ => .error .typeAssertion
  else if opCode = OP_CODE ∨ opCode = OP_MAVLINK_TEXT ∨
      opCode = OP_TERMINAL ∨ opCode = OP_STATUS then
    match Marshal data with
    | .ok payload => .ok (.ok payload)
    | .error e => .ok (.error (.json e))
  else .ok (.error .unknownOp)

/-- The bytes in front of the checksum. -/
def summed (opCode : OP) (session : UInt32) (payload : List UInt8) :
    List UInt8 :=
  BigEndian.PutUint32 session ++ [opCode] ++
    BigEndian.PutUint16 payload.length.toUInt16 ++ payload

def frame (opCode : OP) (session : UInt32) (payload : List UInt8) :
    List UInt8 :=
  let buf := summed opCode session payload
  buf ++ BigEndian.PutUint16 (Crc16 buf)

def GenerateMsg (opCode : OP) (session : UInt32) (data : Outgoing α) :
    Checked (Except (GenerateError ε) (List UInt8)) := do
  match ← messagePayload Marshal opCode data with
  | .error e => pure (.error e)
  | .ok payload => pure (.ok (frame opCode session payload))

end

/-! ## `ParseMsg` -/

/-- `json.Unmarshal` into the types that `ParseMsg` decodes. -/
structure Unmarshaler where
  packet : List UInt8 → Option Mavlink.Packet
  status : List UInt8 → Option StatusMsg

inductive ParseError
  | crc
  | read (e : ReadError)
  | json
  | unknownOp

section

variable (json : Unmarshaler)

def parseData (op : OP) (decoded : List UInt8) : Except ParseError MsgData :=
  if op = OP_MAVLINK_BIN then .ok (.bytes decoded)
  else if op = OP_MAVLINK_TEXT then
    match json.packet decoded with
    | some p => .ok (.packet p)
    | none => .error .json
  else if op = OP_STATUS then
    match json.status decoded with
    | some statusMsg => .ok (.status statusMsg)
    | none => .error .json
  else if op = OP_CODE then .ok (.text decoded)
  else .error .unknownOp

/-- The part of `ParseMsg` after the checksum.  Only the error of the last
read is looked at. -/
def parseFields (data : List UInt8) : Checked (Except ParseError Msg) := do
  let buf : BytesReader := ⟨data, 0⟩
  let ((seg, _), buf) := buf.Read 4
  let session ← BigEndian.Uint32 seg
  let ((op, _), buf) := buf.ReadByte
  let (seg, _) := buf.ReadAt 2 5
  let length ← BigEndian.Uint16 seg
  let (decoded, err) := buf.ReadAt length.toNat 7
  match err with
  | some e => pure (.error (.read e))
  | none => pure ((parseData json op decoded).map (⟨op, session, ·⟩))

def ParseMsg (data : List UInt8) : Checked (Except ParseError Msg) := do
  let dataSize : ℤ := data.length
  let tail ← sliceInt data (dataSize - 2) dataSize
  let crcVal ← BigEndian.Uint16 tail
  let covered ← sliceInt data 0 (dataSize - 2)
  if Crc16 covered ≠ crcVal then pure (.error .crc)
  else parseFields json data

/-! ## What is parsed -/

theorem ParseMsg_tiny {data : List UInt8} (hlen : data.length < 2) :
    ParseMsg json data = .error .sliceBounds := by
  have hneg : sliceInt data (data.length - 2) data.length =
      .error .sliceBounds := by
    unfold sliceInt
    rw [if_neg (by omega)]
  simp only [ParseMsg, hneg, error_bind]

/-- The last two bytes are compared with the checksum of the others. -/
theorem ParseMsg_append (body : List UInt8) (hi lo : UInt8) :
    ParseMsg json (body ++ [hi, lo]) =
      if Crc16 body ≠ lo.toUInt16 ||| (hi.toUInt16 <<< 8) then
        .ok (.error .crc)
      else parseFields json (body ++ [hi, lo]) := by
  have hlen : ((body ++ [hi, lo]).length : ℤ) - 2 = body.length := by
    simp
  have htail : sliceInt (body ++ [hi, lo]) body.length
      (body ++ [hi, lo]).length = .ok [hi, lo] := by
    rw [sliceInt_natCast, slice_ok (by simp) le_rfl, List.take_length,
      List.drop_left]
  have hbody : sliceInt (body ++ [hi, lo]) 0 body.length = .ok body := by
    have hzero := sliceInt_natCast (body ++ [hi, lo]) 0 body.length
    rw [slice_ok (Nat.zero_le _) (by simp), List.take_left,
      List.drop_zero] at hzero
    exact hzero
  have hcrc : BigEndian.Uint16 [hi, lo] =
      .ok (lo.toUInt16 ||| (hi.toUInt16 <<< 8)) := rfl
  simp only [ParseMsg, hlen, htail, hbody, hcrc, ok_bind, pure_eq_ok]

/-- Seven header bytes and what is behind them. -/
theorem parseFields_header (s0 s1 s2 s3 op l0 l1 : UInt8)
    {rest : List UInt8} (hrest : rest ≠ []) :
    parseFields json (s0 :: s1 :: s2 :: s3 :: op :: l0 :: l1 :: rest) =
      let length := (l1.toUInt16 ||| (l0.toUInt16 <<< 8)).toNat
      if rest.length < length then .ok (.error (.read .eof))
      else
        .ok ((parseData json op (rest.take length)).map
          (⟨op, s3.toUInt32 ||| (s2.toUInt32 <<< 8) |||
            (s1.toUInt32 <<< 16) ||| (s0.toUInt32 <<< 24), ·⟩)) := by
  let data := s0 :: s1 :: s2 :: s3 :: op :: l0 :: l1 :: rest
  have hsession : BytesReader.Read ⟨data, 0⟩ 4 =
      (([s0, s1, s2, s3], none), ⟨data, 4⟩) :=
    BytesReader.Read_append [] [s0, s1, s2, s3] (op :: l0 :: l1 :: rest)
      rfl rfl (by simp)
  have hop : BytesReader.ReadByte ⟨data, 4⟩ = ((op, none), ⟨data, 5⟩) := rfl
  have hlength : BytesReader.ReadAt ⟨data, 5⟩ 2 5 = ([l0, l1], none) :=
    BytesReader.ReadAt_append [s0, s1, s2, s3, op] [l0, l1] rest rfl rfl
      (by simp) 5
  have hfield : BigEndian.Uint16 [l0, l1] =
      .ok (l1.toUInt16 ||| (l0.toUInt16 <<< 8)) := rfl
  have hid : BigEndian.Uint32 [s0, s1, s2, s3] =
      .ok (s3.toUInt32 ||| (s2.toUInt32 <<< 8) ||| (s1.toUInt32 <<< 16) |||
        (s0.toUInt32 <<< 24)) := rfl
  generalize l1.toUInt16 ||| (l0.toUInt16 <<< 8) = length at hfield ⊢
  simp only [data] at hsession hop hlength
  simp only [parseFields, hsession, hop, hlength, hfield, hid, ok_bind]
  by_cases hshort : rest.length < length.toNat
  · have hend : data.length < 7 + length.toNat := by
      simp only [data, List.length_cons]
      omega
    obtain ⟨got, heof⟩ : ∃ got,
        BytesReader.ReadAt ⟨data, 5⟩ length.toNat 7 = (got, some .eof) :=
      BytesReader.ReadAt_short (Or.inr hend)
    simp only [data] at heof
    simp only [heof, pure_eq_ok, hshort, if_true]
  · have hheader : [s0, s1, s2, s3, op, l0, l1].length = 7 := rfl
    have htake := List.length_take_of_le (Nat.not_lt.mp hshort)
    have hread := BytesReader.ReadAt_append [s0, s1, s2, s3, op, l0, l1]
      (rest.take length.toNat) (rest.drop length.toNat) hheader htake
      (by rw [List.take_append_drop]; exact hrest) 5
    rw [List.take_append_drop] at hread
    simp only [List.cons_append, List.nil_append] at hread
    simp only [hread, pure_eq_ok, hshort, if_false]

theorem parseFields_short {data : List UInt8} (hshort : data.length ≤ 7) :
    parseFields json data = .ok (.error (.read .eof)) := by
  obtain ⟨seg, _, i, hread, hseg⟩ := BytesReader.Read_cases ⟨data, 0⟩ 4
  obtain ⟨session, hsession⟩ := BigEndian.Uint32_ok hseg
  obtain ⟨op, _, j, hop⟩ := BytesReader.ReadByte_cases ⟨data, i⟩
  have hfield := BytesReader.length_ReadAt ⟨data, j⟩ 2 5
  obtain ⟨length, hlength⟩ := BigEndian.Uint16_ok hfield
  obtain ⟨got, heof⟩ : ∃ got,
      BytesReader.ReadAt ⟨data, j⟩ length.toNat 7 = (got, some .eof) :=
    BytesReader.ReadAt_short (Or.inl hshort)
  simp only [parseFields, hread, hsession, hop, hlength, heof, ok_bind,
    pure_eq_ok]

end

end DronesmithEngine.Cloudlink
