import DronesmithEngine.BufferedIO
import DronesmithEngine.GoRuntime
import DronesmithEngine.MavlinkDialect
import DronesmithEngine.MavlinkX25
import Mathlib.Tactic

/-!
# Packets, the encoder and the two decoders

`mavlink/parser/message.go`.  `Decode` reads a byte stream and `DecodeBytes`
a buffer that already holds the frame; both index their buffers, so both are
checked.  A Go result pair of a packet pointer and an error is a pair of two
options, because a failed call can return a packet as well.
-/

namespace DronesmithEngine.Mavlink

open Go BufferedIO

def startByte : UInt8 := 0xfe

def numChecksumBytes : ℕ := 2

def hdrLen : ℕ := 6

/-- The errors of this package and the errors of the reader and writer it
passes on. -/
inductive Error
  | ErrUnknownMsgID
  | ErrCrcFail
  | invalidHeader
  | read (e : ReadError)
  | write (e : WriteError)
  deriving DecidableEq

structure Packet where
  SeqID : UInt8
  SysID : UInt8
  CompID : UInt8
  MsgID : UInt8
  Payload : List UInt8
  Checksum : UInt16
  deriving DecidableEq

structure Decoder where
  CurrSeqID : UInt8
  Dialects : DialectSlice
  br : Reader
  deriving DecidableEq

structure Encoder where
  CurrSeqID : UInt8
  Dialects : DialectSlice
  bw : Writer
  deriving DecidableEq

def NewDecoder (r : List UInt8) : Decoder where
  CurrSeqID := 0
  Dialects := [DialectCommon]
  br := ⟨r⟩

/-- An encoder over a fresh buffer in front of a writer that accepts `room`
bytes, any number for `none`. -/
def NewEncoder (room : Option ℕ) : Encoder where
  CurrSeqID := 0
  Dialects := [DialectCommon]
  bw := { out := [], buf := [], size := 4096, room := room, err := none }

def u16ToBytes (v : UInt16) : List UInt8 :=
  [(v &&& 0xff).toUInt8, (v >>> 8).toUInt8]

def bytesToU16 (p : List UInt8) : Checked UInt16 := do
  let hi ← index p 1
  let lo ← index p 0
  pure ((hi.toUInt16 <<< 8) ||| lo.toUInt16)

/-- The packet with the header bytes of `b`, and the payload length. -/
def newPacketFromBytes (b : List UInt8) : Checked (Packet × ℕ) := do
  let seqID ← index b 1
  let sysID ← index b 2
  let compID ← index b 3
  let msgID ← index b 4
  let payloadLen ← index b 0
  pure
    ({ SeqID := seqID
       SysID := sysID
       CompID := compID
       MsgID := msgID
       Payload := []
       Checksum := 0 },
      payloadLen.toNat)

/-! ## Decoding -/

/-- The loop of `Decode` that discards bytes until the start byte. -/
def discard : List UInt8 → Option ReadError × Reader
  | [] => (some .eof, ⟨[]⟩)
  | c :: rest => if c = startByte then (none, ⟨rest⟩) else discard rest

/-- The loop reads one byte after the other. -/
theorem discard_eq (r : Reader) :
    discard r.rest =
      match r.ReadByte with
      | (.error e, r) => (some e, r)
      | (.ok c, r) =>
          if c = startByte then (none, r) else discard r.rest := by
  obtain ⟨rest⟩ := r
  cases rest <;> rfl

def Decoder.Decode (dec : Decoder) :
    Checked ((Option Packet × Option Error) × Decoder) :=
  match discard dec.br.rest with
  | (some e, br) => pure ((none, some (.read e)), { dec with br := br })
  | (none, br) =>
      match br.ReadFull 5 with
      | (.error e, br) =>
          pure ((none, some (.read e)), { dec with br := br })
      | (.ok hdr, br) => do
          let (p, payloadLen) ← newPacketFromBytes hdr
          let crc := X25.Write X25.New hdr
          match br.ReadFull (payloadLen + numChecksumBytes) with
          | (.error e, br) =>
              pure ((some p, some (.read e)), { dec with br := br })
          | (.ok buf, br) => do
              let payload ← slice buf 0 payloadLen
              let p := { p with Payload := payload }
              let crc := X25.Write crc p.Payload
              match findCrcX dec.Dialects p.MsgID with
              | none =>
                  pure ((some p, some .ErrUnknownMsgID),
                    { dec with br := br })
              | some crcx => do
                  let crc := X25.WriteByte crc crcx
                  let tail ← slice buf payloadLen buf.length
                  let checksum ← bytesToU16 tail
                  let p := { p with Checksum := checksum }
                  if p.Checksum ≠ crc then
                    pure ((some p, some .ErrCrcFail), { dec with br := br })
                  else
                    pure ((some p, none),
                      { dec with br := br, CurrSeqID := p.SeqID })

def DecodeBytes (b : List UInt8) : Checked (Option Packet × Option Error) :=
  let Dialects : DialectSlice := [DialectCommon]
  if b.length < hdrLen then
    pure (none, some .invalidHeader)
  else do
    let first ← index b 0
    if first ≠ startByte then
      pure (none, some .invalidHeader)
    else
      let hdr ← slice b 1 b.length
      let (p, payloadLen) ← newPacketFromBytes hdr
      let payload ← slice b hdrLen (hdrLen + payloadLen)
      let p := { p with Payload := payload }
      let covered ← slice b 1 (hdrLen + payloadLen)
      let crc := X25.Write X25.New covered
      match findCrcX Dialects p.MsgID with
      | none => pure (some p, some .ErrUnknownMsgID)
      | some crcx => do
          let crc := X25.WriteByte crc crcx
          let tail ← slice b (hdrLen + payloadLen) b.length
          let checksum ← bytesToU16 tail
          let p := { p with Checksum := checksum }
          if p.Checksum ≠ crc then
            pure (some p, some .ErrCrcFail)
          else
            pure (some p, none)

/-! ## Encoding -/

def Encoder.writeAndCheck (enc : Encoder) (p : List UInt8) :
    Option Error × Encoder :=
  let ((n, err), bw) := enc.bw.Write p
  let enc' := { enc with bw := bw }
  match err with
  | some e => (some (.write e), enc')
  | none => if n ≠ p.length then (some (.write .shortWrite), enc')
      else (none, enc')

/-- The error `EncodePacket` returns, `none` for success, and the encoder it
leaves. -/
def Encoder.EncodePacket (enc : Encoder) (p : Packet) :
    Option Error × Encoder :=
  let hdr := [startByte, p.Payload.length.toUInt8, enc.CurrSeqID, p.SysID,
    p.CompID, p.MsgID]
  match enc.writeAndCheck hdr with
  | (some e, enc) => (some e, enc)
  | (none, enc) =>
      let crc := X25.Write X25.New (hdr.drop 1)
      match enc.writeAndCheck p.Payload with
      | (some e, enc) => (some e, enc)
      | (none, enc) =>
          let crc := X25.Write crc p.Payload
          match findCrcX enc.Dialects p.MsgID with
          | none => (some .ErrUnknownMsgID, enc)
          | some crcx =>
              let crc := X25.WriteByte crc crcx
              match enc.writeAndCheck (u16ToBytes crc) with
              | (some e, enc) => (some e, enc)
              | (none, enc) =>
                  match enc.bw.Flush with
                  | (some e, bw) => (some (.write e), { enc with bw := bw })
                  | (none, bw) =>
                      (none,
                        { enc with
                          bw := bw
                          CurrSeqID := enc.CurrSeqID + 1 })

/-! ## Two-byte numbers -/

theorem toNat_joined (lo hi : UInt8) :
    ((hi.toUInt16 <<< 8) ||| lo.toUInt16).toNat =
      hi.toNat * 256 + lo.toNat := by
  have hlo := lo.toNat_lt
  have hhi := hi.toNat_lt
  have hor := Nat.shiftLeft_add_eq_or_of_lt
    (i := 8) (show lo.toNat < 2 ^ 8 from hlo) hi.toNat
  have hshift : (8 : UInt16).toNat % 16 = 8 := rfl
  simp only [UInt16.toNat_or, UInt16.toNat_shiftLeft,
    UInt8.toNat_toUInt16]
  rw [hshift, Nat.mod_eq_of_lt (by rw [Nat.shiftLeft_eq]; omega), ← hor,
    Nat.shiftLeft_eq]

theorem toNat_low (v : UInt16) :
    (v &&& 0xff).toUInt8.toNat = v.toNat % 256 := by
  have hmask := Nat.and_two_pow_sub_one_eq_mod (v.toNat % 256) 8
  simp at hmask ⊢
  rw [hmask]

theorem toNat_high (v : UInt16) :
    (v >>> 8).toUInt8.toNat = v.toNat / 256 := by
  have hv := v.toNat_lt
  simp [Nat.shiftRight_eq_div_pow]
  omega

theorem bytesToU16_u16ToBytes (v : UInt16) :
    bytesToU16 (u16ToBytes v) = .ok v := by
  have hjoin : ((v >>> 8).toUInt8.toUInt16 <<< 8) |||
      (v &&& 0xff).toUInt8.toUInt16 = v := by
    apply UInt16.toNat_inj.mp
    rw [toNat_joined, toNat_low, toNat_high]
    omega
  simp only [bytesToU16, u16ToBytes, index, List.getElem?_cons_succ,
    List.getElem?_cons_zero, ok_bind, pure_eq_ok, hjoin]

theorem u16ToBytes_injective : Function.Injective u16ToBytes := by
  intro v w heq
  have hok := congrArg bytesToU16 heq
  rw [bytesToU16_u16ToBytes, bytesToU16_u16ToBytes] at hok
  exact Except.ok.inj hok

theorem u16ToBytes_surjective (lo hi : UInt8) :
    ∃ v, u16ToBytes v = [lo, hi] := by
  refine ⟨(hi.toUInt16 <<< 8) ||| lo.toUInt16, ?_⟩
  have hlo := lo.toNat_lt
  have hfirst : (((hi.toUInt16 <<< 8) ||| lo.toUInt16) &&& 0xff).toUInt8 =
      lo := by
    apply UInt8.toNat_inj.mp
    rw [toNat_low, toNat_joined]
    omega
  have hsecond : (((hi.toUInt16 <<< 8) ||| lo.toUInt16) >>> 8).toUInt8 =
      hi := by
    apply UInt8.toNat_inj.mp
    rw [toNat_high, toNat_joined]
    omega
  rw [u16ToBytes, hfirst, hsecond]

@[simp] theorem length_u16ToBytes (v : UInt16) :
    (u16ToBytes v).length = 2 := rfl

end DronesmithEngine.Mavlink
