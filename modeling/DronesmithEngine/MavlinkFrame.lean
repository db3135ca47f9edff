import DronesmithEngine.MavlinkPacket
import Mathlib.InformationTheory.Coding.UniquelyDecodable
import Mathlib.Tactic

/-!
# Frames on the wire

A frame is the abstract content of the bytes from a start byte to the second
checksum byte.  Both decoders turn a frame into the same verdict, a stream
decoder finds either one frame behind bytes that are not start bytes or the
end of its input, and the encoder writes the bytes of one frame.
-/

namespace DronesmithEngine.Mavlink

open Go BufferedIO InformationTheory

@[ext] structure Frame where
  seq : UInt8
  sys : UInt8
  comp : UInt8
  msgID : UInt8
  payload : List UInt8
  checksum : UInt16
  payload_le : payload.length ≤ 255

namespace Frame

def header (f : Frame) : List UInt8 :=
  [f.payload.length.toUInt8, f.seq, f.sys, f.comp, f.msgID]

def bytes (f : Frame) : List UInt8 :=
  startByte :: (f.header ++ f.payload ++ u16ToBytes f.checksum)

def sum (f : Frame) (crcx : UInt8) : UInt16 :=
  X25.WriteByte (X25.Write X25.New (f.header ++ f.payload)) crcx

def packet (f : Frame) : Packet where
  SeqID := f.seq
  SysID := f.sys
  CompID := f.comp
  MsgID := f.msgID
  Payload := f.payload
  Checksum := f.checksum

/-- What a decoder with the dialects `ds` returns for a frame. -/
def verdict (f : Frame) (ds : DialectSlice) : Option Packet × Option Error :=
  match findCrcX ds f.msgID with
  | none => (some { f.packet with Checksum := 0 }, some .ErrUnknownMsgID)
  | some crcx =>
      if f.checksum = f.sum crcx then (some f.packet, none)
      else (some f.packet, some .ErrCrcFail)

@[simp] theorem length_header (f : Frame) : f.header.length = 5 := rfl

@[simp] theorem length_bytes (f : Frame) :
    f.bytes.length = f.payload.length + 8 := by
  simp [bytes]
  omega

theorem toNat_length (f : Frame) :
    f.payload.length.toUInt8.toNat = f.payload.length := by
  have hle := f.payload_le
  rw [Nat.toUInt8_eq, UInt8.toNat_ofNat_of_lt']
  exact Nat.lt_succ_of_le hle

theorem newPacketFromBytes_header (f : Frame) :
    newPacketFromBytes f.header =
      .ok ({ f.packet with Payload := [], Checksum := 0 },
        f.payload.length) := by
  simp only [newPacketFromBytes, header, index, List.getElem?_cons_succ,
    List.getElem?_cons_zero, ok_bind, pure_eq_ok, f.toNat_length]
  rfl

/-- Bytes that start with the start byte and whose second byte counts the
payload are the bytes of a frame. -/
theorem exists_of_bytes (n : UInt8) (tail : List UInt8)
    (hlen : tail.length = n.toNat + 6) :
    ∃ f : Frame, f.bytes = startByte :: n :: tail := by
  obtain ⟨seq, sys, comp, msgID, body, rfl⟩ :
      ∃ seq sys comp msgID body,
        tail = seq :: sys :: comp :: msgID :: body := by
    match tail, hlen with
    | seq :: sys :: comp :: msgID :: body, _ =>
        exact ⟨seq, sys, comp, msgID, body, rfl⟩
  have hbody : body.length = n.toNat + 2 := by
    simp only [List.length_cons] at hlen
    omega
  have hn := n.toNat_lt
  obtain ⟨lo, hi, hlast⟩ : ∃ lo hi, body.drop n.toNat = [lo, hi] := by
    have htwo : (body.drop n.toNat).length = 2 := by
      rw [List.length_drop]
      omega
    exact List.length_eq_two.mp htwo
  obtain ⟨checksum, hchecksum⟩ := u16ToBytes_surjective lo hi
  have hpayload : (body.take n.toNat).length = n.toNat := by
    rw [List.length_take]
    omega
  have hcount : (body.take n.toNat).length.toUInt8 = n := by
    rw [hpayload]
    exact UInt8.ofNat_toNat
  refine ⟨⟨seq, sys, comp, msgID, body.take n.toNat, checksum, by omega⟩, ?_⟩
  simp only [bytes, header, hcount, hchecksum, ← hlast]
  simp

end Frame

/-! ## Splitting a stream -/

/-- A code is uniquely decodable if what follows a word does not hide how
long it is. -/
theorem uniquelyDecodable_of_length {α : Type*} {S : Set (List α)}
    (hnil : [] ∉ S)
    (hlength : ∀ v ∈ S, ∀ w ∈ S, ∀ x y, v ++ x = w ++ y →
      v.length = w.length) : UniquelyDecodable S := by
  intro vs ws hvs hws heq
  induction vs generalizing ws with
  | nil =>
      cases ws with
      | nil => rfl
      | cons w ws =>
          have hw := (List.append_eq_nil_iff.mp heq.symm).1
          exact absurd (hw ▸ hws w List.mem_cons_self) hnil
  | cons v vs ih =>
      rw [List.forall_mem_cons] at hvs
      cases ws with
      | nil =>
          have hv := (List.append_eq_nil_iff.mp heq).1
          exact absurd (hv ▸ hvs.1) hnil
      | cons w ws =>
          rw [List.forall_mem_cons] at hws
          rw [List.flatten_cons, List.flatten_cons] at heq
          obtain ⟨rfl, hrest⟩ := List.append_inj heq
            (hlength v hvs.1 w hws.1 _ _ heq)
          rw [ih ws hvs.2 hws.2 hrest]

/-- A stream of frames splits in one way, since each counts its payload. -/
theorem Frame.bytes_uniquelyDecodable :
    UniquelyDecodable (Set.range Frame.bytes) := by
  apply uniquelyDecodable_of_length
  · intro hnil
    obtain ⟨f, hf⟩ := hnil
    have hlength := f.length_bytes
    rw [hf, List.length_nil] at hlength
    omega
  · intro v hv w hw x y heq
    obtain ⟨f, rfl⟩ := hv
    obtain ⟨g, rfl⟩ := hw
    have hcount : f.payload.length.toUInt8 = g.payload.length.toUInt8 := by
      simp only [bytes, header, List.cons_append, List.nil_append,
        List.cons.injEq] at heq
      exact heq.2.1
    have hnat := congrArg UInt8.toNat hcount
    rw [f.toNat_length, g.toNat_length] at hnat
    rw [f.length_bytes, g.length_bytes, hnat]

theorem frames_eq_of_flatten {frames others : List Frame}
    (heq : (frames.map Frame.bytes).flatten =
      (others.map Frame.bytes).flatten) :
    frames.map Frame.bytes = others.map Frame.bytes := by
  apply Frame.bytes_uniquelyDecodable _ _ _ _ heq
  · intro bytes hbytes
    obtain ⟨f, -, rfl⟩ := List.mem_map.mp hbytes
    exact Set.mem_range_self f
  · intro bytes hbytes
    obtain ⟨f, -, rfl⟩ := List.mem_map.mp hbytes
    exact Set.mem_range_self f

theorem packet_of_verdict {f : Frame} {ds : DialectSlice} {p : Packet}
    (hverdict : f.verdict ds = (some p, none)) : p = f.packet := by
  unfold Frame.verdict at hverdict
  cases hcrcx : findCrcX ds f.msgID with
  | none => simp [hcrcx] at hverdict
  | some crcx =>
      rw [hcrcx] at hverdict
      by_cases hvalid : f.checksum = f.sum crcx
      · simp only [hvalid, if_true, Prod.mk.injEq, Option.some.injEq,
          and_true] at hverdict
        exact hverdict.symm
      · simp [hvalid] at hverdict

/-! ## Decoding a frame -/

theorem discard_noise {noise : List UInt8} (hnoise : startByte ∉ noise)
    (rest : List UInt8) :
    discard (noise ++ startByte :: rest) = (none, ⟨rest⟩) := by
  induction noise with
  | nil => simp [discard]
  | cons c noise ih =>
      rw [List.mem_cons, not_or] at hnoise
      simp only [List.cons_append, discard, Ne.symm hnoise.1, if_false]
      exact ih hnoise.2

theorem discard_none {stream : List UInt8} (hnone : startByte ∉ stream) :
    discard stream = (some .eof, ⟨[]⟩) := by
  induction stream with
  | nil => rfl
  | cons c stream ih =>
      rw [List.mem_cons, not_or] at hnone
      simp only [discard, Ne.symm hnone.1, if_false]
      exact ih hnone.2

/-- `Decode` in front of a frame consumes the noise and the frame. -/
theorem Decoder.Decode_frame (dec : Decoder) {noise rest : List UInt8}
    {f : Frame} (hnoise : startByte ∉ noise)
    (hstream : dec.br.rest = noise ++ f.bytes ++ rest) :
    ∃ dec', dec.Decode = .ok (f.verdict dec.Dialects, dec') ∧
      dec'.br.rest = rest ∧ dec'.Dialects = dec.Dialects := by
  have hdiscard : discard dec.br.rest =
      (none, ⟨f.header ++ (f.payload ++ u16ToBytes f.checksum ++ rest)⟩) := by
    rw [hstream]
    simp only [Frame.bytes, List.append_assoc, List.cons_append]
    exact discard_noise hnoise _
  have hhdr := Reader.ReadFull_append f.header
    (f.payload ++ u16ToBytes f.checksum ++ rest) f.length_header
  have hbody : Reader.ReadFull
      ⟨f.payload ++ u16ToBytes f.checksum ++ rest⟩
        (f.payload.length + numChecksumBytes) =
      (.ok (f.payload ++ u16ToBytes f.checksum), ⟨rest⟩) :=
    Reader.ReadFull_append _ rest (by simp [numChecksumBytes])
  have hpayload : slice (f.payload ++ u16ToBytes f.checksum) 0
      f.payload.length = .ok f.payload := by
    rw [slice_ok (Nat.zero_le _) (by simp)]
    simp
  have htail : slice (f.payload ++ u16ToBytes f.checksum) f.payload.length
      (f.payload ++ u16ToBytes f.checksum).length =
        .ok (u16ToBytes f.checksum) := by
    rw [slice_ok (by simp) le_rfl, List.take_length, List.drop_left]
  have hsum (crcx : UInt8) : X25.WriteByte
      (X25.Write (X25.Write X25.New f.header) f.payload) crcx =
        f.sum crcx := by
    rw [← X25.Write_append, Frame.sum]
  unfold Decoder.Decode
  simp only [hdiscard, hhdr, f.newPacketFromBytes_header, ok_bind, hbody,
    hpayload, htail, bytesToU16_u16ToBytes, hsum, pure_eq_ok, ne_eq,
    ite_not]
  cases hcrcx : findCrcX dec.Dialects f.msgID with
  | none =>
      refine ⟨{ dec with br := ⟨rest⟩ }, ?_, rfl, rfl⟩
      simp [Frame.packet, Frame.verdict, hcrcx]
  | some crcx =>
      by_cases hvalid : f.checksum = f.sum crcx
      · refine ⟨{ dec with br := ⟨rest⟩, CurrSeqID := f.seq }, ?_, rfl, rfl⟩
        simp [Frame.packet, Frame.verdict, hcrcx, hvalid]
      · refine ⟨{ dec with br := ⟨rest⟩ }, ?_, rfl, rfl⟩
        simp [Frame.packet, Frame.verdict, hcrcx, hvalid]

/-- A call of `Decode` either runs into the end of the stream or has a frame
in front of it, behind bytes that are not start bytes. -/
theorem Decoder.Decode_cases (dec : Decoder) :
    (∃ p e dec', dec.Decode = .ok ((p, some (.read e)), dec') ∧
      dec'.br.rest = [] ∧ dec'.Dialects = dec.Dialects) ∨
    ∃ noise f rest, startByte ∉ noise ∧
      dec.br.rest = noise ++ Frame.bytes f ++ rest := by
  by_cases hstart : startByte ∈ dec.br.rest
  · obtain ⟨noise, body, hsplit, hnoise⟩ :=
      List.eq_append_cons_of_mem hstart
    have hdiscard : discard dec.br.rest = (none, ⟨body⟩) := by
      rw [hsplit]
      exact discard_noise hnoise body
    by_cases hhdr : body.length < 5
    · left
      obtain ⟨e, hread⟩ :=
        Reader.ReadFull_short (r := ⟨body⟩) (n := 5) hhdr
      refine ⟨none, e, { dec with br := ⟨[]⟩ }, ?_, rfl, rfl⟩
      simp [Decoder.Decode, hdiscard, hread]
    · obtain ⟨n, seq, sys, comp, msgID, tail, rfl⟩ :
          ∃ n seq sys comp msgID tail,
            body = n :: seq :: sys :: comp :: msgID :: tail := by
        rcases body with
          _ | ⟨n, _ | ⟨seq, _ | ⟨sys, _ | ⟨comp, _ | ⟨msgID, tail⟩⟩⟩⟩⟩
        · simp at hhdr
        · simp at hhdr
        · simp at hhdr
        · simp at hhdr
        · simp at hhdr
        · exact ⟨n, seq, sys, comp, msgID, tail, rfl⟩
      by_cases hshort : tail.length < n.toNat + 2
      · left
        have hread5 : Reader.ReadFull
            ⟨n :: seq :: sys :: comp :: msgID :: tail⟩ 5 =
              (.ok [n, seq, sys, comp, msgID], ⟨tail⟩) :=
          Reader.ReadFull_append [n, seq, sys, comp, msgID] tail rfl
        obtain ⟨e, hread⟩ := Reader.ReadFull_short (r := ⟨tail⟩)
          (n := n.toNat + numChecksumBytes) hshort
        refine ⟨some ⟨seq, sys, comp, msgID, [], 0⟩, e,
          { dec with br := ⟨[]⟩ }, ?_, rfl, rfl⟩
        simp [Decoder.Decode, hdiscard, hread5, newPacketFromBytes, index,
          hread]
      · right
        obtain ⟨f, hf⟩ := Frame.exists_of_bytes n
          (seq :: sys :: comp :: msgID :: tail.take (n.toNat + 2))
          (by
            simp only [List.length_cons, List.length_take]
            omega)
        refine ⟨noise, f, tail.drop (n.toNat + 2), hnoise, ?_⟩
        rw [hsplit, hf]
        simp
  · left
    refine ⟨none, .eof, { dec with br := ⟨[]⟩ }, ?_, rfl, rfl⟩
    simp [Decoder.Decode, discard_none hstart]

theorem DecodeBytes_frame (f : Frame) :
    DecodeBytes f.bytes = .ok (f.verdict [DialectCommon]) := by
  have hlen := f.length_bytes
  have hfirst : index f.bytes 0 = .ok startByte := rfl
  have hhdr : slice f.bytes 1 f.bytes.length =
      .ok (f.header ++ (f.payload ++ u16ToBytes f.checksum)) := by
    rw [slice_ok (by omega) le_rfl]
    simp [Frame.bytes]
  have hnew : newPacketFromBytes
      (f.header ++ (f.payload ++ u16ToBytes f.checksum)) =
        newPacketFromBytes f.header := rfl
  have hpayload : slice f.bytes hdrLen (hdrLen + f.payload.length) =
      .ok f.payload := by
    rw [slice_ok (by omega) (by unfold hdrLen; omega)]
    simp [Frame.bytes, Frame.header, hdrLen, Nat.add_comm 6]
  have hcovered : slice f.bytes 1 (hdrLen + f.payload.length) =
      .ok (f.header ++ f.payload) := by
    rw [slice_ok (by unfold hdrLen; omega) (by unfold hdrLen; omega)]
    simp [Frame.bytes, Frame.header, hdrLen, Nat.add_comm 6]
  have htail : slice f.bytes (hdrLen + f.payload.length) f.bytes.length =
      .ok (u16ToBytes f.checksum) := by
    rw [slice_ok (by unfold hdrLen; omega) le_rfl, List.take_length]
    simp [Frame.bytes, Frame.header, hdrLen, Nat.add_comm 6]
  have hsum (crcx : UInt8) : X25.WriteByte
      (X25.Write X25.New (f.header ++ f.payload)) crcx = f.sum crcx := rfl
  have hlong : ¬ f.bytes.length < hdrLen := by
    unfold hdrLen
    omega
  unfold DecodeBytes
  simp only [hlong, if_false, hfirst, ok_bind, ne_eq, hhdr, hnew,
    f.newPacketFromBytes_header, hpayload, hcovered, htail, hsum,
    bytesToU16_u16ToBytes, pure_eq_ok, ite_not]
  cases hcrcx : findCrcX [DialectCommon] f.msgID with
  | none => simp [Frame.packet, Frame.verdict, hcrcx]
  | some crcx =>
      by_cases hvalid : f.checksum = f.sum crcx
      · simp [Frame.packet, Frame.verdict, hcrcx, hvalid]
      · simp [Frame.packet, Frame.verdict, hcrcx, hvalid]

/-! ## Encoding a frame -/

def Packet.covered (p : Packet) (seq : UInt8) : List UInt8 :=
  [p.Payload.length.toUInt8, seq, p.SysID, p.CompID, p.MsgID] ++ p.Payload

def Packet.sum (p : Packet) (seq crcx : UInt8) : UInt16 :=
  X25.WriteByte (X25.Write X25.New (p.covered seq)) crcx

/-- The frame of a packet of a known message with extra byte `crcx`. -/
def Packet.frame (p : Packet) (seq crcx : UInt8)
    (hpayload : p.Payload.length ≤ 255) : Frame where
  seq := seq
  sys := p.SysID
  comp := p.CompID
  msgID := p.MsgID
  payload := p.Payload
  checksum := p.sum seq crcx
  payload_le := hpayload

theorem Packet.bytes_frame (p : Packet) (seq crcx : UInt8)
    (hpayload : p.Payload.length ≤ 255) :
    (p.frame seq crcx hpayload).bytes =
      startByte :: (p.covered seq ++ u16ToBytes (p.sum seq crcx)) := rfl

theorem Packet.verdict_frame (p : Packet) (seq : UInt8) {crcx : UInt8}
    (hpayload : p.Payload.length ≤ 255) {ds : DialectSlice}
    (hknown : findCrcX ds p.MsgID = some crcx) :
    (p.frame seq crcx hpayload).verdict ds =
      (some { p with SeqID := seq, Checksum := p.sum seq crcx },
        none) := by
  have hsum : (p.frame seq crcx hpayload).checksum =
      (p.frame seq crcx hpayload).sum crcx := rfl
  have hmsg : (p.frame seq crcx hpayload).msgID = p.MsgID := rfl
  rw [Frame.verdict, hmsg, hknown]
  simp only [hsum, if_true]
  rfl

theorem Encoder.writeAndCheck_reliable (enc : Encoder)
    (hw : enc.bw.Reliable) (p : List UInt8) :
    ∃ bw, enc.writeAndCheck p = (none, { enc with bw := bw }) ∧
      bw.Reliable ∧ bw.stream = enc.bw.stream ++ p := by
  obtain ⟨bw, hwrite, hrel, _, hstream⟩ := hw.write p
  refine ⟨bw, ?_, hrel, hstream⟩
  simp [Encoder.writeAndCheck, hwrite]

/-- Over a reliable writer a packet of a known message is delivered behind
whatever the buffer still held. -/
theorem Encoder.EncodePacket_known {enc : Encoder} {p : Packet}
    {crcx : UInt8} (hw : enc.bw.Reliable)
    (hknown : findCrcX enc.Dialects p.MsgID = some crcx) :
    ∃ bw, enc.EncodePacket p =
        (none,
          { enc with bw := bw, CurrSeqID := enc.CurrSeqID + 1 }) ∧
      bw.Reliable ∧ bw.buf = [] ∧
      bw.out = enc.bw.stream ++ startByte ::
        (p.covered enc.CurrSeqID ++
          u16ToBytes (p.sum enc.CurrSeqID crcx)) := by
  obtain ⟨bw₁, hhdr, hrel₁, hstream₁⟩ := enc.writeAndCheck_reliable hw
    [startByte, p.Payload.length.toUInt8, enc.CurrSeqID, p.SysID, p.CompID,
      p.MsgID]
  obtain ⟨bw₂, hpayload, hrel₂, hstream₂⟩ :=
    Encoder.writeAndCheck_reliable { enc with bw := bw₁ } hrel₁
      p.Payload
  obtain ⟨bw₃, hcrc, hrel₃, hstream₃⟩ :=
    Encoder.writeAndCheck_reliable { enc with bw := bw₂ } hrel₂
      (u16ToBytes (p.sum enc.CurrSeqID crcx))
  have hsum : X25.WriteByte (X25.Write (X25.Write X25.New
      [p.Payload.length.toUInt8, enc.CurrSeqID, p.SysID, p.CompID, p.MsgID])
        p.Payload) crcx = p.sum enc.CurrSeqID crcx := by
    rw [← X25.Write_append]
    rfl
  refine ⟨{ bw₃ with out := bw₃.out ++ bw₃.buf, buf := [] }, ?_, hrel₃, rfl,
    ?_⟩
  · unfold Encoder.EncodePacket
    simp only [hhdr, hpayload, hknown, List.drop_one, List.tail_cons, hsum,
      hcrc, hrel₃.flush]
  · change bw₃.stream = _
    rw [hstream₃, hstream₂, hstream₁]
    simp [Packet.covered]

/-- A packet of an unknown message is refused after its header and payload
have gone into the buffer. -/
theorem Encoder.EncodePacket_unknown {enc : Encoder} {p : Packet}
    (hw : enc.bw.Reliable)
    (hunknown : findCrcX enc.Dialects p.MsgID = none) :
    ∃ bw, enc.EncodePacket p =
        (some .ErrUnknownMsgID, { enc with bw := bw }) ∧
      bw.Reliable ∧
      bw.stream = enc.bw.stream ++ startByte ::
        p.covered enc.CurrSeqID := by
  obtain ⟨bw₁, hhdr, hrel₁, hstream₁⟩ := enc.writeAndCheck_reliable hw
    [startByte, p.Payload.length.toUInt8, enc.CurrSeqID, p.SysID, p.CompID,
      p.MsgID]
  obtain ⟨bw₂, hpayload, hrel₂, hstream₂⟩ :=
    Encoder.writeAndCheck_reliable { enc with bw := bw₁ } hrel₁
      p.Payload
  refine ⟨bw₂, ?_, hrel₂, ?_⟩
  · unfold Encoder.EncodePacket
    simp only [hhdr, hpayload, hunknown]
  · rw [hstream₂, hstream₁]
    simp [Packet.covered]

theorem Encoder.writeAndCheck_succeeded {enc enc' : Encoder}
    {p : List UInt8} (hwrite : enc.writeAndCheck p = (none, enc')) :
    ∃ bw, enc' = { enc with bw := bw } ∧
      bw.stream = enc.bw.stream ++ p := by
  unfold Encoder.writeAndCheck at hwrite
  rcases hbw : enc.bw.Write p with ⟨⟨n, _ | e⟩, bw⟩
  · simp only [hbw] at hwrite
    split at hwrite
    next => cases hwrite
    next =>
      obtain ⟨-, rfl⟩ := Prod.mk.inj hwrite
      exact ⟨bw, rfl, Writer.Write_succeeded hbw⟩
  · simp [hbw] at hwrite

/-- A call that succeeds has delivered the frame of its packet, behind
whatever the buffer still held. -/
theorem Encoder.EncodePacket_succeeded {enc enc' : Encoder} {p : Packet}
    (hencode : enc.EncodePacket p = (none, enc')) :
    ∃ crcx, findCrcX enc.Dialects p.MsgID = some crcx ∧
      enc'.bw.out = enc.bw.stream ++ startByte ::
        (p.covered enc.CurrSeqID ++
          u16ToBytes (p.sum enc.CurrSeqID crcx)) := by
  unfold Encoder.EncodePacket at hencode
  rcases hhdr : enc.writeAndCheck
      [startByte, p.Payload.length.toUInt8, enc.CurrSeqID, p.SysID, p.CompID,
        p.MsgID] with ⟨_ | e, enc₁⟩
  · obtain ⟨bw₁, rfl, hstream₁⟩ := writeAndCheck_succeeded hhdr
    rcases hpayload : Encoder.writeAndCheck { enc with bw := bw₁ }
        p.Payload with ⟨_ | e, enc₂⟩
    · obtain ⟨bw₂, rfl, hstream₂⟩ := writeAndCheck_succeeded hpayload
      simp only [hhdr, hpayload] at hencode
      split at hencode
      next => cases hencode
      next crcx hcrcx =>
        split at hencode
        next => cases hencode
        next enc₃ hcrc =>
          obtain ⟨bw₃, rfl, hstream₃⟩ := writeAndCheck_succeeded hcrc
          split at hencode
          next => cases hencode
          next bw₄ hflush =>
            obtain ⟨-, rfl⟩ := Prod.mk.inj hencode
            refine ⟨crcx, hcrcx, ?_⟩
            rw [(Writer.Flush_succeeded hflush).1, hstream₃, hstream₂,
              hstream₁, List.append_assoc, List.append_assoc,
              ← X25.Write_append]
            simp [Packet.covered, Packet.sum]
    · simp [hhdr, hpayload] at hencode
  · simp [hhdr] at hencode

end DronesmithEngine.Mavlink
