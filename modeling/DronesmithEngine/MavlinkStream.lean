import DronesmithEngine.MavlinkFrame
import Mathlib.Tactic

/-!
# Packets over a noisy stream

Calling `EncodePacket` for one packet after another delivers one frame per
call, under consecutive sequence numbers.  Calling `Decode` again and again
on frames with noise between them consumes exactly the noise and the frame
with each call, whatever happened to the bytes behind the length byte.
-/

namespace DronesmithEngine.Mavlink

open Go BufferedIO

/-! ## Repeated calls -/

/-- Encoding packets one after the other: for each call its error and the
bytes it delivered to the underlying writer. -/
def Encoder.EncodeCalls : List Packet → Encoder →
    List (Option Error × List UInt8) × Encoder
  | [], enc => ([], enc)
  | p :: packets, enc =>
      let (err, enc') := enc.EncodePacket p
      let (calls, last) := EncodeCalls packets enc'
      ((err, enc'.bw.out.drop enc.bw.out.length) :: calls, last)

def Encoder.sent (enc : Encoder) (packets : List Packet) :
    List (List UInt8) :=
  (EncodeCalls packets enc).1.map Prod.snd

structure DecodeCall where
  result : Option Packet × Option Error
  consumed : List UInt8

def Decoder.DecodeCalls : ℕ → Decoder → Checked (List DecodeCall × Decoder)
  | 0, dec => pure ([], dec)
  | n + 1, dec => do
      let (result, dec') ← dec.Decode
      let consumed :=
        dec.br.rest.take (dec.br.rest.length - dec'.br.rest.length)
      let (calls, last) ← DecodeCalls n dec'
      pure (⟨result, consumed⟩ :: calls, last)

/-- Frames with `noise k` in front of the frame number `k`, and more noise
at the end. -/
def interleave (noise : ℕ → List UInt8) : List (List UInt8) → List UInt8
  | [] => noise 0
  | frame :: frames =>
      noise 0 ++ frame ++ interleave (fun k => noise (k + 1)) frames

/-- Received bytes that may differ from the frame sent behind its start byte
and its length byte. -/
def SameFraming (sent received : List UInt8) : Prop :=
  received.length = sent.length ∧ received.take 2 = sent.take 2

instance (sent received : List UInt8) :
    Decidable (SameFraming sent received) :=
  inferInstanceAs (Decidable (_ ∧ _))

/-! ## Reading frames -/

theorem consumed_append (read rest : List UInt8) :
    (read ++ rest).take ((read ++ rest).length - rest.length) = read := by
  rw [List.length_append, Nat.add_sub_cancel, List.take_left]

/-- Every call in front of a frame returns the verdict on that frame; the
call behind the last frame finds the end of input. -/
theorem Decoder.DecodeCalls_interleave (frames : List Frame)
    {noise : ℕ → List UInt8} (hnoise : ∀ k, startByte ∉ noise k)
    (dec : Decoder)
    (hstream : dec.br.rest = interleave noise (frames.map Frame.bytes)) :
    ∃ dec', dec.DecodeCalls (frames.length + 1) =
      .ok
        (frames.mapIdx (fun k f =>
            ⟨f.verdict dec.Dialects, noise k ++ f.bytes⟩) ++
          [⟨(none, some (.read .eof)), noise frames.length⟩],
        dec') := by
  induction frames generalizing noise dec with
  | nil =>
      have hrest : dec.br.rest = noise 0 := hstream
      have hend := discard_none (hnoise 0)
      refine ⟨{ dec with br := ⟨[]⟩ }, ?_⟩
      simp [Decoder.DecodeCalls, Decoder.Decode, hrest, hend]
  | cons f frames ih =>
      have hsplit : dec.br.rest = noise 0 ++ f.bytes ++
          interleave (fun k => noise (k + 1)) (frames.map Frame.bytes) :=
        hstream
      obtain ⟨dec', hdecode, hrest, hdialects⟩ :=
        dec.Decode_frame (hnoise 0) hsplit
      have hconsumed : dec.br.rest.take
          (dec.br.rest.length - dec'.br.rest.length) =
            noise 0 ++ f.bytes := by
        rw [hrest, hsplit]
        exact consumed_append _ _
      obtain ⟨last, hcalls⟩ :=
        ih (fun k => hnoise (k + 1)) dec' hrest
      refine ⟨last, ?_⟩
      rw [List.length_cons, Decoder.DecodeCalls, hdecode, ok_bind]
      simp only [hcalls, ok_bind, hconsumed, hdialects, pure_eq_ok,
        List.mapIdx_cons, List.cons_append]

/-- Bytes with the framing of a frame are a frame, and the same frame if they
are the same bytes. -/
theorem SameFraming.frame {f : Frame} {received : List UInt8}
    (hsame : SameFraming f.bytes received) :
    ∃ g : Frame, g.bytes = received ∧ (received = f.bytes → g = f) := by
  by_cases hintact : received = f.bytes
  · exact ⟨f, hintact.symm, fun _ => rfl⟩
  · obtain ⟨hlen, htake⟩ := hsame
    have hprefix : f.bytes.take 2 =
        [startByte, f.payload.length.toUInt8] := rfl
    obtain ⟨tail, htail⟩ : ∃ tail,
        received = startByte :: f.payload.length.toUInt8 :: tail := by
      refine ⟨received.drop 2, ?_⟩
      rw [← List.take_append_drop 2 received, htake, hprefix]
      simp
    have htaillen : tail.length = f.payload.length.toUInt8.toNat + 6 := by
      rw [f.length_bytes, htail] at hlen
      simp only [List.length_cons] at hlen
      rw [f.toNat_length]
      omega
    obtain ⟨g, hg⟩ := Frame.exists_of_bytes _ _ htaillen
    exact ⟨g, hg.trans htail.symm, fun heq => absurd heq hintact⟩

theorem frames_of_sameFraming {frames : List Frame}
    {received : List (List UInt8)}
    (hsame : List.Forall₂ SameFraming (frames.map Frame.bytes) received) :
    ∃ found : List Frame, found.map Frame.bytes = received ∧
      ∀ k : ℕ, received[k]? = (frames.map Frame.bytes)[k]? →
        found[k]? = frames[k]? := by
  induction frames generalizing received with
  | nil =>
      rw [List.map_nil, List.forall₂_nil_left_iff] at hsame
      exact ⟨[], hsame.symm, fun _ _ => rfl⟩
  | cons f frames ih =>
      rw [List.map_cons, List.forall₂_cons_left_iff] at hsame
      obtain ⟨bytes, rest, hfirst, hrest, rfl⟩ := hsame
      obtain ⟨g, hg, hsameFrame⟩ := hfirst.frame
      obtain ⟨found, hfound, hindex⟩ := ih hrest
      refine ⟨g :: found, by rw [List.map_cons, hg, hfound], ?_⟩
      intro k hk
      cases k with
      | zero =>
          have hbytes : bytes = f.bytes := by simpa using hk
          simp [hsameFrame hbytes]
      | succ k =>
          have hlater := hindex k (by simpa using hk)
          simpa using hlater

/-! ## Writing frames -/

/-- A decoder with the dialects `ds` returns `p` for the frame, under the
sequence number `seq`. -/
def Frame.Carries (f : Frame) (ds : DialectSlice) (seq : UInt8)
    (p : Packet) : Prop :=
  f.verdict ds =
    (some { p with SeqID := seq, Checksum := f.checksum }, none)

theorem Frame.Carries.seq {f : Frame} {ds : DialectSlice} {seq : UInt8}
    {p : Packet} (hcarries : f.Carries ds seq p) : f.seq = seq :=
  (congrArg Packet.SeqID (packet_of_verdict hcarries)).symm

/-- The bytes are one frame for each packet, in this order and under
consecutive sequence numbers from `seq`. -/
def FramesFrom (ds : DialectSlice) (seq : UInt8) (packets : List Packet)
    (bytes : List UInt8) : Prop :=
  ∃ frames : List Frame, bytes = (frames.map Frame.bytes).flatten ∧
    frames.length = packets.length ∧
    ∀ (k : ℕ) (p : Packet), packets[k]? = some p →
      ∃ f, frames[k]? = some f ∧ f.Carries ds (seq + k.toUInt8) p

theorem FramesFrom.nil (ds : DialectSlice) (seq : UInt8) :
    FramesFrom ds seq [] [] := ⟨[], rfl, rfl, by simp⟩

theorem FramesFrom.snoc {ds : DialectSlice} {seq : UInt8}
    {packets : List Packet} {bytes : List UInt8}
    (hframes : FramesFrom ds seq packets bytes) {f : Frame} {p : Packet}
    (hcarries : f.Carries ds (seq + packets.length.toUInt8) p) :
    FramesFrom ds seq (packets ++ [p]) (bytes ++ f.bytes) := by
  obtain ⟨frames, rfl, hlen, hindex⟩ := hframes
  refine ⟨frames ++ [f], by simp, by simp [hlen], ?_⟩
  intro k q hq
  rcases lt_or_ge k packets.length with hlt | hge
  · rw [List.getElem?_append_left hlt] at hq
    obtain ⟨g, hg, hcarry⟩ := hindex k q hq
    exact ⟨g, by rw [List.getElem?_append_left (hlen ▸ hlt), hg], hcarry⟩
  · have hk : k = packets.length := by
      have hbound := (List.getElem?_eq_some_iff.mp hq).1
      rw [List.length_append, List.length_singleton] at hbound
      omega
    subst hk
    rw [List.getElem?_concat_length, Option.some.injEq] at hq
    subst hq
    refine ⟨f, ?_, hcarries⟩
    rw [← hlen, List.getElem?_concat_length]

/-- Every call on a packet of a known message delivers a frame that carries
the packet under the next sequence number. -/
theorem Encoder.EncodeCalls_known (packets : List Packet)
    (enc : Encoder) (hw : enc.bw.Reliable) (hflushed : enc.bw.buf = [])
    (hpayload : ∀ p ∈ packets, p.Payload.length ≤ 255)
    (hknown : ∀ p ∈ packets, (findCrcX enc.Dialects p.MsgID).isSome) :
    ∃ frames : List Frame,
      (EncodeCalls packets enc).1 =
        frames.map (fun f => (none, f.bytes)) ∧
      frames.length = packets.length ∧
      ∀ (k : ℕ) (p : Packet), packets[k]? = some p →
        ∃ f, frames[k]? = some f ∧
          f.Carries enc.Dialects (enc.CurrSeqID + k.toUInt8) p := by
  induction packets generalizing enc with
  | nil => exact ⟨[], rfl, rfl, by simp⟩
  | cons p packets ih =>
      obtain ⟨crcx, hcrcx⟩ :=
        Option.isSome_iff_exists.mp (hknown p List.mem_cons_self)
      have hle := hpayload p List.mem_cons_self
      obtain ⟨bw, hencode, hrel, hbuf, hout⟩ :=
        Encoder.EncodePacket_known hw hcrcx
      obtain ⟨frames, hcalls, hlen, hcarries⟩ := ih
        { enc with bw := bw, CurrSeqID := enc.CurrSeqID + 1 } hrel hbuf
        (fun q hq => hpayload q (List.mem_cons_of_mem p hq))
        (fun q hq => hknown q (List.mem_cons_of_mem p hq))
      let f := p.frame enc.CurrSeqID crcx hle
      have hdelivered : bw.out.drop enc.bw.out.length = f.bytes := by
        rw [hout, Writer.stream, hflushed, List.append_nil, List.drop_left,
          Packet.bytes_frame]
      refine ⟨f :: frames, ?_, by simp [hlen], ?_⟩
      · simp only [Encoder.EncodeCalls, hencode, hcalls, hdelivered,
          List.map_cons]
      · intro k q hq
        cases k with
        | zero =>
            have hpq : p = q := by simpa using hq
            subst hpq
            refine ⟨f, rfl, ?_⟩
            have hzero : enc.CurrSeqID + (0 : ℕ).toUInt8 = enc.CurrSeqID :=
              UInt8.add_zero _
            rw [hzero]
            exact p.verdict_frame enc.CurrSeqID hle hcrcx
        | succ k =>
            obtain ⟨g, hg, hcarry⟩ := hcarries k q (by simpa using hq)
            refine ⟨g, by simpa using hg, ?_⟩
            have hseq : enc.CurrSeqID + (k + 1).toUInt8 =
                enc.CurrSeqID + 1 + k.toUInt8 := by
              simp only [Nat.toUInt8_eq, UInt8.ofNat_add]
              rw [UInt8.add_assoc, UInt8.add_comm (UInt8.ofNat k)]
              rfl
            rw [hseq]
            exact hcarry

/-! ## The stream between an encoder and a decoder -/

/-- Packets of known messages, written by an encoder and read back with
repeated `Decode` calls from a stream with noise between the frames.  Each
call consumes one frame and the noise in front of it, also when the frame
was damaged behind its length byte; every undamaged frame gives its packet
under the next sequence number; and the call behind the last frame finds the
end of input.  If `received` is what was sent, every packet comes back. -/
theorem decode_encoded_stream (enc : Encoder) (dec : Decoder)
    (packets : List Packet) (noise : ℕ → List UInt8)
    (received : List (List UInt8))
    (hw : enc.bw.Reliable) (hflushed : enc.bw.buf = [])
    (hdialects : dec.Dialects = enc.Dialects)
    (hpayload : ∀ p ∈ packets, p.Payload.length ≤ 255)
    (hknown : ∀ p ∈ packets, (findCrcX enc.Dialects p.MsgID).isSome)
    (hnoise : ∀ k, startByte ∉ noise k)
    (hreceived : List.Forall₂ SameFraming (enc.sent packets) received)
    (hstream : dec.br.rest = interleave noise received) :
    (∀ call ∈ (Encoder.EncodeCalls packets enc).1, call.1 = none) ∧
    ∃ calls dec',
      dec.DecodeCalls (packets.length + 1) = .ok (calls, dec') ∧
      calls.length = packets.length + 1 ∧
      (∀ (k : ℕ) (bytes : List UInt8), received[k]? = some bytes →
        calls[k]?.map DecodeCall.consumed = some (noise k ++ bytes)) ∧
      (∀ (k : ℕ) (p : Packet), packets[k]? = some p →
        received[k]? = (enc.sent packets)[k]? →
        ∃ seq checksum,
          seq.toNat = (enc.CurrSeqID.toNat + k) % 256 ∧
          calls[k]?.map DecodeCall.result =
            some (some { p with SeqID := seq, Checksum := checksum },
              none)) ∧
      calls[packets.length]?.map DecodeCall.result =
        some (none, some (.read .eof)) := by
  obtain ⟨frames, hcalls, hlen, hcarries⟩ :=
    Encoder.EncodeCalls_known packets enc hw hflushed hpayload hknown
  have hsent : enc.sent packets = frames.map Frame.bytes := by
    simp [Encoder.sent, hcalls]
  rw [hsent] at hreceived
  refine ⟨by simp [hcalls], ?_⟩
  obtain ⟨found, rfl, hintact⟩ := frames_of_sameFraming hreceived
  have hfoundlen : found.length = packets.length := by
    have hlengths := hreceived.length_eq
    rw [List.length_map, List.length_map] at hlengths
    omega
  obtain ⟨dec', hdecode⟩ :=
    dec.DecodeCalls_interleave found hnoise hstream
  rw [hfoundlen] at hdecode
  refine ⟨_, dec', hdecode, by simp [hfoundlen], ?_, ?_, ?_⟩
  · intro k bytes hk
    rw [List.getElem?_map, Option.map_eq_some_iff] at hk
    obtain ⟨f, hf, rfl⟩ := hk
    have hbound : k < found.length := (List.getElem?_eq_some_iff.mp hf).1
    rw [List.getElem?_append_left (by simpa using hbound)]
    simp [hf]
  · intro k p hp hsame
    obtain ⟨f, hf, hcarry⟩ := hcarries k p hp
    have hfound : found[k]? = some f :=
      (hintact k (hsame.trans (by rw [hsent]))).trans hf
    have hbound : k < found.length :=
      (List.getElem?_eq_some_iff.mp hfound).1
    refine ⟨enc.CurrSeqID + k.toUInt8, f.checksum, ?_, ?_⟩
    · rw [UInt8.toNat_add, Nat.toUInt8_eq, UInt8.toNat_ofNat']
      omega
    · rw [List.getElem?_append_left (by simpa using hbound)]
      simp only [List.getElem?_mapIdx, hfound, Option.map_some, hdialects]
      exact congrArg some hcarry
  · rw [List.getElem?_append_right (by simp [hfoundlen])]
    simp [hfoundlen]

/-- Two heartbeats from sequence number 255, the first damaged, each behind
a byte of noise. -/
theorem decode_encoded_stream_damaged_first :
    ∃ calls dec',
      Decoder.DecodeCalls 3
        (NewDecoder (interleave (fun _ => [0x55])
          [[254, 0, 255, 1, 9, 0, 220, 169],
            [254, 1, 0, 1, 1, 0, 9, 44, 62]])) = .ok (calls, dec') ∧
      calls[0]?.map DecodeCall.consumed =
        some [0x55, 254, 0, 255, 1, 9, 0, 220, 169] ∧
      ∃ seq checksum, seq.toNat = 0 ∧
        calls[1]?.map DecodeCall.result =
          some (some ⟨seq, 1, 1, 0, [9], checksum⟩, none) := by
  obtain ⟨-, calls, dec', hcalls, -, hconsumed, hintact, -⟩ :=
    decode_encoded_stream { NewEncoder none with CurrSeqID := 255 }
      (NewDecoder (interleave (fun _ => [0x55])
        [[254, 0, 255, 1, 9, 0, 220, 169],
          [254, 1, 0, 1, 1, 0, 9, 44, 62]]))
      [⟨0, 1, 1, 0, [], 0⟩, ⟨0, 1, 1, 0, [9], 0⟩] (fun _ => [0x55])
      [[254, 0, 255, 1, 9, 0, 220, 169], [254, 1, 0, 1, 1, 0, 9, 44, 62]]
      ⟨rfl, rfl⟩ rfl rfl (by decide) (by decide) (fun _ => by decide)
      (by
        have hsent : Encoder.sent { NewEncoder none with CurrSeqID := 255 }
            [⟨0, 1, 1, 0, [], 0⟩, ⟨0, 1, 1, 0, [9], 0⟩] =
              [[254, 0, 255, 1, 1, 0, 220, 169],
                [254, 1, 0, 1, 1, 0, 9, 44, 62]] := by decide
        rw [hsent]
        exact .cons (by decide) (.cons (by decide) .nil))
      rfl
  exact ⟨calls, dec', hcalls, hconsumed 0 _ rfl,
    hintact 1 _ rfl (by decide)⟩

end DronesmithEngine.Mavlink
