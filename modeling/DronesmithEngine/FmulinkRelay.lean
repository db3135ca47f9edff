import DronesmithEngine.MavlinkStream
import Mathlib.Tactic

/-!
# Relaying frames through the flight-controller link

`Serve` in `fmulink/fmulink.go` serializes every decoded packet again before
it hands the bytes to outputs, cloud, log and vehicle, and it re-encodes raw
commands of the cloud for the flight controller.  The first direction is
exact for every stream; the second is right for well-formed frames only.
-/

namespace DronesmithEngine.Fmulink

open Go BufferedIO Mavlink

/-! ## From the flight controller -/

def unrollPacket (pkt : Packet) : List UInt8 :=
  [0xFE, pkt.Payload.length.toUInt8, pkt.SeqID, pkt.SysID, pkt.CompID,
    pkt.MsgID] ++ pkt.Payload ++
      [(pkt.Checksum &&& 0xFF).toUInt8, (pkt.Checksum >>> 8).toUInt8]

theorem unrollPacket_packet (f : Frame) :
    unrollPacket f.packet = f.bytes := by
  simp [unrollPacket, Frame.packet, Frame.bytes, Frame.header, u16ToBytes,
    startByte]

/-- What holds of a single `Decode` call on the bytes in front of it. -/
structure FaithfulCall (call : DecodeCall) : Prop where
  progress : call.consumed ≠ [] ∨
    ∃ e, call.result.2 = some (.read e)
  relayed : ∀ p, call.result = (some p, none) →
    ∃ noise, startByte ∉ noise ∧ call.consumed = noise ++ unrollPacket p
  agreed : ∀ p, call.result = (some p, none) →
    DecodeBytes (unrollPacket p) = .ok (some p, none)

theorem Decode_faithful (dec : Decoder)
    (hdialects : dec.Dialects = [DialectCommon]) :
    ∃ result consumed dec', dec.Decode = .ok (result, dec') ∧
      dec.br.rest = consumed ++ dec'.br.rest ∧
      dec'.Dialects = [DialectCommon] ∧
      FaithfulCall ⟨result, consumed⟩ := by
  rcases dec.Decode_cases with
    ⟨p, e, dec', hdecode, hrest, hsame⟩ | ⟨noise, f, rest, hnoise, hsplit⟩
  · refine ⟨(p, some (.read e)), dec.br.rest, dec', hdecode, ?_,
      hsame.trans hdialects, ?_⟩
    · rw [hrest, List.append_nil]
    · exact ⟨Or.inr ⟨e, rfl⟩, by simp, by simp⟩
  · obtain ⟨dec', hdecode, hrest, hsame⟩ := dec.Decode_frame hnoise hsplit
    refine ⟨f.verdict dec.Dialects, noise ++ f.bytes, dec', hdecode, ?_,
      hsame.trans hdialects, ?_⟩
    · rw [hrest, hsplit]
    · refine ⟨Or.inl (by simp [Frame.bytes]), ?_, ?_⟩
      · intro p hp
        have hpacket := packet_of_verdict hp
        subst hpacket
        exact ⟨noise, hnoise, by rw [unrollPacket_packet]⟩
      · intro p hp
        have hpacket := packet_of_verdict hp
        subst hpacket
        rw [unrollPacket_packet, DecodeBytes_frame, ← hdialects]
        exact congrArg _ hp

theorem DecodeCalls_faithful (n : ℕ) (dec : Decoder)
    (hdialects : dec.Dialects = [DialectCommon]) :
    ∃ calls dec', dec.DecodeCalls n = .ok (calls, dec') ∧
      dec.br.rest =
        (calls.map DecodeCall.consumed).flatten ++ dec'.br.rest ∧
      ∀ call ∈ calls, FaithfulCall call := by
  induction n generalizing dec with
  | zero => exact ⟨[], dec, rfl, rfl, by simp⟩
  | succ n ih =>
      obtain ⟨result, consumed, dec', hdecode, hsplit, hsame, hfaithful⟩ :=
        Decode_faithful dec hdialects
      obtain ⟨calls, last, hcalls, hrest, hall⟩ := ih dec' hsame
      have hconsumed : dec.br.rest.take
          (dec.br.rest.length - dec'.br.rest.length) = consumed := by
        rw [hsplit]
        exact consumed_append _ _
      refine ⟨⟨result, consumed⟩ :: calls, last, ?_, ?_, ?_⟩
      · rw [Decoder.DecodeCalls, hdecode, ok_bind]
        simp only [hcalls, ok_bind, hconsumed, pure_eq_ok]
      · rw [hsplit, hrest]
        simp
      · rintro call (_ | ⟨_, hcall⟩)
        · exact hfaithful
        · exact hall call hcall

/-- On any stream, any number of `Decode` calls goes through without an index
out of range, the calls account for the bytes one after the other, every call
consumes something or reports a read error, and every packet returned
without an error unrolls to the frame it was read from, which the second
decoder reads in the same way. -/
theorem relayed_frames_are_received (r : List UInt8) (n : ℕ) :
    ∃ calls dec', (NewDecoder r).DecodeCalls n = .ok (calls, dec') ∧
      r = (calls.map DecodeCall.consumed).flatten ++ dec'.br.rest ∧
      ∀ call ∈ calls, FaithfulCall call :=
  DecodeCalls_faithful n (NewDecoder r) rfl

/-! ## From the cloud -/

/-- The raw command the cloud link holds, and the flight controller's
encoder. -/
structure CommandLink where
  rawFmuCmd : Option (List UInt8)
  enc : Encoder

def CommandLink.SetRawFmuCmd (link : CommandLink) (chunk : List UInt8) :
    CommandLink :=
  { link with rawFmuCmd := some chunk }

/-- The packet whose fields are cut out of the command's bytes. -/
def packetOfChunk (chunk : List UInt8) : Checked Packet := do
  let seqID ← index chunk 2
  let sysID ← index chunk 3
  let compID ← index chunk 4
  let msgID ← index chunk 5
  let payload ← slice chunk 6 (chunk.length - 2)
  pure
    { SeqID := seqID
      SysID := sysID
      CompID := compID
      MsgID := msgID
      Payload := payload
      Checksum := 0 }

/-- The forwarding step of `Serve`, and the error it logs. -/
def CommandLink.forward (link : CommandLink) :
    Checked (Option Error × CommandLink) :=
  match link.rawFmuCmd with
  | none => pure (none, link)
  | some chunk => do
      let p ← packetOfChunk chunk
      let (err, enc) := link.enc.EncodePacket p
      pure (err, { rawFmuCmd := none, enc := enc })

/-- The bytes of exactly one frame of a known message. -/
def KnownFrame (ds : DialectSlice) (data : List UInt8) : Prop :=
  ∃ n msgID, data[0]? = some startByte ∧ data[1]? = some n ∧
    data.length = n.toNat + 8 ∧ data[5]? = some msgID ∧
    (findCrcX ds msgID).isSome

theorem knownFrame_iff (ds : DialectSlice) (data : List UInt8) :
    KnownFrame ds data ↔
      data[0]? = some startByte ∧
      (data[1]?.map fun n => n.toNat + 8) = some data.length ∧
      (data[5]?.bind (findCrcX ds)).isSome := by
  constructor
  · rintro ⟨n, msgID, hfirst, hsecond, hlen, hfifth, hknown⟩
    refine ⟨hfirst, ?_, by simpa [hfifth] using hknown⟩
    rw [hsecond, hlen, Option.map_some]
  · rintro ⟨hfirst, hlen, hknown⟩
    obtain ⟨n, hsecond, hcount⟩ := Option.map_eq_some_iff.mp hlen
    obtain ⟨crcx, hcrcx⟩ := Option.isSome_iff_exists.mp hknown
    obtain ⟨msgID, hfifth, hfind⟩ := Option.bind_eq_some_iff.mp hcrcx
    exact ⟨n, msgID, hfirst, hsecond, hcount.symm, hfifth, by simp [hfind]⟩

instance (ds : DialectSlice) (data : List UInt8) :
    Decidable (KnownFrame ds data) :=
  decidable_of_iff
    (data[0]? = some startByte ∧
      (data[1]?.map fun n => n.toNat + 8) = some data.length ∧
      (data[5]?.bind (findCrcX ds)).isSome)
    (knownFrame_iff ds data).symm

/-- The step that forwards `data` wrote one frame that a decoder accepts, and
it has the content of the frame received. -/
def Forwarded (enc next : Encoder) (data : List UInt8) : Prop :=
  ∃ received written : Frame, data = received.bytes ∧
    next.bw.out = enc.bw.out ++ written.bytes ∧
    (∃ dec, Decoder.Decode ⟨0, enc.Dialects, ⟨written.bytes⟩⟩ =
      .ok ((some written.packet, none), dec) ∧ dec.br.rest = []) ∧
    written.sys = received.sys ∧ written.comp = received.comp ∧
    written.msgID = received.msgID ∧ written.payload = received.payload

/-- What forwarding `data` should do: not panic, and reject the data without
a trace or write one frame. -/
def ForwardsSafely (link : CommandLink) (data : List UInt8) : Prop :=
  ∃ err next, (link.SetRawFmuCmd data).forward = .ok (err, next) ∧
    (err.isSome ∧ next.enc.bw.stream = link.enc.bw.stream ∨
      err = none ∧ Forwarded link.enc next.enc data)

theorem packetOfChunk_short {chunk : List UInt8}
    (hshort : chunk.length < 8) : ∃ e, packetOfChunk chunk = .error e := by
  rcases chunk with _ | ⟨b₀, _ | ⟨b₁, _ | ⟨b₂, _ | ⟨b₃, _ | ⟨b₄, _ |
    ⟨b₅, body⟩⟩⟩⟩⟩⟩
  case cons.cons.cons.cons.cons.cons =>
    have hslice : slice (b₀ :: b₁ :: b₂ :: b₃ :: b₄ :: b₅ :: body) 6
        ((b₀ :: b₁ :: b₂ :: b₃ :: b₄ :: b₅ :: body).length - 2) =
          .error .sliceBounds := by
      apply slice_error
      simp only [List.length_cons] at hshort ⊢
      omega
    refine ⟨.sliceBounds, ?_⟩
    simp only [packetOfChunk, hslice]
    rfl
  all_goals exact ⟨.indexOutOfRange, rfl⟩

/-- A command of at least eight bytes is cut like a frame whose payload has
whatever length is left. -/
theorem packetOfChunk_long {chunk : List UInt8} (hlong : 8 ≤ chunk.length) :
    ∃ b₀ b₁ seq sys comp msgID payload lo hi,
      chunk = b₀ :: b₁ :: seq :: sys :: comp :: msgID ::
        (payload ++ [lo, hi]) ∧
      packetOfChunk chunk = .ok ⟨seq, sys, comp, msgID, payload, 0⟩ := by
  rcases chunk with _ | ⟨b₀, _ | ⟨b₁, _ | ⟨b₂, _ | ⟨b₃, _ | ⟨b₄, _ |
    ⟨b₅, body⟩⟩⟩⟩⟩⟩
  case cons.cons.cons.cons.cons.cons =>
    simp only [List.length_cons] at hlong
    obtain ⟨lo, hi, hlast⟩ : ∃ lo hi,
        body.drop (body.length - 2) = [lo, hi] := by
      apply List.length_eq_two.mp
      rw [List.length_drop]
      omega
    have hbody : body.take (body.length - 2) ++ [lo, hi] = body := by
      rw [← hlast, List.take_append_drop]
    refine ⟨b₀, b₁, b₂, b₃, b₄, b₅, body.take (body.length - 2), lo, hi,
      by rw [hbody], ?_⟩
    have hslice : slice (b₀ :: b₁ :: b₂ :: b₃ :: b₄ :: b₅ :: body) 6
        ((b₀ :: b₁ :: b₂ :: b₃ :: b₄ :: b₅ :: body).length - 2) =
          .ok (body.take (body.length - 2)) := by
      have hend : (b₀ :: b₁ :: b₂ :: b₃ :: b₄ :: b₅ :: body).length - 2 =
          body.length - 2 + 6 := by
        simp only [List.length_cons]
        omega
      rw [hend, slice_ok (by omega) (by simp only [List.length_cons]; omega)]
      simp
    simp only [packetOfChunk, hslice]
    rfl
  all_goals simp at hlong

theorem fields_of_bytes {f : Frame}
    {b₀ b₁ seq sys comp msgID lo hi : UInt8} {payload : List UInt8}
    (hbytes : f.bytes = b₀ :: b₁ :: seq :: sys :: comp :: msgID ::
      (payload ++ [lo, hi])) :
    b₀ = startByte ∧ b₁.toNat = payload.length ∧ f.sys = sys ∧
      f.comp = comp ∧ f.msgID = msgID ∧ f.payload = payload := by
  simp only [Frame.bytes, Frame.header, List.cons_append, List.nil_append,
    List.cons.injEq] at hbytes
  obtain ⟨rfl, rfl, -, hsys, hcomp, hmsg, hbody⟩ := hbytes
  have hpayload : f.payload = payload := List.append_inj_left' hbody rfl
  exact ⟨rfl, by rw [f.toNat_length, hpayload], hsys, hcomp, hmsg,
    hpayload⟩

theorem ForwardsSafely.known {link : CommandLink} {data : List UInt8}
    (hw : link.enc.bw.Reliable) (hsafe : ForwardsSafely link data) :
    link.enc.bw.buf = [] ∧ KnownFrame link.enc.Dialects data := by
  obtain ⟨err, next, hforward, houtcome⟩ := hsafe
  by_cases hshort : data.length < 8
  · obtain ⟨e, hpanic⟩ := packetOfChunk_short hshort
    simp [CommandLink.SetRawFmuCmd, CommandLink.forward, hpanic]
      at hforward
  · obtain ⟨b₀, b₁, seq, sys, comp, msgID, payload, lo, hi, hdata,
      hpacket⟩ := packetOfChunk_long (not_lt.mp hshort)
    simp only [CommandLink.SetRawFmuCmd, CommandLink.forward, hpacket,
      ok_bind, pure_eq_ok, Except.ok.injEq, Prod.mk.injEq] at hforward
    obtain ⟨rfl, rfl⟩ := hforward
    cases hcrcx : findCrcX link.enc.Dialects msgID with
    | none =>
        -- The header went into the buffer before the message was looked up.
        obtain ⟨bw, hencode, -, hstream⟩ := Encoder.EncodePacket_unknown
          (p := ⟨seq, sys, comp, msgID, payload, 0⟩) hw hcrcx
        rw [hencode] at houtcome
        rcases houtcome with ⟨-, hsame⟩ | ⟨hnone, -⟩
        · rw [hstream] at hsame
          simp at hsame
        · contradiction
    | some crcx =>
        obtain ⟨bw, hencode, -, -, hout⟩ := Encoder.EncodePacket_known
          (p := ⟨seq, sys, comp, msgID, payload, 0⟩) hw hcrcx
        rw [hencode] at houtcome
        rcases houtcome with ⟨hsome, -⟩ | ⟨-, hforwarded⟩
        · contradiction
        · obtain ⟨received, written, hreceived, hwritten, -, -, -, -,
            hpayload⟩ := hforwarded
          obtain ⟨rfl, hcount, -, -, hmsg, hsame⟩ :=
            fields_of_bytes (hreceived.symm.trans hdata)
          constructor
          · have hlengths := congrArg List.length
              (hwritten.symm.trans hout)
            simp only [List.length_append, List.length_cons,
              Frame.length_bytes, Writer.stream, Packet.covered,
              length_u16ToBytes, hpayload, hsame, List.length_nil]
              at hlengths
            exact List.eq_nil_of_length_eq_zero (by omega)
          · refine ⟨b₁, msgID, by simp [hdata], by simp [hdata], ?_,
              by simp [hdata], by simp [hcrcx]⟩
            rw [hdata, hcount]
            simp

/-- One whole frame of a known message is cut into a packet whose encoding
delivers one frame, which carries the packet that was received. -/
theorem KnownFrame.encodes {enc : Encoder} {data : List UInt8}
    (hw : enc.bw.Reliable) (hbuf : enc.bw.buf = [])
    (hframe : KnownFrame enc.Dialects data) :
    ∃ p, packetOfChunk data = .ok p ∧
      ∃ (received written : Frame) (bw : Writer),
        data = received.bytes ∧
        enc.EncodePacket p =
          (none, { enc with bw := bw, CurrSeqID := enc.CurrSeqID + 1 }) ∧
        bw.buf = [] ∧ bw.out = enc.bw.out ++ written.bytes ∧
        written.Carries enc.Dialects enc.CurrSeqID received.packet := by
  obtain ⟨n, msgID, hfirst, hsecond, hlen, hfifth, hknown⟩ := hframe
  have hlong : 8 ≤ data.length := by omega
  obtain ⟨b₀, b₁, seq, sys, comp, msgID', payload, lo, hi, rfl, hpacket⟩ :=
    packetOfChunk_long hlong
  obtain rfl : b₀ = startByte := by simpa using hfirst
  obtain rfl : b₁ = n := by simpa using hsecond
  obtain rfl : msgID' = msgID := by simpa using hfifth
  obtain ⟨crcx, hcrcx⟩ := Option.isSome_iff_exists.mp hknown
  obtain ⟨received, hreceived⟩ := Frame.exists_of_bytes b₁
    (seq :: sys :: comp :: msgID' :: (payload ++ [lo, hi]))
    (by
      simp only [List.length_cons] at hlen ⊢
      omega)
  obtain ⟨-, -, rfl, rfl, rfl, rfl⟩ := fields_of_bytes hreceived
  let p : Packet :=
    ⟨seq, received.sys, received.comp, received.msgID, received.payload, 0⟩
  obtain ⟨bw, hencode, -, hflushed, hout⟩ :=
    Encoder.EncodePacket_known (p := p) hw hcrcx
  refine ⟨p, hpacket, received,
    p.frame enc.CurrSeqID crcx received.payload_le, bw, hreceived.symm,
    hencode, hflushed, ?_,
    p.verdict_frame enc.CurrSeqID received.payload_le hcrcx⟩
  rw [hout, Writer.stream, hbuf, List.append_nil]
  rfl

theorem KnownFrame.forwards {link : CommandLink} {data : List UInt8}
    (hw : link.enc.bw.Reliable) (hbuf : link.enc.bw.buf = [])
    (hframe : KnownFrame link.enc.Dialects data) :
    ForwardsSafely link data := by
  obtain ⟨p, hpacket, received, written, bw, hdata, hencode, -, hout,
    hcarries⟩ := hframe.encodes hw hbuf
  have hstream : written.bytes = [] ++ written.bytes ++ [] := by simp
  obtain ⟨dec, hdecode, hrest, -⟩ := Decoder.Decode_frame
    ⟨0, link.enc.Dialects, ⟨written.bytes⟩⟩ (by simp) hstream
  have hwritten := packet_of_verdict hcarries
  have hverdict : written.verdict link.enc.Dialects =
      (some written.packet, none) := by
    rw [← hwritten]
    exact hcarries
  rw [hverdict] at hdecode
  refine ⟨none, ⟨none,
    { link.enc with bw := bw, CurrSeqID := link.enc.CurrSeqID + 1 }⟩, ?_,
    Or.inr ⟨rfl, received, written, hdata, hout, ⟨dec, hdecode, hrest⟩,
      (congrArg Packet.SysID hwritten).symm,
      (congrArg Packet.CompID hwritten).symm,
      (congrArg Packet.MsgID hwritten).symm,
      (congrArg Packet.Payload hwritten).symm⟩⟩
  simp only [CommandLink.SetRawFmuCmd, CommandLink.forward, hpacket, ok_bind,
    pure_eq_ok]
  rw [hencode]

/-- Over a reliable connection, forwarding is safe exactly when the data is
one whole frame of a known message and no earlier packet left bytes in the
encoder's buffer. -/
theorem forward_safe_iff (link : CommandLink) (data : List UInt8)
    (hw : link.enc.bw.Reliable) :
    ForwardsSafely link data ↔
      link.enc.bw.buf = [] ∧ KnownFrame link.enc.Dialects data :=
  ⟨fun hsafe => hsafe.known hw, fun hknown => hknown.2.forwards hw hknown.1⟩

theorem forward_safe_iff_heartbeat :
    ForwardsSafely ⟨none, NewEncoder none⟩
      [254, 0, 255, 1, 1, 0, 220, 169] :=
  (forward_safe_iff ⟨none, NewEncoder none⟩ _ ⟨rfl, rfl⟩).mpr
    ⟨rfl, 0, 0, rfl, rfl, rfl, rfl, by decide⟩

/-- A command without data makes the forwarding step panic. -/
theorem forward_empty_command_panics :
    ¬ ForwardsSafely ⟨none, NewEncoder none⟩ [] := by
  rintro ⟨err, next, hforward, -⟩
  cases hforward

end DronesmithEngine.Fmulink
