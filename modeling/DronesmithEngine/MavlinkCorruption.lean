import DronesmithEngine.MavlinkStream
import Mathlib.Tactic

/-!
# Damaged frames are refused

One changed byte behind the length byte, other than the message id, or two
adjacent ones in the payload or in the header change what the checksum
covers or the checksum itself, and never both.
-/

namespace DronesmithEngine.Mavlink

open Go BufferedIO Checksums

/-- The positions of a frame of `n` bytes that may be damaged: sequence
number, system and component id, payload and checksum. -/
def Exposed (n i : ℕ) : Prop := (2 ≤ i ∧ i ≤ 4) ∨ (6 ≤ i ∧ i < n)

/-- The positions `i` and `i + 1` are both in the payload, or both between
the sequence number and the component id. -/
def ExposedPair (n i : ℕ) : Prop :=
  (2 ≤ i ∧ i + 1 ≤ 4) ∨ (6 ≤ i ∧ i + 1 < n - numChecksumBytes)

/-- What is received when one byte of a frame, or two adjacent ones, are
changed. -/
def Damaged (frame received : List UInt8) : Prop :=
  Changed (Exposed frame.length) (ExposedPair frame.length) frame received

namespace Frame

def covered (f : Frame) : List UInt8 := f.header ++ f.payload

@[simp] theorem length_covered (f : Frame) :
    f.covered.length = f.payload.length + 5 := by
  rw [covered, List.length_append, length_header, Nat.add_comm]

theorem bytes_eq (f : Frame) :
    f.bytes = startByte :: (f.covered ++ u16ToBytes f.checksum) := rfl

theorem sum_eq (f : Frame) (crcx : UInt8) :
    f.sum crcx = X25.WriteByte (f.covered.foldl X25.WriteByte X25.New) crcx :=
  rfl

theorem msgID_eq (f : Frame) : f.covered[4]? = some f.msgID := rfl

theorem verdict_crcFail {f : Frame} {ds : DialectSlice} {crcx : UInt8}
    (hknown : findCrcX ds f.msgID = some crcx)
    (hsum : f.checksum ≠ f.sum crcx) :
    f.verdict ds = (some f.packet, some .ErrCrcFail) := by
  simp only [verdict, hknown, hsum, if_false]

/-- A frame whose bytes differ from a sound one in what is covered, or in
the checksum, is not sound. -/
theorem sum_ne {f g : Frame} {crcx : UInt8} (hsum : f.checksum = f.sum crcx)
    (hdiffer :
      (g.checksum = f.checksum ∧
        g.covered.foldl X25.WriteByte X25.New ≠
          f.covered.foldl X25.WriteByte X25.New) ∨
      (g.covered = f.covered ∧ g.checksum ≠ f.checksum)) :
    g.checksum ≠ g.sum crcx := by
  rcases hdiffer with ⟨hsame, hne⟩ | ⟨hsame, hne⟩
  · rw [hsame, hsum, sum_eq, sum_eq]
    exact fun heq => hne (X25.WriteByte_detecting.state crcx heq).symm
  · rw [sum_eq, hsame, ← sum_eq, ← hsum]
    exact hne

end Frame

theorem Damaged.sameFraming {frame received : List UInt8}
    (hdamaged : Damaged frame received) : SameFraming frame received := by
  refine ⟨hdamaged.length, List.ext_getElem? fun k => ?_⟩
  by_cases hk : k < 2
  · rw [List.getElem?_take_of_lt hk, List.getElem?_take_of_lt hk]
    apply hdamaged.getElem?_eq
    · unfold Exposed
      omega
    · unfold ExposedPair
      omega
  · simp [hk]

/-- A damaged frame is a frame of the same message whose checksum is
wrong. -/
theorem Damaged.frame {f : Frame} {received : List UInt8} {crcx : UInt8}
    (hdamaged : Damaged f.bytes received) (hsum : f.checksum = f.sum crcx) :
    ∃ g : Frame, g.bytes = received ∧ g.msgID = f.msgID ∧
      g.checksum ≠ g.sum crcx := by
  obtain ⟨g, rfl, -⟩ := hdamaged.sameFraming.frame
  have hpairs : ∀ i, ExposedPair f.bytes.length (i + 1) →
      i + 1 < f.covered.length := by
    intro i hi
    rw [ExposedPair, numChecksumBytes, f.length_bytes] at hi
    rw [f.length_covered]
    omega
  obtain ⟨body, hbody, hbehind⟩ :=
    hdamaged.tail (by unfold Exposed; omega) (by unfold ExposedPair; omega)
  rw [g.bytes_eq, List.cons_inj_right] at hbody
  subst hbody
  have hmsg : g.covered[4]? = f.covered[4]? := by
    have hsame : (g.covered ++ u16ToBytes g.checksum)[4]? =
        (f.covered ++ u16ToBytes f.checksum)[4]? :=
      hbehind.getElem?_eq (by unfold Exposed; omega)
        (by unfold ExposedPair; omega)
    have hg : 4 < g.covered.length := by
      rw [g.length_covered]
      omega
    have hf : 4 < f.covered.length := by
      rw [f.length_covered]
      omega
    rwa [List.getElem?_append_left hg, List.getElem?_append_left hf]
      at hsame
  refine ⟨g, rfl, ?_, Frame.sum_ne hsum ?_⟩
  · rw [g.msgID_eq, f.msgID_eq, Option.some.injEq] at hmsg
    exact hmsg
  · rcases X25.WriteByte_detecting.changed X25.New hbehind hpairs with
      ⟨covered, heq, hne⟩ | ⟨checksum, heq, hlen, hne⟩
    · obtain ⟨rfl, hchecksum⟩ := List.append_inj' heq rfl
      exact Or.inl ⟨u16ToBytes_injective hchecksum, hne⟩
    · obtain ⟨hcovered, rfl⟩ := List.append_inj' heq hlen.symm
      exact Or.inr ⟨hcovered, fun hsame => hne (congrArg _ hsame)⟩

/-- The frame of a packet that was encoded, damaged in one byte or in two
adjacent ones: `Decode` consumes it and returns `ErrCrcFail`. -/
theorem Decode_damaged {enc enc' : Encoder} {p : Packet} {dec : Decoder}
    {frame received rest : List UInt8}
    (hpayload : p.Payload.length ≤ 255)
    (hencode : enc.EncodePacket p = (none, enc'))
    (hframe : enc'.bw.out = enc.bw.stream ++ frame)
    (hknown : findCrcX dec.Dialects p.MsgID = findCrcX enc.Dialects p.MsgID)
    (hdamaged : Damaged frame received)
    (hstream : dec.br.rest = received ++ rest) :
    ∃ q dec', dec.Decode = .ok ((some q, some .ErrCrcFail), dec') ∧
      dec'.br.rest = rest := by
  obtain ⟨crcx, hcrcx, hout⟩ := Encoder.EncodePacket_succeeded hencode
  let f := p.frame enc.CurrSeqID crcx hpayload
  have hf : frame = f.bytes := by
    rw [hframe] at hout
    exact List.append_cancel_left hout
  subst hf
  have hsum : f.checksum = f.sum crcx := rfl
  obtain ⟨g, rfl, hmsg, hwrong⟩ := hdamaged.frame hsum
  have hds : findCrcX dec.Dialects g.msgID = some crcx := by
    rw [hmsg]
    exact hknown.trans hcrcx
  have hsplit : dec.br.rest = [] ++ g.bytes ++ rest := hstream
  obtain ⟨dec', hdecode, hrest, -⟩ :=
    dec.Decode_frame List.not_mem_nil hsplit
  refine ⟨g.packet, dec', ?_, hrest⟩
  rw [hdecode, Frame.verdict_crcFail hds hwrong]

/-- A heartbeat with a changed payload byte. -/
theorem Decode_damaged_heartbeat :
    ∃ q dec', (NewDecoder [254, 1, 0, 1, 1, 0, 8, 44, 62]).Decode =
        .ok ((some q, some .ErrCrcFail), dec') ∧
      dec'.br.rest = [] := by
  let enc := NewEncoder none
  let p : Packet := ⟨0, 1, 1, 0, [9], 0⟩
  have hencode : enc.EncodePacket p = (none, (enc.EncodePacket p).2) :=
    Prod.ext (by decide) rfl
  have hframe : (enc.EncodePacket p).2.bw.out =
      enc.bw.stream ++ [254, 1, 0, 1, 1, 0, 9, 44, 62] := by
    decide
  have hdamaged : Damaged [254, 1, 0, 1, 1, 0, 9, 44, 62]
      ([254, 1, 0, 1, 1, 0, 9, 44, 62].set 6 8) :=
    .one (Or.inr (by decide)) rfl (by decide)
  exact Decode_damaged (by decide) hencode hframe rfl hdamaged rfl

end DronesmithEngine.Mavlink
