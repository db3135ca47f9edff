import DronesmithEngine.MavlinkStream
import Mathlib.Tactic

/-!
# Calls that fail

`EncodePacket` writes header and payload into its buffer before it looks the
message up, so a call for an unknown message leaves them there, and the next
call that succeeds delivers them in front of its own frame.
-/

namespace DronesmithEngine.Mavlink

open Go BufferedIO

namespace Encoder

/-- The encoder after a call for each packet. -/
def after (enc : Encoder) (packets : List Packet) : Encoder :=
  (EncodeCalls packets enc).2

/-- The packets whose calls return no error. -/
def succeeded : List Packet → Encoder → List Packet
  | [], _ => []
  | p :: packets, enc =>
      match enc.EncodePacket p with
      | (none, enc') => p :: succeeded packets enc'
      | (some _, enc') => succeeded packets enc'

/-- What reaches the underlying writer is one frame for each call that
succeeds, under consecutive sequence numbers, and a call that fails leaves no
trace. -/
structure DeliversSucceeded (enc : Encoder) (packets : List Packet) :
    Prop where
  delivered : ∃ bytes, (enc.after packets).bw.out = enc.bw.out ++ bytes ∧
    FramesFrom enc.Dialects enc.CurrSeqID (succeeded packets enc) bytes
  unchanged : ∀ before p rest, packets = before ++ p :: rest →
    ((enc.after before).EncodePacket p).1 ≠ none →
      ((enc.after before).EncodePacket p).2.bw.stream =
          (enc.after before).bw.stream ∧
        ((enc.after before).EncodePacket p).2.CurrSeqID =
          (enc.after before).CurrSeqID

@[simp] theorem after_nil (enc : Encoder) : enc.after [] = enc := rfl

@[simp] theorem after_cons (enc : Encoder) (p : Packet)
    (packets : List Packet) :
    enc.after (p :: packets) = (enc.EncodePacket p).2.after packets := rfl

/-- Over a reliable writer every call keeps the dialects and the writer
reliable. -/
theorem EncodePacket_reliable {enc : Encoder} (hw : enc.bw.Reliable)
    (p : Packet) :
    (enc.EncodePacket p).2.bw.Reliable ∧
      (enc.EncodePacket p).2.Dialects = enc.Dialects := by
  cases hcrcx : findCrcX enc.Dialects p.MsgID with
  | none =>
      obtain ⟨bw, hencode, hrel, -⟩ := EncodePacket_unknown hw hcrcx
      rw [hencode]
      exact ⟨hrel, rfl⟩
  | some crcx =>
      obtain ⟨bw, hencode, hrel, -⟩ := EncodePacket_known hw hcrcx
      rw [hencode]
      exact ⟨hrel, rfl⟩

theorem after_reliable (packets : List Packet) {enc : Encoder}
    (hw : enc.bw.Reliable) :
    (enc.after packets).bw.Reliable ∧
      (enc.after packets).Dialects = enc.Dialects := by
  induction packets generalizing enc with
  | nil => exact ⟨hw, rfl⟩
  | cons p packets ih =>
      obtain ⟨hrel, hdialects⟩ := EncodePacket_reliable hw p
      obtain ⟨hlast, hsame⟩ := ih hrel
      rw [after_cons]
      exact ⟨hlast, hsame.trans hdialects⟩

/-- Without unknown messages every call succeeds, and what reached the
underlying writer is what the calls delivered. -/
theorem after_known (packets : List Packet) {enc : Encoder}
    (hw : enc.bw.Reliable) (hflushed : enc.bw.buf = [])
    (hknown : ∀ p ∈ packets, (findCrcX enc.Dialects p.MsgID).isSome) :
    succeeded packets enc = packets ∧
      (enc.after packets).bw.out =
        enc.bw.out ++ (enc.sent packets).flatten := by
  induction packets generalizing enc with
  | nil => exact ⟨rfl, by simp [sent, EncodeCalls]⟩
  | cons p packets ih =>
      obtain ⟨crcx, hcrcx⟩ :=
        Option.isSome_iff_exists.mp (hknown p List.mem_cons_self)
      obtain ⟨bw, hencode, hrel, hbuf, hout⟩ := EncodePacket_known hw hcrcx
      have hrest : ∀ q ∈ packets, (findCrcX enc.Dialects q.MsgID).isSome :=
        fun q hq => hknown q (List.mem_cons_of_mem p hq)
      obtain ⟨hsucceeded, hafter⟩ :=
        @ih ⟨enc.CurrSeqID + 1, enc.Dialects, bw⟩ hrel hbuf hrest
      constructor
      · rw [succeeded, hencode]
        exact congrArg (p :: ·) hsucceeded
      · rw [after_cons, hencode, hafter]
        rw [Writer.stream, hflushed, List.append_nil] at hout
        simp [sent, EncodeCalls, hencode, hout]

theorem not_deliversSucceeded {enc : Encoder} {packets : List Packet}
    {p : Packet} (hw : enc.bw.Reliable) (hp : p ∈ packets)
    (hunknown : findCrcX enc.Dialects p.MsgID = none) :
    ¬ enc.DeliversSucceeded packets := by
  intro hclean
  obtain ⟨before, rest, hsplit⟩ := List.append_of_mem hp
  obtain ⟨hrel, hdialects⟩ := after_reliable before hw
  rw [← hdialects] at hunknown
  obtain ⟨bw, hencode, -, hstream⟩ := EncodePacket_unknown hrel hunknown
  have hsame := hclean.unchanged before p rest hsplit
  rw [hencode] at hsame
  have hkept := (hsame (by simp)).1
  rw [hstream] at hkept
  simp at hkept

/-- Over a writer that does not fail, the calls deliver exactly the frames of
those that succeed, and those that fail leave no trace, if and only if no
call is for an unknown message. -/
theorem deliversSucceeded_iff (enc : Encoder) (packets : List Packet)
    (hw : enc.bw.Reliable) (hflushed : enc.bw.buf = [])
    (hpayload : ∀ p ∈ packets, p.Payload.length ≤ 255) :
    enc.DeliversSucceeded packets ↔
      ∀ p ∈ packets, (findCrcX enc.Dialects p.MsgID).isSome := by
  constructor
  · intro hclean p hp
    rw [← Option.ne_none_iff_isSome]
    intro hunknown
    exact not_deliversSucceeded hw hp hunknown hclean
  · intro hknown
    obtain ⟨hsucceeded, hout⟩ := after_known packets hw hflushed hknown
    obtain ⟨frames, hcalls, hlen, hcarries⟩ :=
      EncodeCalls_known packets enc hw hflushed hpayload hknown
    have hsent : enc.sent packets = frames.map Frame.bytes := by
      simp [sent, hcalls]
    constructor
    · rw [hsucceeded]
      exact ⟨_, hout, frames, by rw [hsent], hlen, hcarries⟩
    · intro before p rest hsplit hfailed
      obtain ⟨hrel, hdialects⟩ := after_reliable before hw
      obtain ⟨crcx, hcrcx⟩ :=
        Option.isSome_iff_exists.mp (hknown p (by simp [hsplit]))
      rw [← hdialects] at hcrcx
      obtain ⟨bw, hencode, -⟩ := EncodePacket_known hrel hcrcx
      rw [hencode] at hfailed
      contradiction

theorem deliversSucceeded_iff_heartbeats :
    (NewEncoder none).DeliversSucceeded
      [⟨0, 1, 1, 0, [], 0⟩, ⟨0, 1, 1, 0, [9], 0⟩] :=
  (deliversSucceeded_iff (NewEncoder none)
    [⟨0, 1, 1, 0, [], 0⟩, ⟨0, 1, 1, 0, [9], 0⟩] ⟨rfl, rfl⟩ rfl
    (by decide)).mpr (by decide)

/-- The header of an unknown message is delivered with the heartbeat that is
sent after it, so the bytes are not those of one frame. -/
theorem unknown_message_spoils_the_next :
    ¬ (NewEncoder none).DeliversSucceeded
      [⟨0, 1, 1, 152, [], 0⟩, ⟨0, 1, 1, 0, [], 0⟩] := by
  intro hclean
  obtain ⟨bytes, hout, frames, rfl, hlen, -⟩ := hclean.delivered
  have hdelivered : ((NewEncoder none).after
      [⟨0, 1, 1, 152, [], 0⟩, ⟨0, 1, 1, 0, [], 0⟩]).bw.out =
        [254, 0, 0, 1, 1, 152, 254, 0, 0, 1, 1, 0, 134, 92] := by
    decide
  have hone : (succeeded [⟨0, 1, 1, 152, [], 0⟩, ⟨0, 1, 1, 0, [], 0⟩]
      (NewEncoder none)).length = 1 := by
    decide
  rw [hone, List.length_eq_one_iff] at hlen
  obtain ⟨f, rfl⟩ := hlen
  have hbytes : f.bytes =
      [254, 0, 0, 1, 1, 152, 254, 0, 0, 1, 1, 0, 134, 92] := by
    rw [← hdelivered, hout]
    simp [NewEncoder]
  have hcount := congrArg (·[1]?) hbytes
  have hsize := congrArg List.length hbytes
  simp only [Frame.bytes, Frame.header, List.cons_append,
    List.getElem?_cons_succ, List.getElem?_cons_zero,
    Option.some.injEq] at hcount
  rw [Frame.length_bytes] at hsize
  have hzero := f.toNat_length
  rw [hcount] at hzero
  simp at hsize
  simp [hsize] at hzero

end Encoder

end DronesmithEngine.Mavlink
