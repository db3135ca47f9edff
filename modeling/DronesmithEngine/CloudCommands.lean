import DronesmithEngine.FmulinkRelay
import DronesmithEngine.LabelledRuns
import DronesmithEngine.MavlinkFailures
import Mathlib.Tactic

/-!
# Commands of the cloud on their way to the flight controller

The cloud link stores one raw command.  Its read loop sets the command, and
the loop of the flight-controller link gets it, encodes it and sets it to
nil, each under the same mutex but under a lock of its own.  What the cloud
sent is recorded, and what the flight controller gets is what the encoder
delivered: the commands are compared with the frames in it.
-/

namespace DronesmithEngine.Fmulink

open Go BufferedIO Mavlink LabelledRuns

/-- Where the loop of the flight-controller link stands. -/
inductive ForwardPhase
  | waiting
  | read (chunk : List UInt8)
  | encoded
  deriving DecidableEq

inductive RelayEvent
  | handleMessage (chunk : List UInt8)
  | getRawFmuCmd
  | encodePacket
  | nullRawFmuCmd

structure CommandRelay where
  link : CommandLink
  phase : ForwardPhase
  received : List (List UInt8)

namespace CommandRelay

def initial : CommandRelay where
  link := ⟨none, NewEncoder none⟩
  phase := .waiting
  received := []

def step (s : CommandRelay) : RelayEvent → Option CommandRelay
  | .handleMessage chunk =>
      some
        { s with
          link := s.link.SetRawFmuCmd chunk
          received := s.received ++ [chunk] }
  | .getRawFmuCmd =>
      match s.phase, s.link.rawFmuCmd with
      | .waiting, none => some s
      | .waiting, some chunk => some { s with phase := .read chunk }
      | _, _ => none
  | .encodePacket =>
      match s.phase with
      | .read chunk =>
          match packetOfChunk chunk with
          -- An index out of range ends the program.
          | .error _ => none
          | .ok p =>
              some
                { s with
                  link :=
                    { s.link with enc := (s.link.enc.EncodePacket p).2 }
                  phase := .encoded }
      | _ => none
  | .nullRawFmuCmd =>
      match s.phase with
      | .encoded =>
          some
            { s with
              link := { s.link with rawFmuCmd := none }
              phase := .waiting }
      | _ => none

/-- Without anything in between, the three calls of the loop forward a
command as `Serve` does. -/
theorem uninterrupted_forward (s : CommandRelay)
    (hwaiting : s.phase = .waiting) {chunk : List UInt8}
    (hchunk : s.link.rawFmuCmd = some chunk) {err : Option Error}
    {link : CommandLink} (hforward : s.link.forward = .ok (err, link)) :
    ∃ t, Run step s [.getRawFmuCmd, .encodePacket, .nullRawFmuCmd] t ∧
      t.link = link ∧ t.phase = .waiting := by
  rw [CommandLink.forward, hchunk] at hforward
  cases hpacket : packetOfChunk chunk with
  | error e => simp [hpacket] at hforward
  | ok p =>
      simp only [hpacket, ok_bind, pure_eq_ok, Except.ok.injEq,
        Prod.mk.injEq] at hforward
      obtain ⟨-, rfl⟩ := hforward
      have hget : s.step .getRawFmuCmd =
          some { s with phase := .read chunk } := by
        simp [step, hwaiting, hchunk]
      refine ⟨_, GuardedRun.cons trivial hget (GuardedRun.cons trivial
        (by simp only [step, hpacket]; rfl)
        (GuardedRun.cons trivial rfl .nil)), rfl, rfl⟩

/-- The bytes delivered are one frame for each command, in this order and
under consecutive sequence numbers.  A command is a frame itself, and the
frame for it carries the same packet. -/
def Delivers (commands : List (List UInt8)) (out : List UInt8) : Prop :=
  ∃ frames : List Frame, commands = frames.map Frame.bytes ∧
    FramesFrom [DialectCommon] 0 (frames.map Frame.packet) out

/-- A command arrives only while none is stored, and is one whole frame of a
known message. -/
def Vacant (s : CommandRelay) : RelayEvent → Prop
  | .handleMessage chunk =>
      s.link.rawFmuCmd = none ∧ KnownFrame [DialectCommon] chunk
  | _ => True

instance (s : CommandRelay) : ∀ event, Decidable (s.Vacant event)
  | .handleMessage _ => inferInstanceAs (Decidable (_ ∧ _))
  | .getRawFmuCmd => .isTrue trivial
  | .encodePacket => .isTrue trivial
  | .nullRawFmuCmd => .isTrue trivial

/-- What was received and still is to be forwarded. -/
def pending (s : CommandRelay) : List (List UInt8) :=
  match s.phase with
  | .waiting => s.link.rawFmuCmd.toList
  | .read chunk => [chunk]
  | .encoded => []

/-- A step of the flight-controller link's loop. -/
def isLoopStep : RelayEvent → Bool
  | .handleMessage _ => false
  | _ => true

/-! ## The frames delivered -/

theorem Delivers.length_le {commands : List (List UInt8)}
    {out : List UInt8} (hdelivers : Delivers commands out) :
    8 * commands.length ≤ out.length := by
  obtain ⟨frames, rfl, written, rfl, hlength, -⟩ := hdelivers
  rw [List.length_map] at hlength ⊢
  rw [← hlength]
  clear hlength
  induction written with
  | nil => simp
  | cons f written ih =>
      simp only [List.map_cons, List.flatten_cons, List.length_append,
        List.length_cons, f.length_bytes]
      omega

theorem Delivers.nil : Delivers [] [] :=
  ⟨[], rfl, FramesFrom.nil [DialectCommon] 0⟩

theorem Delivers.snoc {commands : List (List UInt8)} {out : List UInt8}
    (hdelivers : Delivers commands out) {received written : Frame}
    (hcarries : written.Carries [DialectCommon] commands.length.toUInt8
      received.packet) :
    Delivers (commands ++ [received.bytes]) (out ++ written.bytes) := by
  obtain ⟨frames, rfl, hframes⟩ := hdelivers
  refine ⟨frames ++ [received], by simp, ?_⟩
  rw [List.map_append, List.map_singleton]
  apply hframes.snoc
  rw [UInt8.zero_add]
  simpa using hcarries

/-- Each command delivered is one whole frame of a known message. -/
theorem Delivers.known {commands : List (List UInt8)} {out : List UInt8}
    (hdelivers : Delivers commands out) :
    ∀ chunk ∈ commands, KnownFrame [DialectCommon] chunk := by
  obtain ⟨frames, rfl, written, -, -, hcarried⟩ := hdelivers
  intro chunk hchunk
  obtain ⟨received, hreceived, rfl⟩ := List.mem_map.mp hchunk
  obtain ⟨k, hk⟩ := List.getElem?_of_mem hreceived
  obtain ⟨f, -, hcarries⟩ := hcarried k received.packet (by simp [hk])
  have hmsg : f.msgID = received.msgID :=
    (congrArg Packet.MsgID (packet_of_verdict hcarries)).symm
  refine ⟨received.payload.length.toUInt8, received.msgID, rfl, rfl, ?_,
    rfl, ?_⟩
  · rw [received.length_bytes, received.toNat_length]
  · rw [← hmsg]
    by_contra hunknown
    rw [Option.not_isSome_iff_eq_none] at hunknown
    simp [Frame.Carries, Frame.verdict, hunknown] at hcarries

/-- The frames of a stream are as many as the commands it delivers. -/
theorem Delivers.length {commands : List (List UInt8)}
    {frames : List Frame}
    (hdelivers : Delivers commands (frames.map Frame.bytes).flatten) :
    commands.length = frames.length := by
  obtain ⟨received, rfl, written, hout, hlength, -⟩ := hdelivers
  have hsame := congrArg List.length (frames_eq_of_flatten hout)
  simp only [List.length_map] at hsame hlength ⊢
  rw [hsame, hlength]

/-! ## What a step can do -/

structure Ready (s : CommandRelay) : Prop where
  reliable : s.link.enc.bw.Reliable
  dialects : s.link.enc.Dialects = [DialectCommon]

theorem get_cases {s next : CommandRelay}
    (hstep : s.step .getRawFmuCmd = some next) :
    s.phase = .waiting ∧
      (s.link.rawFmuCmd = none ∧ next = s ∨
        ∃ chunk, s.link.rawFmuCmd = some chunk ∧
          next = { s with phase := .read chunk }) := by
  cases hphase : s.phase with
  | waiting =>
      cases hchunk : s.link.rawFmuCmd with
      | none =>
          simp only [step, hphase, hchunk, Option.some.injEq] at hstep
          exact ⟨rfl, Or.inl ⟨rfl, hstep.symm⟩⟩
      | some chunk =>
          simp only [step, hphase, hchunk, Option.some.injEq] at hstep
          exact ⟨rfl, Or.inr ⟨chunk, rfl, hstep.symm⟩⟩
  | read chunk => simp [step, hphase] at hstep
  | encoded => simp [step, hphase] at hstep

theorem encode_cases {s next : CommandRelay}
    (hstep : s.step .encodePacket = some next) :
    ∃ chunk p, s.phase = .read chunk ∧ packetOfChunk chunk = .ok p ∧
      next =
        { s with
          link := { s.link with enc := (s.link.enc.EncodePacket p).2 }
          phase := .encoded } := by
  cases hphase : s.phase with
  | waiting => simp [step, hphase] at hstep
  | encoded => simp [step, hphase] at hstep
  | read chunk =>
      cases hpacket : packetOfChunk chunk with
      | error e => simp [step, hphase, hpacket] at hstep
      | ok p =>
          simp only [step, hphase, hpacket, Option.some.injEq] at hstep
          exact ⟨chunk, p, rfl, hpacket, hstep.symm⟩

theorem null_cases {s next : CommandRelay}
    (hstep : s.step .nullRawFmuCmd = some next) :
    s.phase = .encoded ∧
      next =
        { s with
          link := { s.link with rawFmuCmd := none }
          phase := .waiting } := by
  cases hphase : s.phase with
  | waiting => simp [step, hphase] at hstep
  | read chunk => simp [step, hphase] at hstep
  | encoded =>
      simp only [step, hphase, Option.some.injEq] at hstep
      exact ⟨rfl, hstep.symm⟩

theorem set_eq {s next : CommandRelay} {chunk : List UInt8}
    (hstep : s.step (.handleMessage chunk) = some next) :
    next =
      { s with
        link := s.link.SetRawFmuCmd chunk
        received := s.received ++ [chunk] } := by
  simp only [step, Option.some.injEq] at hstep
  exact hstep.symm

theorem Ready.step {s next : CommandRelay} {event : RelayEvent}
    (hs : s.Ready) (hstep : s.step event = some next) : next.Ready := by
  cases event with
  | handleMessage chunk =>
      rw [set_eq hstep]
      exact ⟨hs.reliable, hs.dialects⟩
  | getRawFmuCmd =>
      rcases get_cases hstep with ⟨-, ⟨-, rfl⟩ | ⟨chunk, -, rfl⟩⟩
      · exact hs
      · exact ⟨hs.reliable, hs.dialects⟩
  | encodePacket =>
      obtain ⟨chunk, p, -, -, rfl⟩ := encode_cases hstep
      obtain ⟨hrel, hsame⟩ := Encoder.EncodePacket_reliable hs.reliable p
      exact ⟨hrel, hsame.trans hs.dialects⟩
  | nullRawFmuCmd =>
      obtain ⟨-, rfl⟩ := null_cases hstep
      exact ⟨hs.reliable, hs.dialects⟩

/-- Encoding a whole frame of a known message delivers one frame. -/
theorem encode_known {s next : CommandRelay} {chunk : List UInt8}
    (hready : s.Ready) (hflushed : s.link.enc.bw.buf = [])
    (hphase : s.phase = .read chunk)
    (hknown : KnownFrame [DialectCommon] chunk)
    (hstep : s.step .encodePacket = some next) :
    ∃ received written : Frame, chunk = received.bytes ∧
      written.Carries [DialectCommon] s.link.enc.CurrSeqID
        received.packet ∧
      next.link.enc.bw.buf = [] ∧
      next.link.enc.bw.out = s.link.enc.bw.out ++ written.bytes ∧
      next.link.enc.CurrSeqID = s.link.enc.CurrSeqID + 1 ∧
      next.link.rawFmuCmd = s.link.rawFmuCmd ∧ next.phase = .encoded ∧
      next.received = s.received := by
  obtain ⟨other, p, hother, hpacket, rfl⟩ := encode_cases hstep
  obtain rfl : other = chunk := by simpa [hphase] using hother.symm
  rw [← hready.dialects] at hknown
  obtain ⟨q, hq, received, written, bw, hchunk, hencode, hbuf, hout,
    hcarries⟩ := hknown.encodes hready.reliable hflushed
  obtain rfl : p = q := Except.ok.inj (hpacket.symm.trans hq)
  rw [hready.dialects] at hcarries
  refine ⟨received, written, hchunk, hcarries, ?_⟩
  simp [hencode, hbuf, hout]

/-! ## Forwarding in order -/

structure InOrder (s : CommandRelay) (forwarded : List (List UInt8)) :
    Prop where
  received : s.received = forwarded ++ s.pending
  delivered : Delivers forwarded s.link.enc.bw.out
  numbered : s.link.enc.CurrSeqID = forwarded.length.toUInt8
  flushed : s.link.enc.bw.buf = []
  known : ∀ chunk ∈ s.pending, KnownFrame [DialectCommon] chunk
  occupied : s.phase ≠ .waiting → s.link.rawFmuCmd ≠ none

variable {forwarded : List (List UInt8)}

theorem InOrder.initial : InOrder initial [] where
  received := rfl
  delivered := Delivers.nil
  numbered := rfl
  flushed := rfl
  known := by simp [pending, CommandRelay.initial]
  occupied := by simp [CommandRelay.initial]

theorem InOrder.vacant {s : CommandRelay} (hs : s.InOrder forwarded)
    (hnone : s.link.rawFmuCmd = none) :
    s.phase = .waiting ∧ s.received = forwarded := by
  have hphase : s.phase = .waiting := by
    by_contra hbusy
    exact hs.occupied hbusy hnone
  refine ⟨hphase, ?_⟩
  have hreceived := hs.received
  simp only [pending, hphase, hnone, Option.toList_none,
    List.append_nil] at hreceived
  exact hreceived

theorem InOrder.step {s next : CommandRelay} {event : RelayEvent}
    (hready : s.Ready) (hs : s.InOrder forwarded)
    (hguard : s.Vacant event) (hstep : s.step event = some next) :
    ∃ after, forwarded <+: after ∧ next.InOrder after := by
  cases event with
  | handleMessage chunk =>
      obtain ⟨hnone, hknown⟩ := hguard
      obtain ⟨hphase, hall⟩ := hs.vacant hnone
      rw [set_eq hstep]
      refine ⟨forwarded, List.prefix_rfl, ?_, hs.delivered, hs.numbered,
        hs.flushed, ?_, ?_⟩
      · simp [pending, hphase, CommandLink.SetRawFmuCmd, hall]
      · simp [pending, hphase, CommandLink.SetRawFmuCmd, hknown]
      · simp [CommandLink.SetRawFmuCmd]
  | getRawFmuCmd =>
      refine ⟨forwarded, List.prefix_rfl, ?_⟩
      rcases get_cases hstep with
        ⟨hphase, ⟨-, rfl⟩ | ⟨chunk, hchunk, rfl⟩⟩
      · exact hs
      · have hreceived := hs.received
        have hknown := hs.known
        simp only [pending, hphase, hchunk, Option.toList_some]
          at hreceived hknown
        exact ⟨hreceived, hs.delivered, hs.numbered, hs.flushed, hknown,
          by simp [hchunk]⟩
  | encodePacket =>
      obtain ⟨chunk, p, hphase, -, -⟩ := encode_cases hstep
      have hreceived := hs.received
      have hknown := hs.known chunk
      have hoccupied := hs.occupied (by simp [hphase])
      simp only [pending, hphase, List.mem_singleton, forall_true_left]
        at hreceived hknown
      obtain ⟨received, written, rfl, hcarries, hbuf, hout, hseq, hcmd,
        hnext, hsame⟩ := encode_known hready hs.flushed hphase hknown hstep
      rw [hs.numbered] at hcarries
      refine ⟨forwarded ++ [received.bytes], List.prefix_append _ _, ?_, ?_,
        ?_, hbuf, ?_, ?_⟩
      · simp [pending, hnext, hsame, hreceived]
      · rw [hout]
        exact hs.delivered.snoc hcarries
      · rw [hseq, hs.numbered, List.length_append, List.length_singleton]
        simp
      · simp [pending, hnext]
      · rw [hcmd]
        exact fun _ => hoccupied
  | nullRawFmuCmd =>
      obtain ⟨hphase, rfl⟩ := null_cases hstep
      have hreceived := hs.received
      simp only [pending, hphase] at hreceived
      exact ⟨forwarded, List.prefix_rfl, by simp [pending, hreceived],
        hs.delivered, hs.numbered, hs.flushed, by simp [pending], by simp⟩

/-- The loop steps that are left until the pending command is encoded. -/
def remaining (s : CommandRelay) : ℕ :=
  match s.phase with
  | .waiting => 2
  | .read _ => 1
  | .encoded => 0

theorem InOrder.forwards {s t : CommandRelay} {later : List RelayEvent}
    (hready : s.Ready) (hs : s.InOrder forwarded)
    (hrun : GuardedRun CommandRelay.step Vacant s later t) :
    t.Ready ∧ ∃ after, t.InOrder after ∧
      (s.received <+: after ∨
        t.received = s.received ∧ t.pending ≠ [] ∧
          t.remaining + later.countP isLoopStep ≤ 2) := by
  induction hrun with
  | nil =>
      refine ⟨hready, forwarded, hs, ?_⟩
      by_cases hempty : s.pending = []
      · left
        rw [hs.received, hempty, List.append_nil]
      · refine Or.inr ⟨rfl, hempty, ?_⟩
        unfold remaining
        split <;> simp
  | @snoc events middle next event hbefore hguard hstep ih =>
      obtain ⟨hready', before, hs', hprogress⟩ := ih
      obtain ⟨after, hgrows, hnext⟩ := hs'.step hready' hguard hstep
      refine ⟨hready'.step hstep, after, hnext, ?_⟩
      rcases hprogress with hdone | ⟨hreceived, hpending, hcount⟩
      · exact Or.inl (hdone.trans hgrows)
      · cases event with
        | handleMessage chunk =>
            obtain ⟨hphase, -⟩ := hs'.vacant hguard.1
            simp [pending, hphase, hguard.1] at hpending
        | getRawFmuCmd =>
            rcases get_cases hstep with
              ⟨hphase, ⟨hnone, -⟩ | ⟨chunk, -, rfl⟩⟩
            · simp [pending, hphase, hnone] at hpending
            · refine Or.inr ⟨hreceived, by simp [pending], ?_⟩
              simp only [remaining, hphase] at hcount
              simp [remaining, isLoopStep]
              omega
        | encodePacket =>
            left
            obtain ⟨chunk, p, -, -, rfl⟩ := encode_cases hstep
            have hall := hnext.received
            simp only [pending, List.append_nil, hreceived] at hall
            rw [hall]
        | nullRawFmuCmd =>
            obtain ⟨hphase, -⟩ := null_cases hstep
            simp [pending, hphase] at hpending

/-! ## Commands that are lost -/

/-- Whole frames were delivered, but with the pending command they are fewer
than the commands received. -/
structure Short (s : CommandRelay) : Prop where
  flushed : s.link.enc.bw.buf = []
  known : ∀ chunk ∈ s.pending, KnownFrame [DialectCommon] chunk
  few : ∃ frames : List Frame,
    s.link.enc.bw.out = (frames.map Frame.bytes).flatten ∧
      frames.length + s.pending.length < s.received.length

/-- A received command is no frame of a known message, or is missing from
the frames that were delivered and the pending command. -/
structure Lost (s : CommandRelay) : Prop where
  ready : s.Ready
  lost : (∃ chunk ∈ s.received, ¬ KnownFrame [DialectCommon] chunk) ∨
    s.Short

theorem received_subset {s next : CommandRelay} {event : RelayEvent}
    (hstep : s.step event = some next) : s.received ⊆ next.received := by
  cases event with
  | handleMessage chunk =>
      rw [set_eq hstep]
      exact List.subset_append_left _ _
  | getRawFmuCmd =>
      rcases get_cases hstep with ⟨-, ⟨-, rfl⟩ | ⟨chunk, -, rfl⟩⟩
      · exact List.Subset.refl _
      · exact List.Subset.refl _
  | encodePacket =>
      obtain ⟨chunk, p, -, -, rfl⟩ := encode_cases hstep
      exact List.Subset.refl _
  | nullRawFmuCmd =>
      obtain ⟨-, rfl⟩ := null_cases hstep
      exact List.Subset.refl _

/-- A command that arrives is pending only where the loop waits. -/
theorem pending_set (s : CommandRelay) (chunk : List UInt8) :
    pending
      { s with
        link := s.link.SetRawFmuCmd chunk
        received := s.received ++ [chunk] } =
      if s.phase = .waiting then [chunk] else s.pending := by
  cases hphase : s.phase with
  | waiting => simp [pending, CommandLink.SetRawFmuCmd]
  | read old => simp [pending, hphase]
  | encoded => simp [pending, hphase]

theorem short_set {s : CommandRelay} {frames : List Frame}
    {chunk : List UInt8} (hknown : KnownFrame [DialectCommon] chunk)
    (hflushed : s.link.enc.bw.buf = [])
    (hpending : ∀ chunk ∈ s.pending, KnownFrame [DialectCommon] chunk)
    (hout : s.link.enc.bw.out = (frames.map Frame.bytes).flatten)
    (hwaiting : s.phase = .waiting → frames.length < s.received.length)
    (hbusy : frames.length + s.pending.length ≤ s.received.length) :
    Short
      { s with
        link := s.link.SetRawFmuCmd chunk
        received := s.received ++ [chunk] } := by
  refine ⟨hflushed, ?_, frames, hout, ?_⟩
  · rw [pending_set]
    split
    · simp [hknown]
    · exact hpending
  · rw [pending_set, List.length_append, List.length_singleton]
    split
    next hphase =>
      have hfew := hwaiting hphase
      rw [List.length_singleton]
      omega
    next => omega

/-- Another command makes up for none that is missing. -/
theorem Short.set {s : CommandRelay} (hs : s.Short) {chunk : List UInt8}
    (hknown : KnownFrame [DialectCommon] chunk) :
    Short
      { s with
        link := s.link.SetRawFmuCmd chunk
        received := s.received ++ [chunk] } := by
  obtain ⟨hflushed, hpending, frames, hout, hfew⟩ := hs
  exact short_set hknown hflushed hpending hout (fun _ => by omega)
    (by omega)

theorem Lost.step {s next : CommandRelay} {event : RelayEvent}
    (hs : s.Lost) (hstep : s.step event = some next) : next.Lost := by
  refine ⟨hs.ready.step hstep, ?_⟩
  rcases hs.lost with ⟨chunk, hchunk, hunknown⟩ | hshort
  · exact Or.inl ⟨chunk, received_subset hstep hchunk, hunknown⟩
  · cases event with
    | handleMessage chunk =>
        rw [set_eq hstep]
        by_cases hknown : KnownFrame [DialectCommon] chunk
        · exact Or.inr (hshort.set hknown)
        · exact Or.inl ⟨chunk, by simp, hknown⟩
    | getRawFmuCmd =>
        right
        rcases get_cases hstep with
          ⟨hphase, ⟨-, rfl⟩ | ⟨chunk, hchunk, rfl⟩⟩
        · exact hshort
        · obtain ⟨hflushed, hpending, hfew⟩ := hshort
          simp only [pending, hphase, hchunk, Option.toList_some]
            at hpending hfew
          exact ⟨hflushed, hpending, hfew⟩
    | encodePacket =>
        right
        obtain ⟨chunk, p, hphase, -, -⟩ := encode_cases hstep
        obtain ⟨hflushed, hpending, frames, hframes, hfew⟩ := hshort
        simp only [pending, hphase, List.mem_singleton, forall_eq,
          List.length_singleton] at hpending hfew
        obtain ⟨received, written, -, -, hbuf, hout, -, -, hnext, hsame⟩ :=
          encode_known hs.ready hflushed hphase hpending hstep
        refine ⟨hbuf, by simp [pending, hnext], frames ++ [written], ?_, ?_⟩
        · simp [hout, hframes]
        · simp only [pending, hnext, hsame, List.length_append,
            List.length_singleton, List.length_nil]
          omega
    | nullRawFmuCmd =>
        right
        obtain ⟨hphase, rfl⟩ := null_cases hstep
        obtain ⟨hflushed, -, hfew⟩ := hshort
        simp only [pending, hphase] at hfew
        exact ⟨hflushed, by simp [pending], hfew⟩

theorem Lost.not_all_forwarded {s : CommandRelay} (hs : s.Lost)
    (hdelivers : Delivers forwarded s.link.enc.bw.out) :
    ¬ s.received.Subperm forwarded := by
  intro hall
  rcases hs.lost with ⟨chunk, hchunk, hunknown⟩ | hshort
  · exact hunknown (hdelivers.known chunk (hall.subset hchunk))
  · obtain ⟨-, -, frames, hout, hfew⟩ := hshort
    rw [hout] at hdelivers
    have hlength := hdelivers.length
    have hle := hall.length_le
    omega

/-- A command that arrives while another is stored costs one of the two, and
one that is no frame of a known message is lost itself. -/
theorem InOrder.lost {s next : CommandRelay} {event : RelayEvent}
    (hready : s.Ready) (hs : s.InOrder forwarded)
    (hstep : s.step event = some next) (hguard : ¬ s.Vacant event) :
    next.Lost := by
  refine ⟨hready.step hstep, ?_⟩
  cases event with
  | getRawFmuCmd => exact absurd trivial hguard
  | encodePacket => exact absurd trivial hguard
  | nullRawFmuCmd => exact absurd trivial hguard
  | handleMessage chunk =>
      rw [set_eq hstep]
      by_cases hknown : KnownFrame [DialectCommon] chunk
      · right
        have hstored : s.link.rawFmuCmd ≠ none :=
          fun hnone => hguard ⟨hnone, hknown⟩
        obtain ⟨old, hold⟩ := Option.ne_none_iff_exists'.mp hstored
        obtain ⟨frames, hcommands, written, hout, hlength, -⟩ :=
          hs.delivered
        have hcount := congrArg List.length hs.received
        rw [List.length_map] at hlength
        rw [hcommands, List.length_append, List.length_map] at hcount
        refine short_set hknown hs.flushed hs.known hout ?_ (by omega)
        intro hphase
        simp only [pending, hphase, hold, Option.toList_some,
          List.length_singleton] at hcount
        omega
      · exact Or.inl ⟨chunk, by simp, hknown⟩

theorem InOrder.enabled {s : CommandRelay} (hready : s.Ready)
    (hs : s.InOrder forwarded) :
    ∃ event next, isLoopStep event ∧ s.step event = some next := by
  cases hphase : s.phase with
  | waiting =>
      cases hchunk : s.link.rawFmuCmd with
      | none =>
          exact ⟨.getRawFmuCmd, s, rfl,
            by simp [CommandRelay.step, hphase, hchunk]⟩
      | some chunk =>
          exact ⟨.getRawFmuCmd, { s with phase := .read chunk }, rfl,
            by simp [CommandRelay.step, hphase, hchunk]⟩
  | read chunk =>
      have hknown := hs.known chunk (by simp [pending, hphase])
      rw [← hready.dialects] at hknown
      obtain ⟨p, hpacket, -⟩ := hknown.encodes hready.reliable hs.flushed
      exact ⟨.encodePacket, _, rfl,
        by simp only [CommandRelay.step, hphase, hpacket]; rfl⟩
  | encoded =>
      exact ⟨.nullRawFmuCmd, _, rfl,
        by simp only [CommandRelay.step, hphase]; rfl⟩

/-- As long as every command arrives while none is stored, and is one whole
frame of a known message: the commands received are those the encoder
delivered a frame for, in this order, followed by what is still pending; the
loop can always go on, and two of its steps deliver everything received so
far.  From the first command that arrives otherwise on, what is delivered is
never a frame for each command received. -/
theorem commands_forwarded_once {events : List RelayEvent}
    {s : CommandRelay} (hrun : GuardedRun step Vacant initial events s) :
    (∃ forwarded, s.received = forwarded ++ s.pending ∧
      Delivers forwarded s.link.enc.bw.out) ∧
    (∃ event next, isLoopStep event ∧ s.step event = some next) ∧
    (∀ later t, GuardedRun step Vacant s later t →
      2 ≤ later.countP isLoopStep →
        ∃ forwarded, s.received <+: forwarded ∧
          Delivers forwarded t.link.enc.bw.out) ∧
    ∀ event next later t, s.step event = some next → ¬ s.Vacant event →
      Run step next later t → ∀ forwarded,
        Delivers forwarded t.link.enc.bw.out →
          ¬ t.received.Subperm forwarded := by
  have hinv : s.Ready ∧ ∃ forwarded, s.InOrder forwarded := by
    apply hrun.invariant
    · rintro s event next ⟨hready, forwarded, hs⟩ hguard hstep
      obtain ⟨after, -, hnext⟩ := hs.step hready hguard hstep
      exact ⟨hready.step hstep, after, hnext⟩
    · exact ⟨⟨⟨rfl, rfl⟩, rfl⟩, [], InOrder.initial⟩
  obtain ⟨hready, forwarded, hs⟩ := hinv
  refine ⟨⟨forwarded, hs.received, hs.delivered⟩, hs.enabled hready, ?_, ?_⟩
  · intro later t hlater hsteps
    obtain ⟨-, after, hafter, hdone | ⟨-, hpending, hcount⟩⟩ :=
      hs.forwards hready hlater
    · exact ⟨after, hdone, hafter.delivered⟩
    · have hencoded : t.remaining = 0 := by omega
      cases hphase : t.phase with
      | waiting => simp [remaining, hphase] at hencoded
      | read chunk => simp [remaining, hphase] at hencoded
      | encoded => simp [pending, hphase] at hpending
  · intro event next later t hstep hguard hlater delivered hdelivered
    have hlost : t.Lost := hlater.invariant
      (fun s event next hs _ hstep => hs.step hstep)
      (hs.lost hready hstep hguard)
    exact hlost.not_all_forwarded hdelivered

theorem commands_forwarded_once_heartbeat :
    ∃ s, Run step initial
        [.handleMessage [254, 0, 255, 1, 1, 0, 220, 169], .getRawFmuCmd,
          .encodePacket] s ∧
      ∃ forwarded, s.received = forwarded ++ s.pending ∧
        Delivers forwarded s.link.enc.bw.out := by
  have hexec : (exec step Vacant initial
      [.handleMessage [254, 0, 255, 1, 1, 0, 220, 169], .getRawFmuCmd,
        .encodePacket]).isSome := by
    decide
  obtain ⟨s, hrun⟩ := GuardedRun.of_exec_isSome hexec
  exact ⟨s, hrun.run, (commands_forwarded_once hrun).1⟩

/-- The second command arrives between the loop's reading and its clearing,
and is cleared without having been read. -/
theorem command_cleared_unread :
    ¬ ∀ events s, Run step initial events s →
      ∃ forwarded, s.received = forwarded ++ s.pending ∧
        Delivers forwarded s.link.enc.bw.out := by
  intro hall
  let events : List RelayEvent :=
    [.handleMessage [254, 0, 255, 1, 1, 0, 220, 169], .getRawFmuCmd,
      .handleMessage [254, 0, 0, 1, 2, 0, 82, 3], .encodePacket,
      .nullRawFmuCmd]
  have hexec : (exec step (fun _ _ => True) initial events).map
      (fun s => (s.received.length, s.link.enc.bw.out.length,
        s.pending.length)) = some (2, 8, 0) := by
    decide
  obtain ⟨s, hrun, heq⟩ := GuardedRun.of_exec_map hexec
  simp only [Prod.mk.injEq] at heq
  obtain ⟨hreceived, hout, hpending⟩ := heq
  obtain ⟨forwarded, hsplit, hdelivers⟩ := hall events s hrun
  -- Two frames do not fit into eight bytes.
  have hlength := congrArg List.length hsplit
  rw [List.length_append] at hlength
  have hbound := hdelivers.length_le
  omega

end CommandRelay

end DronesmithEngine.Fmulink
