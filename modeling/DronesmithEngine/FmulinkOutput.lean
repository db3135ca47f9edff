import DronesmithEngine.LabelledRuns
import Mathlib.Tactic

/-!
# Datagrams on their way to the flight controller

`OutputManager.Add` starts a listener that reads datagrams into one buffer
and hands that buffer to the input writer of `Serve` over a channel without
slots.  The slice goes over without the size the read returned, and the two
loops keep sharing its bytes.
-/

namespace DronesmithEngine.Fmulink

open LabelledRuns

inductive InputListener
  | waiting
  | sending
  | stopped
  deriving DecidableEq

/-- A listener and the input writer.  The datagrams received so far are kept
for the statements only. -/
structure InputRelay where
  b : List UInt8
  listener : InputListener
  writerHolds : Bool
  written : List UInt8
  received : List (List UInt8)
  deriving DecidableEq

inductive InputEvent
  | read (datagram : List UInt8)
  | readError
  | handOff
  | write
  | quit

namespace InputRelay

def bufferSize : ℕ := 263

def initial : InputRelay where
  b := List.replicate bufferSize 0
  listener := .waiting
  writerHolds := false
  written := []
  received := []

def step (s : InputRelay) : InputEvent → Option InputRelay
  | .read datagram =>
      if s.listener = .waiting then
        -- A datagram longer than the buffer loses its end.
        let data := datagram.take s.b.length
        some
          { s with
            b := data ++ s.b.drop data.length
            listener := if 0 < data.length then .sending else .waiting
            received := s.received ++ [datagram] }
      else none
  | .readError => if s.listener = .waiting then some s else none
  | .handOff =>
      if s.listener = .sending ∧ s.writerHolds = false then
        some { s with listener := .waiting, writerHolds := true }
      else none
  | .write =>
      if s.writerHolds then
        some { s with writerHolds := false, written := s.written ++ s.b }
      else none
  | .quit =>
      if s.listener = .waiting then some { s with listener := .stopped }
      else none

def Sized (_ : InputRelay) : InputEvent → Prop
  | .read datagram => 1 ≤ datagram.length ∧ datagram.length ≤ bufferSize
  | _ => True

/-- A datagram fills the buffer, and does not change what the writer is still
going to write. -/
def Intact (s : InputRelay) : InputEvent → Prop
  | .read datagram =>
      datagram.length = bufferSize ∧ (s.writerHolds → datagram = s.b)
  | _ => True

def Quiet (s : InputRelay) : Prop :=
  s.listener ≠ .sending ∧ s.writerHolds = false

theorem Intact.sized {s : InputRelay} {event : InputEvent}
    (hintact : s.Intact event) : s.Sized event := by
  cases event with
  | read datagram =>
      obtain ⟨hfull, -⟩ := hintact
      constructor
      · rw [hfull]
        decide
      · exact hfull.le
  | _ => trivial

/-- What the writer is going to write, if nothing is read any more. -/
def pending (s : InputRelay) : List UInt8 :=
  (if s.writerHolds then s.b else []) ++
    (if s.listener = .sending then s.b else [])

/-- What is written, or will be in any case: a listener that waits for the
writer reads nothing. -/
def settled (s : InputRelay) : List UInt8 :=
  s.written ++
    if s.writerHolds ∧ s.listener = .sending then s.b else []

/-! ## Steps -/

theorem step_read {s next : InputRelay} {datagram : List UInt8}
    (hb : s.b.length = bufferSize) (hsized : s.Sized (.read datagram))
    (hstep : s.step (.read datagram) = some next) :
    s.listener = .waiting ∧
      next =
        { s with
          b := datagram ++ s.b.drop datagram.length
          listener := .sending
          received := s.received ++ [datagram] } := by
  obtain ⟨hpos, hle⟩ := hsized
  have hfits : datagram.take s.b.length = datagram :=
    List.take_of_length_le (by omega)
  by_cases hwaiting : s.listener = .waiting
  · simp only [step, hwaiting, if_true, hfits, show 0 < datagram.length
      from hpos, Option.some.injEq] at hstep
    exact ⟨hwaiting, hstep.symm⟩
  · simp [step, hwaiting] at hstep

theorem step_moves {s next : InputRelay} {event : InputEvent}
    (hread : ∀ datagram, event ≠ .read datagram)
    (hstep : s.step event = some next) :
    next.b = s.b ∧ next.received = s.received ∧
      next.written ++ next.pending = s.written ++ s.pending ∧
      s.settled <+: next.settled := by
  cases event with
  | read datagram => exact absurd rfl (hread datagram)
  | readError =>
      by_cases hwaiting : s.listener = .waiting
      · simp only [step, hwaiting, if_true, Option.some.injEq] at hstep
        subst hstep
        exact ⟨rfl, rfl, rfl, List.prefix_refl _⟩
      · simp [step, hwaiting] at hstep
  | handOff =>
      by_cases hready : s.listener = .sending ∧ s.writerHolds = false
      · simp only [step, hready, and_self, if_true,
          Option.some.injEq] at hstep
        subst hstep
        refine ⟨rfl, rfl, ?_, ?_⟩
        · simp [pending, hready.1, hready.2]
        · simp [settled, hready.2]
      · simp [step, hready] at hstep
  | write =>
      by_cases hholds : s.writerHolds
      · simp only [step, hholds, if_true, Option.some.injEq] at hstep
        subst hstep
        refine ⟨rfl, rfl, ?_, ?_⟩
        · simp [pending, hholds]
        · by_cases hsending : s.listener = .sending
          · simp [settled, hholds, hsending]
          · simp [settled, hsending]
      · simp [step, hholds] at hstep
  | quit =>
      by_cases hwaiting : s.listener = .waiting
      · simp only [step, hwaiting, if_true, Option.some.injEq] at hstep
        subst hstep
        refine ⟨rfl, rfl, ?_, ?_⟩
        · simp [pending, hwaiting]
        · simp [settled, hwaiting]
      · simp [step, hwaiting] at hstep

theorem read_or_moves (event : InputEvent) :
    (∃ datagram, event = .read datagram) ∨
      ∀ datagram, event ≠ .read datagram := by
  cases event with
  | read datagram => exact Or.inl ⟨datagram, rfl⟩
  | _ => exact Or.inr (fun datagram hread => by cases hread)

/-! ## Whole buffers -/

/-- Every datagram puts a whole buffer on its way. -/
structure WholeBuffers (s : InputRelay) : Prop where
  length_b : s.b.length = bufferSize
  length_stream :
    (s.written ++ s.pending).length = bufferSize * s.received.length
  received_le : ∀ datagram ∈ s.received, datagram.length ≤ bufferSize

theorem initial_wholeBuffers : initial.WholeBuffers where
  length_b := List.length_replicate
  length_stream := rfl
  received_le := by simp [initial]

theorem WholeBuffers.step {s next : InputRelay} {event : InputEvent}
    (hs : s.WholeBuffers) (hsized : s.Sized event)
    (hstep : s.step event = some next) : next.WholeBuffers := by
  have hb := hs.length_b
  have hstream := hs.length_stream
  rcases read_or_moves event with ⟨datagram, rfl⟩ | hread
  · obtain ⟨hwaiting, rfl⟩ := step_read hb hsized hstep
    obtain ⟨-, hle⟩ := hsized
    refine ⟨?_, ?_, ?_⟩
    · simp only [List.length_append, List.length_drop]
      omega
    · simp only [pending, hwaiting, reduceCtorEq, if_true, if_false,
        List.append_nil, List.length_append, List.length_drop,
        List.length_singleton] at hstream ⊢
      rw [Nat.mul_add_one, ← hstream]
      split
      · simp only [List.length_append, List.length_drop]
        omega
      · simp only [List.length_nil]
        omega
    · intro other hother
      rcases List.mem_append.mp hother with hold | hnew
      · exact hs.received_le other hold
      · rw [List.mem_singleton.mp hnew]
        exact hle
  · obtain ⟨hsame, hreceived, hmoved, -⟩ := step_moves hread hstep
    refine ⟨?_, ?_, ?_⟩
    · rw [hsame]
      exact hb
    · rw [hmoved, hreceived]
      exact hstream
    · rw [hreceived]
      exact hs.received_le

theorem pending_of_quiet {s : InputRelay} (hquiet : s.Quiet) :
    s.pending = [] := by
  simp [pending, hquiet.1, hquiet.2]

theorem length_flatten_le {datagrams : List (List UInt8)} {n : ℕ}
    (hle : ∀ datagram ∈ datagrams, datagram.length ≤ n) :
    datagrams.flatten.length ≤ n * datagrams.length := by
  rw [List.length_flatten, Nat.mul_comm, ← smul_eq_mul,
    ← List.length_map (f := List.length)]
  apply List.sum_le_card_nsmul
  intro k hk
  obtain ⟨datagram, hmem, rfl⟩ := List.mem_map.mp hk
  exact hle datagram hmem

theorem lengths_of_length_flatten {datagrams : List (List UInt8)} {n : ℕ}
    (hle : ∀ datagram ∈ datagrams, datagram.length ≤ n)
    (hlength : datagrams.flatten.length = n * datagrams.length) :
    ∀ datagram ∈ datagrams, datagram.length = n := by
  induction datagrams with
  | nil => simp
  | cons first rest ih =>
      have hfirst := hle first List.mem_cons_self
      have hrest := length_flatten_le
        (fun other hother => hle other (List.mem_cons_of_mem first hother))
      rw [List.flatten_cons, List.length_append, List.length_cons,
        Nat.mul_add_one] at hlength
      intro datagram hmem
      rcases List.mem_cons.mp hmem with rfl | hmem
      · omega
      · exact ih
          (fun other hother => hle other (List.mem_cons_of_mem first hother))
          (by omega) datagram hmem

/-! ## Intact datagrams -/

structure Mirrors (s : InputRelay) : Prop where
  whole : s.WholeBuffers
  stream : s.written ++ s.pending = s.received.flatten

theorem Mirrors.step {s next : InputRelay} {event : InputEvent}
    (hs : s.Mirrors) (hintact : s.Intact event)
    (hstep : s.step event = some next) : next.Mirrors := by
  refine ⟨hs.whole.step hintact.sized hstep, ?_⟩
  have hstream := hs.stream
  rcases read_or_moves event with ⟨datagram, rfl⟩ | hread
  · have hb := hs.whole.length_b
    obtain ⟨hwaiting, rfl⟩ := step_read hb hintact.sized hstep
    obtain ⟨hfull, hsame⟩ := hintact
    have hdrop : s.b.drop datagram.length = [] :=
      List.drop_of_length_le (by omega)
    simp only [pending, hwaiting, reduceCtorEq, if_false,
      List.append_nil] at hstream
    simp only [pending, hdrop, List.append_nil, if_true,
      List.flatten_append, List.flatten_singleton, ← hstream]
    by_cases hholds : s.writerHolds
    · simp [hholds, hsame hholds]
    · simp [hholds]
  · obtain ⟨-, hreceived, hmoved, -⟩ := step_moves hread hstep
    rw [hmoved, hreceived]
    exact hstream

theorem initial_mirrors : initial.Mirrors := ⟨initial_wholeBuffers, rfl⟩

/-! ## Datagrams that are not intact -/

/-- Bytes that are settled, and datagrams that were read, stay. -/
structure Extends (first s : InputRelay) : Prop where
  whole : s.WholeBuffers
  settled : first.settled <+: s.settled
  received : first.received <+: s.received

theorem Extends.step {first s next : InputRelay} {event : InputEvent}
    (hs : Extends first s) (hsized : s.Sized event)
    (hstep : s.step event = some next) : Extends first next := by
  refine ⟨hs.whole.step hsized hstep, ?_, ?_⟩
  · apply hs.settled.trans
    rcases read_or_moves event with ⟨datagram, rfl⟩ | hread
    · obtain ⟨hwaiting, rfl⟩ := step_read hs.whole.length_b hsized hstep
      simp [InputRelay.settled, hwaiting]
    · exact (step_moves hread hstep).2.2.2
  · apply hs.received.trans
    rcases read_or_moves event with ⟨datagram, rfl⟩ | hread
    · obtain ⟨-, rfl⟩ := step_read hs.whole.length_b hsized hstep
      exact List.prefix_append _ _
    · rw [(step_moves hread hstep).2.1]

/-- Once a datagram is short or changes what is still to be written, the
bytes written are never again those that were received. -/
theorem written_ne_of_not_intact {s next t : InputRelay}
    {event : InputEvent} (hs : s.Mirrors) (hsized : s.Sized event)
    (hbreaks : ¬ s.Intact event) (hstep : s.step event = some next)
    (ht : Extends next t) (hquiet : t.Quiet) :
    t.written ≠ t.received.flatten := by
  intro hexact
  rcases read_or_moves event with ⟨datagram, rfl⟩ | hread
  · have hb := hs.whole.length_b
    obtain ⟨hwaiting, hnext⟩ := step_read hb hsized hstep
    have hfull : ∀ other ∈ t.received, other.length = bufferSize := by
      apply lengths_of_length_flatten ht.whole.received_le
      rw [← hexact, ← ht.whole.length_stream, pending_of_quiet hquiet,
        List.append_nil]
    have hmem : datagram ∈ next.received := by
      rw [hnext]
      exact List.mem_append_right _ (List.mem_singleton.mpr rfl)
    have hlength := hfull datagram (ht.received.subset hmem)
    -- The datagram has changed the bytes the writer still had to write.
    rw [Intact, not_and, Classical.not_imp] at hbreaks
    obtain ⟨hholds, hchanged⟩ := hbreaks hlength
    have hstream := hs.stream
    simp only [pending, hholds, hwaiting, reduceCtorEq, if_true, if_false,
      List.append_nil] at hstream
    have hdrop : s.b.drop datagram.length = [] :=
      List.drop_of_length_le (by omega)
    have hsettled : next.settled = s.written ++ datagram := by
      simp [settled, hnext, hholds, hdrop]
    have hreceived : next.received.flatten =
        (s.written ++ s.b) ++ datagram := by
      simp [hnext, hstream]
    have hwritten : next.settled <+: t.received.flatten := by
      have hquietly : t.settled = t.written := by
        simp [settled, hquiet.2]
      rw [← hexact, ← hquietly]
      exact ht.settled
    have hflat : next.received.flatten <+: t.received.flatten := by
      obtain ⟨more, hmore⟩ := ht.received
      rw [← hmore, List.flatten_append]
      exact List.prefix_append _ _
    rw [hsettled] at hwritten
    rw [hreceived, List.append_assoc] at hflat
    have hprefix := List.prefix_of_prefix_length_le hwritten hflat
      (by simp only [List.length_append]; omega)
    rw [List.prefix_append_right_inj] at hprefix
    have hsame := List.prefix_of_prefix_length_le hprefix
      (List.prefix_append s.b datagram) (by omega)
    exact hchanged (hsame.eq_of_length (by omega))
  · apply hbreaks
    cases event with
    | read datagram => exact absurd rfl (hread datagram)
    | _ => trivial

/-- When everything read has been written, the flight controller got the
datagrams exactly if every one of them filled the buffer and none changed
bytes that were still to be written. -/
theorem written_eq_received_iff {events : List InputEvent}
    {s : InputRelay} (hrun : GuardedRun step Sized initial events s)
    (hquiet : s.Quiet) :
    s.written = s.received.flatten ↔
      GuardedRun step Intact initial events s := by
  constructor
  · intro hexact
    rcases hrun.guarded_or_breaks Intact with hintact |
      ⟨before, first, event, next, after, hbefore, hsized, hbreaks, hstep,
        hafter⟩
    · exact hintact
    · have hfirst : first.Mirrors := hbefore.invariant
        (fun _ _ _ hs hintact hstep => hs.step hintact hstep)
        initial_mirrors
      have hs : Extends next s := hafter.invariant
        (fun _ _ _ hs hsized hstep => hs.step hsized hstep)
        ⟨hfirst.whole.step hsized hstep, List.prefix_refl _,
          List.prefix_refl _⟩
      exact absurd hexact
        (written_ne_of_not_intact hfirst hsized hbreaks hstep hs hquiet)
  · intro hintact
    have hs : s.Mirrors := hintact.invariant
      (fun _ _ _ hs hintact hstep => hs.step hintact hstep) initial_mirrors
    rw [← hs.stream, pending_of_quiet hquiet, List.append_nil]

theorem run_first_datagram {guard : InputRelay → InputEvent → Prop}
    (datagram : List UInt8) (hsized : initial.Sized (.read datagram))
    (hread : guard initial (.read datagram))
    (hmoves : ∀ s, guard s .handOff ∧ guard s .write) :
    ∃ s, GuardedRun step guard initial
        [.read datagram, .handOff, .write] s ∧ s.Quiet ∧
      s.received = [datagram] ∧
      s.written =
        datagram ++ List.replicate (bufferSize - datagram.length) 0 := by
  let padded :=
    datagram ++ List.replicate (bufferSize - datagram.length) 0
  obtain ⟨hpos, hle⟩ := hsized
  have hstep : initial.step (.read datagram) = some
      ⟨padded, .sending, false, [], [datagram]⟩ := by
    simp only [step, initial, List.length_replicate,
      List.take_of_length_le hle, List.drop_replicate, if_true,
      List.nil_append, padded, show 0 < datagram.length from hpos]
  have hrun : GuardedRun step guard initial
      ([] ++ [.read datagram] ++ [.handOff] ++ [.write])
      ⟨padded, .waiting, false, [] ++ padded, [datagram]⟩ :=
    ((GuardedRun.nil.snoc hread hstep).snoc (hmoves _).1 rfl).snoc
      (hmoves _).2 rfl
  exact ⟨_, hrun, ⟨by simp, rfl⟩, rfl, rfl⟩

theorem written_eq_received_full :
    ∃ s, Run step initial
        [.read (List.replicate 263 7), .handOff, .write] s ∧
      s.written = s.received.flatten := by
  have hlength : (List.replicate 263 (7 : UInt8)).length = bufferSize :=
    List.length_replicate
  have hintact : initial.Intact (.read (List.replicate 263 7)) :=
    ⟨hlength, fun hholds => by cases hholds⟩
  obtain ⟨s, hrun, hquiet, -⟩ := run_first_datagram (List.replicate 263 7) hintact.sized hintact
    (fun _ => ⟨trivial, trivial⟩)
  refine ⟨s, hrun.run, ?_⟩
  exact (written_eq_received_iff (hrun.mono (fun _ _ => Intact.sized))
    hquiet).mpr hrun

/-- After a datagram of one byte the flight controller has got 263. -/
theorem written_short_datagram_padded :
    ¬ ∀ events s, GuardedRun step Sized initial events s → s.Quiet →
      s.written = s.received.flatten := by
  intro hexact
  have hsized : initial.Sized (.read [7]) := ⟨by decide, by decide⟩
  obtain ⟨s, hrun, hquiet, hreceived, hwritten⟩ :=
    run_first_datagram [7] hsized hsized (fun _ => ⟨trivial, trivial⟩)
  have hsame := hexact _ s hrun hquiet
  rw [hwritten, hreceived] at hsame
  have hlength := congrArg List.length hsame
  rw [List.length_append, List.length_replicate] at hlength
  simp [bufferSize] at hlength

end InputRelay

end DronesmithEngine.Fmulink
