import DronesmithEngine.LabelledRuns
import Mathlib.Algebra.BigOperators.Group.Finset.Basic
import Mathlib.Algebra.Order.BigOperators.Group.Finset
import Mathlib.Tactic

/-!
# Serving waiting tasks by priority

A server takes a turn with a task of the least priority that waits: it spends
one of the task's attempts or releases the task.  Tasks arrive at any time and
each once.  While a task waits, every turn goes to a task that does not stand
behind it, so the attempts of those bound how long it waits.
-/

namespace PriorityService

open LabelledRuns

variable {ι π : Type*} [DecidableEq ι]

structure Workload (ι π : Type*) where
  waiting : Finset ι
  /-- The tasks that ever arrived. -/
  arrived : Finset ι
  priority : ι → π
  attempts : ι → ℕ

inductive Turn (ι π : Type*)
  | arrive (i : ι) (p : π) (n : ℕ)
  | attempt (i : ι)
  | release (i : ι)
  | idle

namespace Workload

def arrive (s : Workload ι π) (i : ι) (p : π) (n : ℕ) : Workload ι π where
  waiting := insert i s.waiting
  arrived := insert i s.arrived
  priority := Function.update s.priority i p
  attempts := Function.update s.attempts i n

def attempt (s : Workload ι π) (i : ι) : Workload ι π :=
  { s with attempts := Function.update s.attempts i (s.attempts i - 1) }

def release (s : Workload ι π) (i : ι) : Workload ι π :=
  { s with waiting := s.waiting.erase i }

variable {s t : Workload ι π} {i j : ι} {p : π}

@[simp] theorem arrive_priority_self (n : ℕ) :
    (s.arrive i p n).priority i = p := by
  simp [arrive]

theorem arrive_priority_of_ne (hne : j ≠ i) (n : ℕ) :
    (s.arrive i p n).priority j = s.priority j := by
  simp [arrive, hne]

@[simp] theorem arrive_attempts_self (n : ℕ) :
    (s.arrive i p n).attempts i = n := by
  simp [arrive]

theorem arrive_attempts_of_ne (hne : j ≠ i) (n : ℕ) :
    (s.arrive i p n).attempts j = s.attempts j := by
  simp [arrive, hne]

@[simp] theorem attempt_attempts_self :
    (s.attempt i).attempts i = s.attempts i - 1 := by
  simp [attempt]

theorem attempt_attempts_of_ne (hne : j ≠ i) :
    (s.attempt i).attempts j = s.attempts j := by
  simp [attempt, hne]

variable [LinearOrder π]

def First (s : Workload ι π) (i : ι) : Prop :=
  i ∈ s.waiting ∧ ∀ j ∈ s.waiting, s.priority i ≤ s.priority j

instance (s : Workload ι π) (i : ι) : Decidable (s.First i) :=
  inferInstanceAs (Decidable (_ ∧ _))

def step (s : Workload ι π) : Turn ι π → Option (Workload ι π)
  | .arrive i p n => if i ∈ s.arrived then none else some (s.arrive i p n)
  | .attempt i =>
      if s.First i ∧ 0 < s.attempts i then some (s.attempt i) else none
  | .release i => if s.First i then some (s.release i) else none
  | .idle => if s.waiting = ∅ then some s else none

def Sound (s : Workload ι π) : Prop := s.waiting ⊆ s.arrived

/-- The turns that the waiting tasks up to priority `p` may still take. -/
def backlog (s : Workload ι π) (p : π) : ℕ :=
  ∑ i ∈ s.waiting with s.priority i ≤ p, (s.attempts i + 1)

end Workload

/-- What an event adds to the backlog up to priority `p`. -/
def Turn.demand [LinearOrder π] (p : π) : Turn ι π → ℕ
  | .arrive _ q n => if q ≤ p then n + 1 else 0
  | _ => 0

def Turn.isService : Turn ι π → Bool
  | .arrive _ _ _ => false
  | _ => true

namespace Workload

variable [LinearOrder π] {s t : Workload ι π} {i j : ι} {p : π}

/-! ## What a step leaves -/

/-- A step is an arrival, a turn with a first task, or idle. -/
theorem step_cases {event : Turn ι π} (hstep : s.step event = some t) :
    (∃ i p n, event = .arrive i p n ∧ i ∉ s.arrived ∧ t = s.arrive i p n) ∨
    (∃ i, event = .attempt i ∧ s.First i ∧ 0 < s.attempts i ∧
      t = s.attempt i) ∨
    (∃ i, event = .release i ∧ s.First i ∧ t = s.release i) ∨
    (event = .idle ∧ s.waiting = ∅ ∧ t = s) := by
  cases event with
  | arrive i p n =>
      simp only [step, Option.ite_none_left_eq_some, Option.some.injEq]
        at hstep
      exact Or.inl ⟨i, p, n, rfl, hstep.1, hstep.2.symm⟩
  | attempt i =>
      simp only [step, Option.ite_none_right_eq_some, Option.some.injEq]
        at hstep
      exact Or.inr (Or.inl ⟨i, rfl, hstep.1.1, hstep.1.2, hstep.2.symm⟩)
  | release i =>
      simp only [step, Option.ite_none_right_eq_some, Option.some.injEq]
        at hstep
      exact Or.inr (Or.inr (Or.inl ⟨i, rfl, hstep.1, hstep.2.symm⟩))
  | idle =>
      simp only [step, Option.ite_none_right_eq_some, Option.some.injEq]
        at hstep
      exact Or.inr (Or.inr (Or.inr ⟨rfl, hstep.1, hstep.2.symm⟩))

theorem Sound.step {event : Turn ι π} (hs : s.Sound)
    (hstep : s.step event = some t) : t.Sound := by
  rcases step_cases hstep with
    ⟨i, p, n, -, -, rfl⟩ | ⟨i, -, -, -, rfl⟩ | ⟨i, -, -, rfl⟩ | ⟨-, -, rfl⟩
  · exact Finset.insert_subset_insert i hs
  · exact hs
  · exact (Finset.erase_subset i s.waiting).trans hs
  · exact hs

/-- A task that has arrived keeps its priority, stays among those that
arrived, and does not come back. -/
structure Keeps (s t : Workload ι π) (i : ι) : Prop where
  arrived : i ∈ t.arrived
  priority : t.priority i = s.priority i
  waited : i ∈ t.waiting → i ∈ s.waiting

theorem keeps_of_step {event : Turn ι π} (hi : i ∈ s.arrived)
    (hstep : s.step event = some t) : s.Keeps t i := by
  rcases step_cases hstep with
    ⟨j, p, n, -, hnew, rfl⟩ | ⟨j, -, -, -, rfl⟩ | ⟨j, -, -, rfl⟩ |
      ⟨-, -, rfl⟩
  · have hne : i ≠ j := by
      rintro rfl
      exact hnew hi
    exact
      { arrived := Finset.mem_insert_of_mem hi
        priority := arrive_priority_of_ne hne n
        waited := fun hwaits => (Finset.mem_insert.mp hwaits).resolve_left hne }
  · exact ⟨hi, rfl, id⟩
  · exact ⟨hi, rfl, Finset.mem_of_mem_erase⟩
  · exact ⟨hi, rfl, id⟩

/-! ## The backlog -/

omit [DecidableEq ι] in
theorem attempts_lt_backlog (hi : i ∈ s.waiting) :
    s.attempts i < s.backlog (s.priority i) := by
  have hmem : i ∈ s.waiting.filter (s.priority · ≤ s.priority i) :=
    Finset.mem_filter.mpr ⟨hi, le_rfl⟩
  exact Finset.single_le_sum (f := fun j => s.attempts j + 1)
    (fun _ _ => Nat.zero_le _) hmem

theorem backlog_arrive (hs : s.Sound) (hi : i ∉ s.arrived) (q : π) (n : ℕ) :
    (s.arrive i q n).backlog p =
      s.backlog p + (Turn.arrive i q n).demand p := by
  have hold : ∀ j ∈ s.waiting, j ≠ i := by
    rintro j hj rfl
    exact hi (hs hj)
  have hsame : ∑ j ∈ s.waiting with (s.arrive i q n).priority j ≤ p,
        ((s.arrive i q n).attempts j + 1) = s.backlog p := by
    refine Finset.sum_congr (Finset.filter_congr fun j hj => ?_) ?_
    · rw [arrive_priority_of_ne (hold j hj)]
    · intro j hj
      rw [arrive_attempts_of_ne (hold j (Finset.mem_filter.mp hj).1)]
  have hwaits : i ∉ s.waiting := fun hwaits => hi (hs hwaits)
  have hinsert : (s.arrive i q n).waiting = insert i s.waiting := rfl
  rw [backlog, hinsert, Finset.filter_insert, arrive_priority_self,
    Turn.demand]
  split
  · rw [Finset.sum_insert fun hmem => hwaits (Finset.mem_filter.mp hmem).1,
      arrive_attempts_self, hsame, add_comm]
  · exact hsame

/-- The tasks up to a priority, without one of them. -/
theorem backlog_split (hi : i ∈ s.waiting) (hle : s.priority i ≤ p) :
    s.backlog p = (s.release i).backlog p + (s.attempts i + 1) := by
  have hmem : i ∈ s.waiting.filter (s.priority · ≤ p) :=
    Finset.mem_filter.mpr ⟨hi, hle⟩
  rw [backlog, ← Finset.sum_erase_add _ _ hmem, backlog, release,
    Finset.filter_erase]

theorem backlog_attempt (hi : i ∈ s.waiting) (hle : s.priority i ≤ p)
    (hleft : 0 < s.attempts i) :
    (s.attempt i).backlog p + 1 = s.backlog p := by
  have hrest : ((s.attempt i).release i).backlog p =
      (s.release i).backlog p := by
    refine Finset.sum_congr rfl fun j hj => ?_
    have hne : j ≠ i :=
      Finset.ne_of_mem_erase (Finset.mem_filter.mp hj).1
    exact congrArg (· + 1) (attempt_attempts_of_ne hne)
  have hafter := backlog_split (s := s.attempt i) hi hle
  have hbefore := backlog_split hi hle
  rw [hrest, attempt_attempts_self] at hafter
  omega

/-- A turn that is taken while a task waits is paid by the backlog up to its
priority. -/
theorem backlog_step {event : Turn ι π} (hs : s.Sound)
    (hi : i ∈ s.waiting) (hstep : s.step event = some t) :
    event.isService.toNat + t.backlog (s.priority i) ≤
      s.backlog (s.priority i) + event.demand (s.priority i) := by
  rcases step_cases hstep with
    ⟨j, q, n, rfl, hnew, rfl⟩ | ⟨j, rfl, hfirst, hleft, rfl⟩ |
      ⟨j, rfl, hfirst, rfl⟩ | ⟨rfl, hempty, -⟩
  · rw [backlog_arrive hs hnew]
    simp [Turn.isService]
  · have hpaid := backlog_attempt hfirst.1 (hfirst.2 i hi) hleft
    simp only [Turn.isService, Turn.demand, Bool.toNat_true]
    omega
  · have hpaid := backlog_split hfirst.1 (hfirst.2 i hi)
    simp only [Turn.isService, Turn.demand, Bool.toNat_true]
    omega
  · rw [hempty] at hi
    exact absurd hi (Finset.notMem_empty i)

/-! ## Response time -/

/-- A task that waits at the end of a run has waited for no more turns than
those that the tasks not behind it could take. -/
theorem turns_le {events : List (Turn ι π)} (hs : s.Sound)
    (hi : i ∈ s.waiting) (hrun : Run step s events t) (ht : i ∈ t.waiting) :
    events.countP Turn.isService + t.attempts i <
      s.backlog (s.priority i) +
        (events.map (Turn.demand (s.priority i))).sum := by
  have hinv : t.Sound ∧ s.Keeps t i ∧ (i ∈ t.waiting →
      events.countP Turn.isService + t.backlog (s.priority i) ≤
        s.backlog (s.priority i) +
          (events.map (Turn.demand (s.priority i))).sum) := by
    clear ht
    induction hrun with
    | nil => exact ⟨hs, ⟨hs hi, rfl, id⟩, fun _ => by simp⟩
    | @snoc events middle next event _ _ hstep ih =>
        obtain ⟨hsound, hkeeps, hpaid⟩ := ih
        have hnext := keeps_of_step hkeeps.arrived hstep
        refine ⟨hsound.step hstep, ?_, ?_⟩
        · exact ⟨hnext.arrived, hnext.priority.trans hkeeps.priority,
            hkeeps.waited ∘ hnext.waited⟩
        · intro hwaits
          have hmiddle := hnext.waited hwaits
          have hone := backlog_step hsound hmiddle hstep
          have hbefore := hpaid hmiddle
          rw [hkeeps.priority] at hone
          rw [List.countP_append, List.map_append, List.sum_append]
          simp only [List.countP_singleton, List.map_cons, List.map_nil,
            List.sum_cons, List.sum_nil]
          cases hservice : event.isService <;>
            simp only [hservice, Bool.toNat_true, Bool.toNat_false,
              if_true, if_false, Bool.false_eq_true] at hone ⊢ <;> omega
  obtain ⟨-, hkeeps, hpaid⟩ := hinv
  have hleft := attempts_lt_backlog ht
  rw [hkeeps.priority] at hleft
  have htotal := hpaid ht
  omega

end Workload

end PriorityService
