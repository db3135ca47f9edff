import DronesmithEngine.LabelledRuns
import DronesmithEngine.PQueue
import Mathlib.Tactic

/-!
# Runs of a priority queue

Any sequence of `Push` and `Pop` calls on a queue of either kind.  A run keeps
what was pushed and what was popped; a call that panics has no next state.
-/

namespace DronesmithEngine.Utils

open Go LabelledRuns PQueue

/-- The order in which a queue of this kind hands out two priorities. -/
def PQueue.PQType.First : PQType → ℤ → ℤ → Prop
  | .MAXPQ, a, b => b ≤ a
  | .MINPQ, a, b => a ≤ b

inductive PQueueOp (α : Type)
  | Push (value : α) (priority : ℤ)
  | Pop

structure PQueueRun (α : Type) where
  queue : PQueue α
  pushed : Multiset (Item α)
  popped : Multiset (Item α)

namespace PQueueRun

variable {α : Type} {pqType : PQType} {s t : PQueueRun α}

def initial (pqType : PQType) : PQueueRun α where
  queue := NewPQueue pqType
  pushed := 0
  popped := 0

def step (s : PQueueRun α) : PQueueOp α → Option (PQueueRun α)
  | .Push value priority =>
      match s.queue.Push value priority with
      | .ok queue =>
          some { s with queue := queue, pushed := ⟨value, priority⟩ ::ₘ s.pushed }
      | .error _ => none
  | .Pop =>
      match s.queue.Pop with
      | .ok (some x, queue) =>
          some { s with queue := queue, popped := x ::ₘ s.popped }
      | .ok (none, queue) => some { s with queue := queue }
      | .error _ => none

/-- The slice has a slot for each element and one more, and is a heap; the
elements are those pushed and not popped; no call panics; and `Pop` returns a
first element whenever there is one. -/
structure Sound (pqType : PQType) (s : PQueueRun α) : Prop where
  slots : s.queue.items.length = s.queue.elemsCount + 1
  heap : ∀ j, 2 ≤ j → j ≤ s.queue.elemsCount →
    ∃ x y, s.queue.items[j / 2]? = some (some x) ∧
      s.queue.items[j]? = some (some y) ∧
        pqType.First x.priority y.priority
  accounted : (s.queue.contents : Multiset (Item α)) + s.popped = s.pushed
  calls : ∀ op, ∃ t, s.step op = some t
  pops : s.queue.contents ≠ [] →
    ∃ x queue, s.queue.Pop = .ok (some x, queue) ∧ x ∈ s.queue.contents ∧
      ∀ y ∈ s.queue.contents, pqType.First x.priority y.priority

/-- A well-formed queue of the kind that the run began with. -/
structure Kept (pqType : PQType) (s : PQueueRun α) : Prop where
  valid : s.queue.Valid
  comparator : s.queue.comparator =
    (NewPQueue pqType : PQueue α).comparator
  accounted : (s.queue.contents : Multiset (Item α)) + s.popped = s.pushed

theorem initial_kept (pqType : PQType) :
    (initial pqType : PQueueRun α).Kept pqType :=
  ⟨NewPQueue_valid pqType, rfl, rfl⟩

theorem Kept.first_iff (hs : s.Kept pqType) {a b : ℤ} :
    Above s.queue.comparator a b ↔ pqType.First a b := by
  rw [hs.comparator]
  cases pqType with
  | MAXPQ => exact above_max
  | MINPQ => exact above_min

/-- A call goes through, and the queue stays well formed. -/
theorem Kept.call (hs : s.Kept pqType) (op : PQueueOp α) :
    ∃ t, s.step op = some t ∧ t.Kept pqType := by
  obtain ⟨hvalid, hcmp, haccounted⟩ := hs
  cases op with
  | Push value priority =>
      obtain ⟨queue, hpush, hvalid', hcmp', -, hperm, -⟩ :=
        hvalid.push value priority
      refine ⟨_, by rw [step, hpush], hvalid', hcmp'.trans hcmp, ?_⟩
      rw [Multiset.coe_eq_coe.mpr hperm, ← Multiset.cons_coe,
        Multiset.cons_add, haccounted]
  | Pop =>
      by_cases hempty : s.queue.elemsCount = 0
      · exact ⟨s, by rw [step, pop_empty hempty], hvalid, hcmp, haccounted⟩
      · obtain ⟨x, queue, -, hpop, hvalid', hcmp', -, hperm⟩ :=
          hvalid.pop (Nat.one_le_iff_ne_zero.mpr hempty)
        refine ⟨_, by rw [step, hpop], hvalid', hcmp'.trans hcmp, ?_⟩
        rw [Multiset.coe_eq_coe.mpr hperm, ← Multiset.cons_coe,
          Multiset.cons_add] at haccounted
        rw [Multiset.add_cons, haccounted]

theorem Kept.step {op : PQueueOp α} (hs : s.Kept pqType)
    (hstep : s.step op = some t) : t.Kept pqType := by
  obtain ⟨next, hnext, hkept⟩ := hs.call op
  rw [hstep, Option.some.injEq] at hnext
  rw [hnext]
  exact hkept

theorem Kept.pops (hs : s.Kept pqType) (hne : s.queue.contents ≠ []) :
    ∃ x queue, s.queue.Pop = .ok (some x, queue) ∧ x ∈ s.queue.contents ∧
      ∀ y ∈ s.queue.contents, pqType.First x.priority y.priority := by
  have hpos : 1 ≤ s.queue.elemsCount := by
    by_contra hzero
    have hslots := hs.valid.length_items
    have hnil : s.queue.items = [none] := by
      obtain ⟨slot, hslot⟩ := List.length_eq_one_iff.mp
        (show s.queue.items.length = 1 by omega)
      have hfirst := hs.valid.slot_zero
      rw [hslot, List.getElem?_cons_zero, Option.some.injEq] at hfirst
      rw [hslot, hfirst]
    rw [contents, hnil] at hne
    exact hne rfl
  obtain ⟨x, queue, hx, hpop, -⟩ := hs.valid.pop hpos
  refine ⟨x, queue, hpop, Valid.entry_one_mem hx, ?_⟩
  intro y hy
  exact hs.first_iff.mp (hs.valid.head_above hx hy)

theorem Kept.heap (hs : s.Kept pqType) {j : ℕ} (htwo : 2 ≤ j)
    (hle : j ≤ s.queue.elemsCount) :
    ∃ x y, s.queue.items[j / 2]? = some (some x) ∧
      s.queue.items[j]? = some (some y) ∧
        pqType.First x.priority y.priority := by
  obtain ⟨x, hx⟩ := hs.valid.slot_full (j / 2) (by omega) (by omega)
  obtain ⟨y, hy⟩ := hs.valid.slot_full j (by omega) hle
  have hordered := hs.valid.ordered j htwo hle
  rw [key_of_entry (Shaped.entry_iff_getElem?.mpr hx),
    key_of_entry (Shaped.entry_iff_getElem?.mpr hy)] at hordered
  exact ⟨x, y, hx, hy, hs.first_iff.mp hordered⟩

/-- In every run of a queue of either kind the slice is a heap of the
elements pushed and not popped, and `Pop` returns a first one. -/
theorem pops_first_of_pushed {ops : List (PQueueOp α)}
    (hrun : Run step (initial pqType) ops s) : s.Sound pqType := by
  have hs : s.Kept pqType :=
    hrun.invariant (fun _ _ _ hs _ hstep => hs.step hstep)
      (initial_kept pqType)
  exact
    { slots := hs.valid.length_items
      heap := fun _ htwo hle => hs.heap htwo hle
      accounted := hs.accounted
      calls := fun op =>
        have ⟨t, hstep, _⟩ := hs.call op
        ⟨t, hstep⟩
      pops := hs.pops }

/-- Two elements of one priority, and the one popped. -/
theorem pops_first_of_pushed_tie :
    ∃ s, Run step (initial .MAXPQ) [.Push 'a' 1, .Push 'b' 1, .Pop] s ∧
      s.Sound .MAXPQ := by
  obtain ⟨s₁, h₁, hs₁⟩ := (initial_kept (α := Char) .MAXPQ).call (.Push 'a' 1)
  obtain ⟨s₂, h₂, hs₂⟩ := hs₁.call (.Push 'b' 1)
  obtain ⟨s₃, h₃, -⟩ := hs₂.call .Pop
  have hnil : Run step (initial .MAXPQ) ([] : List (PQueueOp Char))
      (initial .MAXPQ) := .nil
  have hrun : Run step (initial .MAXPQ)
      [.Push 'a' 1, .Push 'b' 1, .Pop] s₃ :=
    ((hnil.snoc trivial h₁).snoc trivial h₂).snoc trivial h₃
  exact ⟨s₃, hrun, pops_first_of_pushed hrun⟩

end PQueueRun

end DronesmithEngine.Utils
