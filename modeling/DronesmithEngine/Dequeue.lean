import Mathlib.Data.Int.Notation

/-!
# Double-ended queues

`utils/dequeue.go`, front first.  A negative capacity is no limit.
-/

namespace DronesmithEngine.Utils

structure Deque (α : Type) where
  container : List α
  capacity : ℤ

namespace Deque

variable {α : Type}

def NewCappedDeque (capacity : ℤ) : Deque α where
  container := []
  capacity := capacity

def Full (s : Deque α) : Prop :=
  0 ≤ s.capacity ∧ s.capacity ≤ s.container.length

def Prepend (s : Deque α) (item : α) : Bool × Deque α :=
  if s.capacity < 0 ∨ s.container.length < s.capacity then
    (true, { s with container := item :: s.container })
  else
    (false, s)

def Pop (s : Deque α) : Option α × Deque α :=
  match s.container.getLast? with
  | some item => (some item, { s with container := s.container.dropLast })
  | none => (none, s)

def Empty (s : Deque α) : Prop := s.container.length = 0

instance (s : Deque α) : Decidable s.Empty :=
  inferInstanceAs (Decidable (_ = _))

/-- Nothing comes out of an empty deque, and the back one of any other. -/
theorem Pop_cases (s : Deque α) :
    (s.Empty ∧ s.Pop = (none, s)) ∨
      ∃ front item, s.container = front ++ [item] ∧
        s.Pop = (some item, { s with container := front }) := by
  rcases List.eq_nil_or_concat s.container with hnil | ⟨front, item, hlast⟩
  · exact Or.inl ⟨by rw [Empty, hnil]; rfl, by rw [Pop, hnil]; rfl⟩
  · rw [List.concat_eq_append] at hlast
    exact Or.inr ⟨front, item, hlast, by simp [Pop, hlast]⟩

theorem not_empty_of_concat {s : Deque α} {front : List α} {item : α}
    (hlast : s.container = front ++ [item]) : ¬ s.Empty := by
  rw [Empty, hlast, List.length_append]
  exact Nat.succ_ne_zero _

theorem Prepend_cases (s : Deque α) (item : α) :
    s.Prepend item = (true, { s with container := item :: s.container }) ∨
      s.Prepend item = (false, s) := by
  unfold Prepend
  split
  · exact Or.inl rfl
  · exact Or.inr rfl

theorem Prepend_eq_self_iff (s : Deque α) (item : α) :
    (s.Prepend item).2 = s ↔ s.Full := by
  unfold Prepend Full
  by_cases hroom : s.capacity < 0 ∨ s.container.length < s.capacity
  · rw [if_pos hroom]
    constructor
    · intro hsame
      have hlength := congrArg (fun q => q.container.length) hsame
      simp at hlength
    · intro hfull
      omega
  · rw [if_neg hroom]
    simp only [true_iff]
    omega

end Deque

end DronesmithEngine.Utils
