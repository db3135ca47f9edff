import Mathlib.Logic.Equiv.Basic
import Mathlib.Order.Defs.Unbundled

/-!
# Binary heaps on positions starting at one

The keys of a binary heap are a function of the position; the children of
`k` are `2k` and `2k + 1`.  `r a b` says that `a` may stand above `b`.  The
two repair loops of a heap move one misplaced key along a path by exchanges;
`SwimReady` and `SinkReady` are their loop invariants, and each exchange of
a loop is one lemma here.
-/

namespace BinaryHeap

variable {β : Type*} (r : β → β → Prop)

/-- Every key up to position `n` may stand below the key of its parent. -/
def Ordered (key : ℕ → β) (n : ℕ) : Prop :=
  ∀ j, 2 ≤ j → j ≤ n → r (key (j / 2)) (key j)

/-- Only the edge above `k` may be out of order, and the children of `k` may
stand below the parent of `k`. -/
structure SwimReady (key : ℕ → β) (n k : ℕ) : Prop where
  except : ∀ j, 2 ≤ j → j ≤ n → j ≠ k → r (key (j / 2)) (key j)
  grand : 2 ≤ k → ∀ j, 2 ≤ j → j ≤ n → j / 2 = k → r (key (k / 2)) (key j)

/-- Only the edges below `k` may be out of order, and the children of `k`
may stand below the parent of `k`. -/
structure SinkReady (key : ℕ → β) (n k : ℕ) : Prop where
  except : ∀ j, 2 ≤ j → j ≤ n → j / 2 ≠ k → r (key (j / 2)) (key j)
  grand : 2 ≤ k → ∀ j, 2 ≤ j → j ≤ n → j / 2 = k → r (key (k / 2)) (key j)

def exch (key : ℕ → β) (i j : ℕ) : ℕ → β :=
  fun k => key (Equiv.swap i j k)

@[simp] theorem exch_left (key : ℕ → β) (i j : ℕ) :
    exch key i j i = key j := by
  simp [exch]

@[simp] theorem exch_right (key : ℕ → β) (i j : ℕ) :
    exch key i j j = key i := by
  simp [exch]

theorem exch_other (key : ℕ → β) {i j k : ℕ} (hi : k ≠ i) (hj : k ≠ j) :
    exch key i j k = key k := by
  simp [exch, Equiv.swap_apply_of_ne_of_ne hi hj]

variable {r} {key : ℕ → β} {n : ℕ}

/-- The root of a heap may stand above every key of it. -/
theorem Ordered.root [Std.Refl r] [IsTrans β r] (hheap : Ordered r key n)
    {k : ℕ} (hpos : 1 ≤ k) (hle : k ≤ n) : r (key 1) (key k) := by
  induction k using Nat.strongRecOn with
  | ind k ih =>
      by_cases hone : k = 1
      · subst hone
        exact Std.Refl.refl _
      · have hparent : r (key 1) (key (k / 2)) :=
          ih (k / 2) (by omega) (by omega) (by omega)
        exact Trans.trans hparent (hheap k (by omega) hle)

/-- A key appended below a heap is the only one that may be misplaced. -/
theorem Ordered.swimReady {key' : ℕ → β} (hheap : Ordered r key n)
    (hsame : ∀ j, 1 ≤ j → j ≤ n → key' j = key j) :
    SwimReady r key' (n + 1) (n + 1) where
  except j htwo hle hne := by
    rw [hsame j (by omega) (by omega), hsame (j / 2) (by omega) (by omega)]
    exact hheap j htwo (by omega)
  grand _ j htwo hle hparent := by omega

theorem SwimReady.exch [Std.Total r] [IsTrans β r] {k : ℕ}
    (hready : SwimReady r key n k) (htwo : 2 ≤ k) (hle : k ≤ n)
    (hout : ¬ r (key (k / 2)) (key k)) :
    SwimReady r (exch key (k / 2) k) n (k / 2) := by
  have habove : r (key k) (key (k / 2)) :=
    (Std.Total.total (key k) (key (k / 2))).resolve_right hout
  constructor
  · intro j hj hjn hne
    by_cases hjk : j = k
    · subst hjk
      rw [exch_left, exch_right]
      exact habove
    · rw [exch_other key hne hjk]
      by_cases hparent : j / 2 = k
      · rw [hparent, exch_right]
        exact hready.grand htwo j hj hjn hparent
      · by_cases hsibling : j / 2 = k / 2
        · rw [hsibling, exch_left]
          have hedge := hready.except j hj hjn hjk
          rw [hsibling] at hedge
          exact Trans.trans habove hedge
        · rw [exch_other key hsibling hparent]
          exact hready.except j hj hjn hjk
  · intro hhalf j hj hjn hparent
    have hup : r (key (k / 2 / 2)) (key (k / 2)) :=
      hready.except (k / 2) hhalf (by omega) (by omega)
    rw [exch_other key (by omega) (by omega)]
    by_cases hjk : j = k
    · subst hjk
      rw [exch_right]
      exact hup
    · rw [exch_other key (by omega) hjk]
      have hedge := hready.except j hj hjn hjk
      rw [hparent] at hedge
      exact Trans.trans hup hedge

theorem SwimReady.ordered {k : ℕ} (hready : SwimReady r key n k)
    (hstop : 2 ≤ k → r (key (k / 2)) (key k)) : Ordered r key n := by
  intro j hj hjn
  by_cases hjk : j = k
  · subst hjk
    exact hstop hj
  · exact hready.except j hj hjn hjk

/-- Putting the last key of a heap at the root and dropping the last
position leaves only the edges below the root to repair. -/
theorem Ordered.sinkReady (hheap : Ordered r key n) :
    SinkReady r (exch key 1 n) (n - 1) 1 where
  except j htwo hle hne := by
    rw [exch_other key (by omega) (by omega),
      exch_other key (by omega) (by omega)]
    exact hheap j htwo (by omega)
  grand htwo := by omega

/-- One exchange of a key with the child that may stand above its sibling,
on its way down. -/
theorem SinkReady.exch [Std.Total r] {k c : ℕ}
    (hready : SinkReady r key n k) (hpos : 1 ≤ k)
    (hchild : c / 2 = k) (hle : c ≤ n)
    (hbest : ∀ j, 2 ≤ j → j ≤ n → j / 2 = k → r (key c) (key j))
    (hout : ¬ r (key k) (key c)) :
    SinkReady r (exch key k c) n c := by
  have hbelow : r (key c) (key k) :=
    (Std.Total.total (key c) (key k)).resolve_right hout
  constructor
  · intro j hj hjn hne
    by_cases hparent : j / 2 = k
    · rw [hparent, exch_left]
      by_cases hjc : j = c
      · subst hjc
        rw [exch_right]
        exact hbelow
      · rw [exch_other key (by omega) hjc]
        exact hbest j hj hjn hparent
    · rw [exch_other key hparent hne]
      by_cases hjk : j = k
      · subst hjk
        rw [exch_left]
        exact hready.grand hj c (by omega) hle hchild
      · rw [exch_other key hjk (by rintro rfl; exact hparent hchild)]
        exact hready.except j hj hjn hparent
  · intro _ j hj hjn hparent
    rw [hchild, exch_left, exch_other key (by omega) (by omega)]
    have hedge := hready.except j hj hjn (by omega)
    rwa [hparent] at hedge

theorem SinkReady.ordered {k : ℕ} (hready : SinkReady r key n k)
    (hstop : ∀ j, 2 ≤ j → j ≤ n → j / 2 = k → r (key k) (key j)) :
    Ordered r key n := by
  intro j hj hjn
  by_cases hparent : j / 2 = k
  · rw [hparent]
    exact hstop j hj hjn hparent
  · exact hready.except j hj hjn hparent

end BinaryHeap
