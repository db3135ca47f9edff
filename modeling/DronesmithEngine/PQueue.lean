import DronesmithEngine.BinaryHeap
import DronesmithEngine.GoRuntime
import Mathlib.Data.List.ReduceOption
import Mathlib.Tactic

/-!
# The priority queue

`utils/pqueue.go`: a slice-backed binary heap whose slot 0 is always nil.
Every index the methods use is checked here, so that a method which could
index out of range or follow the nil of slot 0 would panic in the model.
The well-formed queues are those of which the slice is full and ordered;
on them no method panics, and each keeps the multiset of its elements.
-/

namespace DronesmithEngine.Utils

open Go

structure Item (α : Type) where
  value : α
  priority : ℤ
  deriving DecidableEq

structure PQueue (α : Type) where
  items : List (Option (Item α))
  elemsCount : ℕ
  comparator : ℤ → ℤ → Bool

namespace PQueue

variable {α : Type}

protected def max (i j : ℤ) : Bool := i < j

protected def min (i j : ℤ) : Bool := i > j

inductive PQType
  | MAXPQ
  | MINPQ

def NewPQueue (pqType : PQType) : PQueue α where
  items := [none]
  elemsCount := 0
  comparator :=
    match pqType with
    | .MAXPQ => PQueue.max
    | .MINPQ => PQueue.min

def size (pq : PQueue α) : ℕ := pq.elemsCount

/-- `pq.items[i]`, followed to the item it points to. -/
def item (pq : PQueue α) (i : ℕ) : Checked (Item α) := do
  match ← index pq.items i with
  | some x => pure x
  | none => throw .nilDereference

def less (pq : PQueue α) (i j : ℕ) : Checked Bool := do
  let a ← pq.item i
  let b ← pq.item j
  pure (pq.comparator a.priority b.priority)

def exch (pq : PQueue α) (i j : ℕ) : Checked (PQueue α) := do
  let tmpItem ← index pq.items i
  let other ← index pq.items j
  pure { pq with items := (pq.items.set i other).set j tmpItem }

def swim (pq : PQueue α) (k : ℕ) : Checked (PQueue α) :=
  if h : 1 < k then do
    if ← pq.less (k / 2) k then
      let pq' ← pq.exch (k / 2) k
      swim pq' (k / 2)
    else
      pure pq
  else
    pure pq
termination_by k
decreasing_by omega

/-- The child of `k` with which `sink` compares it: the right one when it
is there and the comparator prefers it. -/
def sinkChild (pq : PQueue α) (k : ℕ) : Checked ℕ := do
  let j := 2 * k
  if j < pq.size then
    if ← pq.less j (j + 1) then pure (j + 1) else pure j
  else
    pure j

def sink (pq : PQueue α) (k : ℕ) : Checked (PQueue α) :=
  sinkLoop pq.size pq k
where
  /-- The loop of `sink`; `fuel` bounds its iterations, each of which at
  least doubles a position that starts at one. -/
  sinkLoop : ℕ → PQueue α → ℕ → Checked (PQueue α)
    | 0, pq, _ => pure pq
    | fuel + 1, pq, k =>
        if 2 * k ≤ pq.size then do
          let j ← pq.sinkChild k
          if ← pq.less k j then
            let pq' ← pq.exch k j
            sinkLoop fuel pq' j
          else
            pure pq
        else
          pure pq

def Push (pq : PQueue α) (value : α) (priority : ℤ) :
    Checked (PQueue α) :=
  let pq' : PQueue α :=
    { pq with
      items := pq.items ++ [some ⟨value, priority⟩]
      elemsCount := pq.elemsCount + 1 }
  pq'.swim pq'.size

/-- The value and priority `Pop` returns, `none` for its `nil, 0` on an
empty queue, and the queue it leaves. -/
def Pop (pq : PQueue α) : Checked (Option (Item α) × PQueue α) :=
  if pq.size < 1 then
    pure (none, pq)
  else do
    let max ← index pq.items 1
    let exchanged ← pq.exch 1 pq.size
    let items ← slice exchanged.items 0 pq.size
    let shorter : PQueue α :=
      { exchanged with items := items, elemsCount := pq.elemsCount - 1 }
    let sunk ← shorter.sink 1
    match max with
    | some x => pure (some x, sunk)
    | none => throw .nilDereference

def Head (pq : PQueue α) : Checked (Option (Item α)) :=
  if pq.size < 1 then
    pure none
  else do
    let x ← pq.item 1
    pure (some x)

/-! ## Well-formed queues -/

/-- The item in slot `k`, if the slot is there and not nil. -/
def entry (pq : PQueue α) (k : ℕ) : Option (Item α) :=
  (pq.items[k]?).join

def key (pq : PQueue α) (k : ℕ) : ℤ :=
  ((pq.entry k).map Item.priority).getD 0

def contents (pq : PQueue α) : List (Item α) :=
  pq.items.reduceOption

/-- The comparator lets `a` stand above `b`. -/
def Above (comparator : ℤ → ℤ → Bool) (a b : ℤ) : Prop :=
  comparator a b = false

/-- Slot 0 is nil and the slots `1` to `elemsCount` are all there is. -/
structure Shaped (pq : PQueue α) : Prop where
  length_items : pq.items.length = pq.elemsCount + 1
  slot_zero : pq.items[0]? = some none
  slot_full : ∀ k, 1 ≤ k → k ≤ pq.elemsCount →
    ∃ x, pq.items[k]? = some (some x)

/-- The queues built by `NewPQueue`, `Push` and `Pop`. -/
structure Valid (pq : PQueue α) : Prop extends Shaped pq where
  comparator_eq :
    pq.comparator = PQueue.max ∨ pq.comparator = PQueue.min
  ordered :
    BinaryHeap.Ordered (Above pq.comparator) pq.key pq.elemsCount

theorem above_min {a b : ℤ} : Above PQueue.min a b ↔ a ≤ b := by
  simp [Above, PQueue.min]

theorem above_max {a b : ℤ} : Above PQueue.max a b ↔ b ≤ a := by
  simp [Above, PQueue.max]

theorem Valid.total {pq : PQueue α} (hvalid : pq.Valid) :
    Std.Total (Above pq.comparator) := by
  constructor
  intro a b
  rcases hvalid.comparator_eq with hcmp | hcmp <;> rw [hcmp]
  · rw [above_max, above_max]
    omega
  · rw [above_min, above_min]
    omega

theorem Valid.trans {pq : PQueue α} (hvalid : pq.Valid) :
    IsTrans ℤ (Above pq.comparator) := by
  constructor
  intro a b c hab hbc
  rcases hvalid.comparator_eq with hcmp | hcmp <;>
    rw [hcmp] at hab hbc ⊢
  · rw [above_max] at hab hbc ⊢
    omega
  · rw [above_min] at hab hbc ⊢
    omega

theorem NewPQueue_valid (pqType : PQType) :
    (NewPQueue pqType : PQueue α).Valid where
  length_items := rfl
  slot_zero := rfl
  slot_full k hpos hle := by
    simp only [NewPQueue] at hle
    omega
  comparator_eq := by cases pqType <;> simp [NewPQueue]
  ordered j htwo hle := by
    simp only [NewPQueue] at hle
    omega

theorem Shaped.entry_some {pq : PQueue α} (hshape : pq.Shaped) {k : ℕ}
    (hpos : 1 ≤ k) (hle : k ≤ pq.elemsCount) :
    ∃ x, pq.entry k = some x := by
  obtain ⟨x, hx⟩ := hshape.slot_full k hpos hle
  exact ⟨x, by simp [entry, hx]⟩

theorem key_of_entry {pq : PQueue α} {k : ℕ} {x : Item α}
    (hx : pq.entry k = some x) : pq.key k = x.priority := by
  simp [key, hx]

theorem item_of_entry {pq : PQueue α} {k : ℕ} {x : Item α}
    (hx : pq.entry k = some x) : pq.item k = .ok x := by
  have hslot : pq.items[k]? = some (some x) := by
    simpa [entry, Option.join_eq_some_iff] using hx
  simp [item, index_of_getElem? hslot]

theorem Shaped.less_ok {pq : PQueue α} (hshape : pq.Shaped) {i j : ℕ}
    (hi : 1 ≤ i) (hin : i ≤ pq.elemsCount)
    (hj : 1 ≤ j) (hjn : j ≤ pq.elemsCount) :
    pq.less i j = .ok (pq.comparator (pq.key i) (pq.key j)) := by
  obtain ⟨x, hx⟩ := hshape.entry_some hi hin
  obtain ⟨y, hy⟩ := hshape.entry_some hj hjn
  simp [less, item_of_entry hx, item_of_entry hy, key_of_entry hx,
    key_of_entry hy]

/-! ## Exchanging two slots -/

def exchanged (pq : PQueue α) (i j : ℕ) : PQueue α :=
  { pq with
    items :=
      (pq.items.set i (pq.items.getD j none)).set j (pq.items.getD i none) }

@[simp] theorem exchanged_elemsCount (pq : PQueue α) (i j : ℕ) :
    (pq.exchanged i j).elemsCount = pq.elemsCount := rfl

theorem exch_ok (pq : PQueue α) {i j : ℕ} (hi : i < pq.items.length)
    (hj : j < pq.items.length) :
    pq.exch i j = .ok (pq.exchanged i j) := by
  simp [exch, exchanged, index, hi, hj]

theorem exchanged_items {pq : PQueue α} {i j : ℕ}
    (hi : i < pq.items.length) (hj : j < pq.items.length) (k : ℕ) :
    (pq.exchanged i j).items[k]? = pq.items[Equiv.swap i j k]? := by
  by_cases hkj : k = j
  · subst hkj
    simp [exchanged, hi, hj]
  · by_cases hki : k = i
    · subst hki
      simp [exchanged, hi, hj, Ne.symm hkj]
    · rw [Equiv.swap_apply_of_ne_of_ne hki hkj]
      simp [exchanged, Ne.symm hki, Ne.symm hkj]

theorem exchanged_entry {pq : PQueue α} {i j : ℕ}
    (hi : i < pq.items.length) (hj : j < pq.items.length) (k : ℕ) :
    (pq.exchanged i j).entry k = pq.entry (Equiv.swap i j k) := by
  simp only [entry, exchanged_items hi hj]

theorem exchanged_key {pq : PQueue α} {i j : ℕ}
    (hi : i < pq.items.length) (hj : j < pq.items.length) :
    (pq.exchanged i j).key = BinaryHeap.exch pq.key i j := by
  funext k
  simp only [key, exchanged_entry hi hj, BinaryHeap.exch]

theorem exchanged_contents (pq : PQueue α) {i j : ℕ}
    (hi : i < pq.items.length) (hj : j < pq.items.length) :
    (pq.exchanged i j).contents.Perm pq.contents := by
  unfold contents exchanged List.reduceOption
  apply List.Perm.filterMap
  simpa [List.getD_eq_getElem?_getD, hi, hj] using List.set_set_perm hi hj

theorem Shaped.exchanged {pq : PQueue α} (hshape : pq.Shaped) {i j : ℕ}
    (hi : 1 ≤ i) (hin : i ≤ pq.elemsCount)
    (hj : 1 ≤ j) (hjn : j ≤ pq.elemsCount) :
    (pq.exchanged i j).Shaped := by
  have hlen := hshape.length_items
  have hil : i < pq.items.length := by omega
  have hjl : j < pq.items.length := by omega
  constructor
  · simpa [PQueue.exchanged] using hlen
  · rw [exchanged_items hil hjl,
      Equiv.swap_apply_of_ne_of_ne (by omega) (by omega)]
    exact hshape.slot_zero
  · intro k hk hkn
    rw [exchanged_items hil hjl]
    rw [exchanged_elemsCount] at hkn
    by_cases hki : k = i
    · subst hki
      rw [Equiv.swap_apply_left]
      exact hshape.slot_full j hj hjn
    · by_cases hkj : k = j
      · subst hkj
        rw [Equiv.swap_apply_right]
        exact hshape.slot_full i hi hin
      · rw [Equiv.swap_apply_of_ne_of_ne hki hkj]
        exact hshape.slot_full k hk hkn

structure Rearranged (pq pq' : PQueue α) : Prop where
  shaped : pq'.Shaped
  elemsCount_eq : pq'.elemsCount = pq.elemsCount
  comparator_eq : pq'.comparator = pq.comparator
  contents_perm : pq'.contents.Perm pq.contents

theorem Shaped.rearranged {pq : PQueue α} (hshape : pq.Shaped) :
    Rearranged pq pq :=
  ⟨hshape, rfl, rfl, List.Perm.refl _⟩

theorem Rearranged.trans {pq pq' pq'' : PQueue α}
    (hfirst : Rearranged pq pq') (hsecond : Rearranged pq' pq'') :
    Rearranged pq pq'' :=
  ⟨hsecond.shaped,
    hsecond.elemsCount_eq.trans hfirst.elemsCount_eq,
    hsecond.comparator_eq.trans hfirst.comparator_eq,
    hsecond.contents_perm.trans hfirst.contents_perm⟩

theorem Shaped.rearranged_exchanged {pq : PQueue α} (hshape : pq.Shaped)
    {i j : ℕ} (hi : 1 ≤ i) (hin : i ≤ pq.elemsCount)
    (hj : 1 ≤ j) (hjn : j ≤ pq.elemsCount) :
    Rearranged pq (pq.exchanged i j) := by
  have hlen := hshape.length_items
  exact ⟨hshape.exchanged hi hin hj hjn, rfl, rfl,
    exchanged_contents pq (by omega) (by omega)⟩

/-! ## The upward loop -/

theorem Shaped.swim_step {pq : PQueue α} (hshape : pq.Shaped) {k : ℕ}
    (htwo : 2 ≤ k) (hle : k ≤ pq.elemsCount) :
    pq.swim k =
      if pq.comparator (pq.key (k / 2)) (pq.key k) then
        (pq.exchanged (k / 2) k).swim (k / 2)
      else
        .ok pq := by
  have hlen := hshape.length_items
  rw [swim, dif_pos (by omega),
    hshape.less_ok (by omega) (by omega) (by omega) hle,
    exch_ok pq (by omega) (by omega)]
  simp

theorem swim_one (pq : PQueue α) {k : ℕ} (hk : k ≤ 1) :
    pq.swim k = .ok pq := by
  rw [swim, dif_neg (by omega)]
  rfl

/-- `swim` does not panic and only rearranges; from a queue in which only
the edge above `k` is out of order it makes a heap. -/
theorem Shaped.swim_ok {comparator : ℤ → ℤ → Bool}
    [Std.Total (Above comparator)] [IsTrans ℤ (Above comparator)]
    {pq : PQueue α} (hshape : pq.Shaped)
    (hcmp : pq.comparator = comparator) {k : ℕ} (hle : k ≤ pq.elemsCount)
    (hready : BinaryHeap.SwimReady (Above comparator) pq.key
      pq.elemsCount k) :
    ∃ pq', pq.swim k = .ok pq' ∧ Rearranged pq pq' ∧
      BinaryHeap.Ordered (Above comparator) pq'.key pq'.elemsCount := by
  induction k using Nat.strongRecOn generalizing pq with
  | ind k ih =>
      by_cases htwo : 2 ≤ k
      · rw [hshape.swim_step htwo hle, hcmp]
        cases hless : comparator (pq.key (k / 2)) (pq.key k) with
        | false =>
            exact ⟨pq, rfl, hshape.rearranged,
              hready.ordered (fun _ => hless)⟩
        | true =>
            have hlen := hshape.length_items
            have hmoved := hshape.rearranged_exchanged
              (i := k / 2) (j := k) (by omega) (by omega) (by omega) hle
            have hnext : BinaryHeap.SwimReady (Above comparator)
                (pq.exchanged (k / 2) k).key pq.elemsCount (k / 2) := by
              rw [exchanged_key (by omega) (by omega)]
              apply hready.exch htwo hle
              simp [Above, hless]
            obtain ⟨pq', hswim, hrest, hordered⟩ :=
              ih (k / 2) (by omega) hmoved.shaped hcmp
                (by rw [exchanged_elemsCount]; omega) hnext
            exact ⟨pq', hswim, hmoved.trans hrest, hordered⟩
      · exact ⟨pq, swim_one pq (by omega), hshape.rearranged,
          hready.ordered (fun h => absurd h htwo)⟩

theorem Shaped.swim_keeps_root {pq pq' : PQueue α} (hshape : pq.Shaped)
    {k : ℕ} (htwo : 2 ≤ k) (hle : k ≤ pq.elemsCount)
    (hbelow : Above pq.comparator (pq.key 1) (pq.key k))
    (hswim : pq.swim k = .ok pq') :
    pq'.entry 1 = pq.entry 1 := by
  induction k using Nat.strongRecOn generalizing pq with
  | ind k ih =>
      rw [hshape.swim_step htwo hle] at hswim
      cases hless : pq.comparator (pq.key (k / 2)) (pq.key k) with
      | false =>
          simp only [hless, Bool.false_eq_true, if_false,
            Except.ok.injEq] at hswim
          rw [hswim]
      | true =>
          have hlen := hshape.length_items
          have hhalf : 2 ≤ k / 2 := by
            by_contra hone
            have hroot : k / 2 = 1 := by omega
            rw [hroot] at hless
            rw [Above, hless] at hbelow
            contradiction
          have hkey : (pq.exchanged (k / 2) k).key 1 = pq.key 1 := by
            rw [exchanged_key (by omega) (by omega)]
            exact BinaryHeap.exch_other pq.key (by omega) (by omega)
          have hmoved : (pq.exchanged (k / 2) k).key (k / 2) = pq.key k := by
            rw [exchanged_key (by omega) (by omega)]
            exact BinaryHeap.exch_left pq.key (k / 2) k
          simp only [hless, if_true] at hswim
          have hroot := ih (k / 2) (by omega)
            (hshape.exchanged (by omega) (by omega) (by omega) hle)
            hhalf (by rw [exchanged_elemsCount]; omega)
            (by rw [hkey, hmoved]; exact hbelow) hswim
          rw [hroot, exchanged_entry (by omega) (by omega),
            Equiv.swap_apply_of_ne_of_ne (by omega) (by omega)]

/-! ## The downward loop -/

theorem Shaped.sinkChild_ok {pq : PQueue α} (hshape : pq.Shaped)
    [Std.Total (Above pq.comparator)] {k : ℕ} (hpos : 1 ≤ k)
    (hchild : 2 * k ≤ pq.elemsCount) :
    ∃ c, pq.sinkChild k = .ok c ∧ c / 2 = k ∧ 2 * k ≤ c ∧
      c ≤ pq.elemsCount ∧
      ∀ j, 2 ≤ j → j ≤ pq.elemsCount → j / 2 = k →
        Above pq.comparator (pq.key c) (pq.key j) := by
  have hrefl : ∀ a, Above pq.comparator a a :=
    fun a => (Std.Total.total a a).elim id id
  by_cases hright : 2 * k < pq.elemsCount
  · cases hless : pq.comparator (pq.key (2 * k)) (pq.key (2 * k + 1)) with
    | true =>
        have habove : Above pq.comparator (pq.key (2 * k + 1))
            (pq.key (2 * k)) := by
          apply (Std.Total.total (pq.key (2 * k + 1))
            (pq.key (2 * k))).resolve_right
          simp [Above, hless]
        refine ⟨2 * k + 1, ?_, by omega, by omega, by omega, ?_⟩
        · simp [sinkChild, size, hright, hless,
            hshape.less_ok (i := 2 * k) (j := 2 * k + 1) (by omega)
              (by omega) (by omega) (by omega)]
        · intro j _ _ hj
          have hcases : j = 2 * k ∨ j = 2 * k + 1 := by omega
          rcases hcases with rfl | rfl
          · exact habove
          · exact hrefl _
    | false =>
        refine ⟨2 * k, ?_, by omega, by omega, hchild, ?_⟩
        · simp [sinkChild, size, hright, hless,
            hshape.less_ok (i := 2 * k) (j := 2 * k + 1) (by omega)
              (by omega) (by omega) (by omega)]
        · intro j _ _ hj
          have hcases : j = 2 * k ∨ j = 2 * k + 1 := by omega
          rcases hcases with rfl | rfl
          · exact hrefl _
          · exact hless
  · refine ⟨2 * k, ?_, by omega, by omega, hchild, ?_⟩
    · simp [sinkChild, size, hright]
    · intro j _ hjn hj
      have hleft : j = 2 * k := by omega
      rw [hleft]
      exact hrefl _

/-- The loop of `sink` does not panic, does not run out of fuel and only
rearranges; from a queue in which only the edges below `k` are out of order
it makes a heap. -/
theorem Shaped.sinkLoop_ok (comparator : ℤ → ℤ → Bool)
    [Std.Total (Above comparator)] [IsTrans ℤ (Above comparator)]
    (fuel : ℕ) {pq : PQueue α} (hshape : pq.Shaped) (hcmp : pq.comparator = comparator)
    {k : ℕ} (hpos : 1 ≤ k) (hfuel : pq.elemsCount < k + fuel)
    (hready : BinaryHeap.SinkReady (Above comparator) pq.key
      pq.elemsCount k) :
    ∃ pq', sink.sinkLoop fuel pq k = .ok pq' ∧ Rearranged pq pq' ∧
      BinaryHeap.Ordered (Above comparator) pq'.key pq'.elemsCount := by
  induction fuel generalizing pq k with
  | zero =>
      exact ⟨pq, rfl, hshape.rearranged,
        hready.ordered (fun j _ _ hj => by omega)⟩
  | succ fuel ih =>
      by_cases hchild : 2 * k ≤ pq.elemsCount
      · subst hcmp
        obtain ⟨c, hpick, hparent, hdouble, hle, hbest⟩ :=
          hshape.sinkChild_ok hpos hchild
        have hlen := hshape.length_items
        have hstep : sink.sinkLoop (fuel + 1) pq k =
            if pq.comparator (pq.key k) (pq.key c) then
              sink.sinkLoop fuel (pq.exchanged k c) c
            else
              .ok pq := by
          rw [sink.sinkLoop, size, if_pos hchild, hpick, ok_bind,
            hshape.less_ok hpos (by omega) (by omega) hle, ok_bind,
            exch_ok pq (by omega) (by omega)]
          rfl
        rw [hstep]
        cases hless : pq.comparator (pq.key k) (pq.key c) with
        | false =>
            refine ⟨pq, rfl, hshape.rearranged, hready.ordered ?_⟩
            intro j hj hjn hjk
            have habove : Above pq.comparator (pq.key k) (pq.key c) := hless
            exact Trans.trans habove (hbest j hj hjn hjk)
        | true =>
            have hmoved := hshape.rearranged_exchanged
              (i := k) (j := c) hpos (by omega) (by omega) hle
            have hnext : BinaryHeap.SinkReady (Above pq.comparator)
                (pq.exchanged k c).key pq.elemsCount c := by
              rw [exchanged_key (by omega) (by omega)]
              apply hready.exch hpos hparent hle hbest
              simp [Above, hless]
            obtain ⟨pq', hsink, hrest, hordered⟩ :=
              ih hmoved.shaped rfl (by omega)
                (by rw [exchanged_elemsCount]; omega) hnext
            exact ⟨pq', hsink, hmoved.trans hrest, hordered⟩
      · refine ⟨pq, ?_, hshape.rearranged,
          hready.ordered (fun j _ hjn hj => by omega)⟩
        rw [sink.sinkLoop, size, if_neg hchild]
        rfl

/-! ## Push, Pop and Head -/

theorem Shaped.entry_iff_getElem? {pq : PQueue α} {k : ℕ} {x : Item α} :
    pq.entry k = some x ↔ pq.items[k]? = some (some x) := by
  simp [entry, Option.join_eq_some_iff]

/-- `Push` on a well-formed queue: it adds one item, and the head stays
unless the new item may not stand below it. -/
theorem Valid.push {pq : PQueue α} (hvalid : pq.Valid) (value : α)
    (priority : ℤ) :
    ∃ pq', pq.Push value priority = .ok pq' ∧ pq'.Valid ∧
      pq'.comparator = pq.comparator ∧
      pq'.elemsCount = pq.elemsCount + 1 ∧
      pq'.contents.Perm (⟨value, priority⟩ :: pq.contents) ∧
      (1 ≤ pq.elemsCount → Above pq.comparator (pq.key 1) priority →
        pq'.entry 1 = pq.entry 1) := by
  have := hvalid.total
  have := hvalid.trans
  have hlen := hvalid.length_items
  let added : PQueue α :=
    { pq with
      items := pq.items ++ [some ⟨value, priority⟩]
      elemsCount := pq.elemsCount + 1 }
  have hold : ∀ k, k ≤ pq.elemsCount → added.entry k = pq.entry k := by
    intro k hk
    simp only [entry, added]
    rw [List.getElem?_append_left (by omega)]
  have hnew : added.entry (pq.elemsCount + 1) = some ⟨value, priority⟩ := by
    simp only [entry, added]
    rw [List.getElem?_append_right (by omega), hlen]
    simp
  have hshape : added.Shaped := by
    constructor
    · simp [added, hlen]
    · simp only [added]
      rw [List.getElem?_append_left (by omega)]
      exact hvalid.slot_zero
    · intro k hk hkn
      have hkn' : k ≤ pq.elemsCount + 1 := hkn
      by_cases hlast : k = pq.elemsCount + 1
      · rw [hlast]
        exact ⟨_, Shaped.entry_iff_getElem?.mp hnew⟩
      · obtain ⟨x, hx⟩ := hvalid.entry_some hk (by omega)
        rw [← hold k (by omega)] at hx
        exact ⟨x, Shaped.entry_iff_getElem?.mp hx⟩
  have hready : BinaryHeap.SwimReady (Above pq.comparator) added.key
      added.elemsCount added.elemsCount :=
    hvalid.ordered.swimReady (fun k _ hk => by
      simp only [key, hold k hk])
  obtain ⟨pq', hswim, hmoved, hordered⟩ :=
    hshape.swim_ok rfl le_rfl hready
  have hcmp : pq'.comparator = pq.comparator := hmoved.comparator_eq
  have hcontents : added.contents.Perm
      (⟨value, priority⟩ :: pq.contents) := by
    unfold contents
    rw [List.reduceOption_append]
    exact List.perm_append_singleton _ _
  refine ⟨pq', hswim, ?_, hcmp, hmoved.elemsCount_eq,
    hmoved.contents_perm.trans hcontents, ?_⟩
  · exact
      { toShaped := hmoved.shaped
        comparator_eq := by rw [hcmp]; exact hvalid.comparator_eq
        ordered := by rw [hcmp]; exact hordered }
  · intro hpos hbelow
    rw [← hold 1 hpos]
    apply hshape.swim_keeps_root (k := added.size) (Nat.succ_le_succ hpos)
      le_rfl _ hswim
    have hroot : added.key 1 = pq.key 1 := by simp only [key, hold 1 hpos]
    have hlast : added.key added.size = priority := key_of_entry hnew
    rw [hroot, hlast]
    exact hbelow

theorem Valid.head {pq : PQueue α} (hvalid : pq.Valid) :
    pq.Head = .ok (pq.entry 1) := by
  unfold Head
  by_cases hempty : pq.size < 1
  · have hnone : pq.items[1]? = none := by
      apply List.getElem?_eq_none
      have := hvalid.length_items
      unfold size at hempty
      omega
    simp [hempty, entry, hnone]
  · unfold size at hempty
    obtain ⟨x, hx⟩ := hvalid.entry_some (k := 1) le_rfl (by omega)
    simp [size, hempty, item_of_entry hx, hx]

theorem pop_empty {pq : PQueue α} (hempty : pq.elemsCount = 0) :
    pq.Pop = .ok (none, pq) := by
  simp [Pop, size, hempty]

/-- The queue `Pop` hands to `sink`: the last item in slot 1, and the slot
it came from cut off. -/
def shortened (pq : PQueue α) : PQueue α :=
  { pq.exchanged 1 pq.elemsCount with
    items := (pq.exchanged 1 pq.elemsCount).items.take pq.elemsCount
    elemsCount := pq.elemsCount - 1 }

theorem shortened_entry (pq : PQueue α) {k : ℕ}
    (hk : k < pq.elemsCount) :
    pq.shortened.entry k = (pq.exchanged 1 pq.elemsCount).entry k := by
  simp only [entry, shortened]
  rw [List.getElem?_take_of_lt hk]

theorem Valid.shortened_shaped {pq : PQueue α} (hvalid : pq.Valid)
    (hpos : 1 ≤ pq.elemsCount) : pq.shortened.Shaped := by
  have hmoved := hvalid.exchanged (i := 1) (j := pq.elemsCount)
    le_rfl hpos hpos le_rfl
  have hlen := hmoved.length_items
  rw [exchanged_elemsCount] at hlen
  constructor
  · simp [shortened, hlen]
    omega
  · simp only [shortened]
    rw [List.getElem?_take_of_lt hpos]
    exact hmoved.slot_zero
  · intro k hk hkn
    have hkn' : k ≤ pq.elemsCount - 1 := hkn
    simp only [shortened]
    rw [List.getElem?_take_of_lt (by omega)]
    exact hmoved.slot_full k hk (by rw [exchanged_elemsCount]; omega)

theorem Valid.shortened_contents {pq : PQueue α} (hvalid : pq.Valid)
    (hpos : 1 ≤ pq.elemsCount) {x : Item α} (hx : pq.entry 1 = some x) :
    pq.contents.Perm (x :: pq.shortened.contents) := by
  have hlen := hvalid.length_items
  have hswapped : (pq.exchanged 1 pq.elemsCount).items =
      pq.shortened.items ++ [some x] := by
    have hlast : (pq.exchanged 1 pq.elemsCount).items[pq.elemsCount]? =
        some (some x) := by
      rw [exchanged_items (by omega) (by omega), Equiv.swap_apply_right]
      exact Shaped.entry_iff_getElem?.mp hx
    have hcut : (pq.exchanged 1 pq.elemsCount).items.drop pq.elemsCount =
        [some x] := by
      have hlen' : (pq.exchanged 1 pq.elemsCount).items.length =
          pq.elemsCount + 1 := by
        simpa [exchanged] using hlen
      obtain ⟨hlt, hget⟩ := List.getElem?_eq_some_iff.mp hlast
      rw [List.drop_eq_getElem_cons hlt, hget,
        List.drop_eq_nil_of_le (by omega)]
    rw [← hcut]
    exact (List.take_append_drop _ _).symm
  have hperm := exchanged_contents pq (i := 1)
    (j := pq.elemsCount) (by omega) (by omega)
  have happend : (pq.exchanged 1 pq.elemsCount).contents =
      pq.shortened.contents ++ [x] := by
    unfold contents
    rw [hswapped, List.reduceOption_append]
    rfl
  rw [happend] at hperm
  exact hperm.symm.trans (List.perm_append_singleton _ _)

/-- `Pop` on a well-formed queue removes the item in slot 1. -/
theorem Valid.pop {pq : PQueue α} (hvalid : pq.Valid)
    (hpos : 1 ≤ pq.elemsCount) :
    ∃ x pq', pq.entry 1 = some x ∧ pq.Pop = .ok (some x, pq') ∧
      pq'.Valid ∧ pq'.comparator = pq.comparator ∧
      pq'.elemsCount = pq.elemsCount - 1 ∧
      pq.contents.Perm (x :: pq'.contents) := by
  have := hvalid.total
  have := hvalid.trans
  have hlen := hvalid.length_items
  obtain ⟨x, hx⟩ := hvalid.entry_some le_rfl hpos
  have hshape := hvalid.shortened_shaped hpos
  have hready : BinaryHeap.SinkReady (Above pq.comparator)
      pq.shortened.key pq.shortened.elemsCount 1 := by
    have hswapped := hvalid.ordered.sinkReady
    rw [← exchanged_key (by omega) (by omega)] at hswapped
    have hsame : ∀ k, k ≤ pq.elemsCount - 1 →
        pq.shortened.key k = (pq.exchanged 1 pq.elemsCount).key k := by
      intro k hk
      simp only [key, shortened_entry pq (show k < pq.elemsCount by omega)]
    constructor
    · intro j htwo hle hne
      have hle' : j ≤ pq.elemsCount - 1 := hle
      rw [hsame j hle', hsame (j / 2) (by omega)]
      exact hswapped.except j htwo hle' hne
    · intro htwo
      omega
  obtain ⟨pq', hsink, hmoved, hordered⟩ :=
    hshape.sinkLoop_ok pq.comparator pq.shortened.size rfl le_rfl
      (by unfold size; omega) hready
  have hcmp : pq'.comparator = pq.comparator := hmoved.comparator_eq
  refine ⟨x, pq', hx, ?_, ?_, hcmp, hmoved.elemsCount_eq, ?_⟩
  · have hslice : slice (pq.exchanged 1 pq.elemsCount).items 0
        pq.elemsCount = .ok pq.shortened.items := by
      rw [slice_ok (Nat.zero_le _) (by simp [exchanged, hlen])]
      rfl
    have hmax : index pq.items 1 = .ok (some x) :=
      index_of_getElem? (Shaped.entry_iff_getElem?.mp hx)
    have hnonempty : ¬ pq.elemsCount < 1 := by omega
    simp only [Pop, size, hnonempty, if_false, hmax, ok_bind,
      exch_ok pq (i := 1) (j := pq.elemsCount) (by omega)
        (by omega), hslice]
    have hsink' : pq.shortened.sink 1 = .ok pq' := hsink
    unfold shortened at hsink'
    simp only [shortened]
    rw [hsink']
    rfl
  · exact
      { toShaped := hmoved.shaped
        comparator_eq := by rw [hcmp]; exact hvalid.comparator_eq
        ordered := by rw [hcmp]; exact hordered }
  · exact (hvalid.shortened_contents hpos hx).trans
      (hmoved.contents_perm.symm.cons x)

/-- The item in slot 1 may stand above every queued item. -/
theorem Valid.head_above {pq : PQueue α} (hvalid : pq.Valid)
    {x y : Item α} (hx : pq.entry 1 = some x) (hy : y ∈ pq.contents) :
    Above pq.comparator x.priority y.priority := by
  have := hvalid.total
  have := hvalid.trans
  have hlen := hvalid.length_items
  obtain ⟨k, hk⟩ : ∃ k, pq.items[k]? = some (some y) := by
    rw [contents, List.reduceOption_mem_iff] at hy
    exact List.mem_iff_getElem?.mp hy
  have hkpos : 1 ≤ k := by
    by_contra hzero
    have hk0 : k = 0 := by omega
    rw [hk0, hvalid.slot_zero] at hk
    simp at hk
  have hkle : k ≤ pq.elemsCount := by
    have := (List.getElem?_eq_some_iff.mp hk).1
    omega
  have hroot := hvalid.ordered.root hkpos hkle
  rwa [key_of_entry hx,
    key_of_entry (Shaped.entry_iff_getElem?.mpr hk)] at hroot

theorem Valid.entry_one_mem {pq : PQueue α} {x : Item α}
    (hx : pq.entry 1 = some x) : x ∈ pq.contents := by
  rw [contents, List.reduceOption_mem_iff]
  exact List.mem_of_getElem? (Shaped.entry_iff_getElem?.mp hx)

end PQueue

end DronesmithEngine.Utils
