import DronesmithEngine.PQueue
import Mathlib.Tactic

/-!
# The command queue of a vehicle

A well-formed queue built by `NewPQueue(MINPQ)` that holds the pointers of
commands under their op numbers.  Its methods are those of the priority
queue; being well formed they cannot panic, and the lemmas about them speak
of the head and of the multiset of entries only.
-/

namespace DronesmithEngine

open Go Utils

abbrev CmdRef := ℕ

structure CommandQueue where
  queue : PQueue CmdRef
  valid : queue.Valid
  isMin : queue.comparator = PQueue.min

namespace CommandQueue

def new : CommandQueue where
  queue := PQueue.NewPQueue .MINPQ
  valid := PQueue.NewPQueue_valid .MINPQ
  isMin := rfl

theorem push_wellFormed {q : CommandQueue} {cmd : CmdRef} {op : ℤ}
    {queue : PQueue CmdRef} (hpush : q.queue.Push cmd op = .ok queue) :
    queue.Valid ∧ queue.comparator = PQueue.min := by
  obtain ⟨queue', hok, hvalid, hcmp, -⟩ := q.valid.push cmd op
  rw [hpush] at hok
  cases hok
  exact ⟨hvalid, hcmp.trans q.isMin⟩

theorem pop_wellFormed {q : CommandQueue} {x : Option (Item CmdRef)}
    {queue : PQueue CmdRef} (hpop : q.queue.Pop = .ok (x, queue)) :
    queue.Valid ∧ queue.comparator = PQueue.min := by
  by_cases hempty : q.queue.elemsCount = 0
  · rw [PQueue.pop_empty hempty] at hpop
    cases hpop
    exact ⟨q.valid, q.isMin⟩
  · obtain ⟨x', queue', -, hok, hvalid, hcmp, -⟩ :=
      q.valid.pop (by omega)
    rw [hpop] at hok
    cases hok
    exact ⟨hvalid, hcmp.trans q.isMin⟩

def Size (q : CommandQueue) : ℕ := q.queue.size

def Push (q : CommandQueue) (cmd : CmdRef) (op : ℤ) : CommandQueue :=
  match hpush : q.queue.Push cmd op with
  | .ok queue =>
      ⟨queue, (push_wellFormed hpush).1, (push_wellFormed hpush).2⟩
  | .error _ => q

def Head (q : CommandQueue) : Option (Item CmdRef) :=
  match q.queue.Head with
  | .ok x => x
  | .error _ => none

def Pop (q : CommandQueue) : Option (Item CmdRef) × CommandQueue :=
  match hpop : q.queue.Pop with
  | .ok (x, queue) =>
      (x, ⟨queue, (pop_wellFormed hpop).1, (pop_wellFormed hpop).2⟩)
  | .error _ => (none, q)

/-- No method panics: each is the method of the priority queue. -/
theorem Push_queue (q : CommandQueue) (cmd : CmdRef) (op : ℤ) :
    q.queue.Push cmd op = .ok (q.Push cmd op).queue := by
  obtain ⟨queue, hok, -⟩ := q.valid.push cmd op
  unfold Push
  split
  next hpush => exact hpush
  next hpush => rw [hok] at hpush; cases hpush

theorem Head_queue (q : CommandQueue) : q.queue.Head = .ok q.Head := by
  unfold Head
  rw [q.valid.head]

theorem Pop_queue (q : CommandQueue) :
    q.queue.Pop = .ok (q.Pop.1, q.Pop.2.queue) := by
  unfold Pop
  split
  next hpop => exact hpop
  next hpop =>
      by_cases hempty : q.queue.elemsCount = 0
      · rw [PQueue.pop_empty hempty] at hpop
        cases hpop
      · obtain ⟨x, queue, -, hok, -⟩ := q.valid.pop (by omega)
        rw [hok] at hpop
        cases hpop

/-! ## Entries -/

def contents (q : CommandQueue) : List (Item CmdRef) := q.queue.contents

theorem Head_eq_entry (q : CommandQueue) : q.Head = q.queue.entry 1 := by
  unfold Head
  rw [q.valid.head]

theorem Head_eq_none {q : CommandQueue} :
    q.Head = none ↔ q.Size = 0 := by
  rw [Head_eq_entry]
  constructor
  · intro hnone
    by_contra hsize
    obtain ⟨x, hx⟩ := q.valid.entry_some le_rfl
      (show 1 ≤ q.queue.elemsCount from Nat.one_le_iff_ne_zero.mpr hsize)
    rw [hnone] at hx
    cases hx
  · intro hsize
    have hlen := q.valid.length_items
    have hcount : q.queue.elemsCount = 0 := hsize
    have hout : q.queue.items[1]? = none :=
      List.getElem?_eq_none (by omega)
    simp [PQueue.entry, hout]

theorem Head_eq_none_iff_contents {q : CommandQueue} :
    q.Head = none ↔ q.contents = [] := by
  rw [Head_eq_none]
  have hlen := q.valid.length_items
  constructor
  · intro hsize
    have hcount : q.queue.elemsCount = 0 := hsize
    rw [hcount, Nat.zero_add, List.length_eq_one_iff] at hlen
    obtain ⟨slot, hslot⟩ := hlen
    have hzero := q.valid.slot_zero
    rw [hslot] at hzero
    simp only [List.getElem?_cons_zero, Option.some.injEq] at hzero
    simp [contents, PQueue.contents, hslot, hzero]
  · intro hempty
    by_contra hsize
    obtain ⟨x, hx⟩ := q.valid.entry_some le_rfl
      (show 1 ≤ q.queue.elemsCount from Nat.one_le_iff_ne_zero.mpr hsize)
    have hmem := PQueue.Valid.entry_one_mem hx
    rw [← contents, hempty] at hmem
    cases hmem

theorem Head_mem {q : CommandQueue} {x : Item CmdRef}
    (hx : q.Head = some x) : x ∈ q.contents :=
  PQueue.Valid.entry_one_mem (by rw [← Head_eq_entry, hx])

theorem Head_le {q : CommandQueue} {x y : Item CmdRef}
    (hx : q.Head = some x) (hy : y ∈ q.contents) :
    x.priority ≤ y.priority := by
  have habove := q.valid.head_above (by rw [← Head_eq_entry, hx]) hy
  rwa [q.isMin, PQueue.above_min] at habove

theorem Push_contents (q : CommandQueue) (cmd : CmdRef) (op : ℤ) :
    (q.Push cmd op).contents.Perm (⟨cmd, op⟩ :: q.contents) := by
  obtain ⟨queue, hok, -, -, -, hperm, -⟩ := q.valid.push cmd op
  rw [Push_queue] at hok
  cases hok
  exact hperm

theorem Head_Push {q : CommandQueue} {x : Item CmdRef}
    (hx : q.Head = some x) {cmd : CmdRef} {op : ℤ}
    (hop : x.priority ≤ op) : (q.Push cmd op).Head = some x := by
  obtain ⟨queue, hok, -, -, -, -, hkeeps⟩ := q.valid.push cmd op
  rw [Push_queue] at hok
  cases hok
  have hpos : 1 ≤ q.queue.elemsCount := by
    rw [Nat.one_le_iff_ne_zero]
    intro hzero
    rw [Head_eq_none.mpr hzero] at hx
    cases hx
  rw [Head_eq_entry] at hx ⊢
  rw [hkeeps hpos, hx]
  rw [q.isMin, PQueue.above_min, PQueue.key_of_entry hx]
  exact hop

theorem Head_Push_lower {q : CommandQueue} {x : Item CmdRef}
    (hx : q.Head = some x) {cmd : CmdRef} {op : ℤ}
    (hop : op < x.priority) :
    (q.Push cmd op).Head = some ⟨cmd, op⟩ := by
  have hperm := q.Push_contents cmd op
  have hpushed : (⟨cmd, op⟩ : Item CmdRef) ∈ (q.Push cmd op).contents :=
    hperm.mem_iff.mpr List.mem_cons_self
  cases hhead : (q.Push cmd op).Head with
  | none =>
      rw [Head_eq_none_iff_contents.mp hhead] at hpushed
      cases hpushed
  | some y =>
      have hle := Head_le hhead hpushed
      rcases List.mem_cons.mp (hperm.mem_iff.mp (Head_mem hhead)) with
        hnew | hold
      · rw [hnew]
      · have hlow := Head_le hx hold
        exact absurd (lt_of_le_of_lt (hlow.trans hle) hop) (lt_irrefl _)

theorem Pop_of_some {q : CommandQueue} {x : Item CmdRef}
    (hx : q.Head = some x) :
    q.Pop.1 = some x ∧ q.contents.Perm (x :: q.Pop.2.contents) := by
  have hpos : 1 ≤ q.queue.elemsCount := by
    rw [Nat.one_le_iff_ne_zero]
    intro hzero
    rw [Head_eq_none.mpr hzero] at hx
    cases hx
  obtain ⟨x', queue, hentry, hok, -, -, -, hperm⟩ := q.valid.pop hpos
  rw [← Head_eq_entry, hx] at hentry
  cases hentry
  rw [Pop_queue, Except.ok.injEq, Prod.mk.injEq] at hok
  refine ⟨hok.1, ?_⟩
  rw [contents, contents, hok.2]
  exact hperm

end CommandQueue

end DronesmithEngine
