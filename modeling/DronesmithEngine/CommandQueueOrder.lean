import DronesmithEngine.LabelledRuns
import DronesmithEngine.PQueue

/-!
# The order in which a command queue hands out its commands

A run of `Push` and `Pop` calls on the queue `NewPQueue(MINPQ)` builds.  The
pushed values stand for the command pointers: each `Push` call gets a fresh
one, so comparing two values compares the calls that queued them.  The heap
hands out a command of lowest op number, but says nothing about the order of
commands that share one; push order survives only in queues of at most two.
-/

namespace DronesmithEngine.Utils

open Go LabelledRuns PQueue

inductive QueueOp
  | push (priority : ℤ)
  | pop

/-- A command queue and the number of `Push` calls made on it. -/
structure QueueRun where
  queue : PQueue ℕ
  pushed : ℕ

namespace QueueRun

def initial : QueueRun where
  queue := NewPQueue .MINPQ
  pushed := 0

/-- One call; `none` if it panics. -/
def step (s : QueueRun) : QueueOp → Option QueueRun
  | .push priority =>
      match s.queue.Push s.pushed priority with
      | .ok queue => some ⟨queue, s.pushed + 1⟩
      | .error _ => none
  | .pop =>
      match s.queue.Pop with
      | .ok (_, queue) => some ⟨queue, s.pushed⟩
      | .error _ => none

/-- A `Pop` here returns a command of lowest op number. -/
def PopsLowestFirst (s : QueueRun) : Prop :=
  ∀ x queue, s.queue.Pop = .ok (some x, queue) →
    ∀ y ∈ queue.contents, x.priority ≤ y.priority

/-- A `Pop` here returns a command pushed before every command with the
same op number that it leaves queued. -/
def PopsInPushOrder (s : QueueRun) : Prop :=
  ∀ x queue, s.queue.Pop = .ok (some x, queue) →
    ∀ y ∈ queue.contents, y.priority = x.priority → x.value < y.value

def AtMostTwo (s : QueueRun) : QueueOp → Prop
  | .push _ => s.queue.elemsCount < 2
  | .pop => True

instance (s : QueueRun) (op : QueueOp) : Decidable (s.AtMostTwo op) := by
  cases op <;> unfold AtMostTwo <;> infer_instance

/-! ## Lowest op number first -/

def MinValid (s : QueueRun) : Prop :=
  s.queue.Valid ∧ s.queue.comparator = PQueue.min

theorem initial_minValid : initial.MinValid :=
  ⟨NewPQueue_valid .MINPQ, rfl⟩

/-- No call panics on a well-formed queue, and each leaves one. -/
theorem MinValid.step {s : QueueRun} (hs : s.MinValid) (op : QueueOp) :
    ∃ next, s.step op = some next ∧ next.MinValid := by
  obtain ⟨hvalid, hmin⟩ := hs
  cases op with
  | push priority =>
      obtain ⟨queue, hpush, hvalid', hcmp, _⟩ :=
        hvalid.push s.pushed priority
      refine ⟨⟨queue, s.pushed + 1⟩, ?_, hvalid', hcmp.trans hmin⟩
      simp [QueueRun.step, hpush]
  | pop =>
      by_cases hempty : s.queue.elemsCount = 0
      · refine ⟨⟨s.queue, s.pushed⟩, ?_, hvalid, hmin⟩
        simp [QueueRun.step, pop_empty hempty]
      · obtain ⟨x, queue, _, hpop, hvalid', hcmp, _⟩ :=
          hvalid.pop (by omega)
        refine ⟨⟨queue, s.pushed⟩, ?_, hvalid', hcmp.trans hmin⟩
        simp [QueueRun.step, hpop]

theorem run_minValid {ops : List QueueOp} {s : QueueRun}
    (hrun : Run step initial ops s) : s.MinValid := by
  apply hrun.invariant _ initial_minValid
  intro s op next hs _ hstep
  obtain ⟨next', hnext, hvalid⟩ := hs.step op
  rw [hstep] at hnext
  cases hnext
  exact hvalid

theorem MinValid.popsLowestFirst {s : QueueRun} (hs : s.MinValid) :
    s.PopsLowestFirst := by
  obtain ⟨hvalid, hmin⟩ := hs
  intro x queue hpop y hy
  by_cases hempty : s.queue.elemsCount = 0
  · rw [pop_empty hempty] at hpop
    cases hpop
  · obtain ⟨x', queue', hx, hpop', _, _, _, hperm⟩ :=
      hvalid.pop (by omega)
    rw [hpop] at hpop'
    cases hpop'
    have hmem : y ∈ s.queue.contents :=
      hperm.mem_iff.mpr (List.mem_cons_of_mem x hy)
    have habove := hvalid.head_above hx hmem
    rwa [hmin, above_min] at habove

/-! ## Push order in queues of at most two -/

def queueOf (items : List (Item ℕ)) : PQueue ℕ where
  items := none :: items.map some
  elemsCount := items.length
  comparator := PQueue.min

theorem push_queueOf_nil (value : ℕ) (priority : ℤ) :
    (queueOf []).Push value priority = .ok (queueOf [⟨value, priority⟩]) := by
  simp [Push, queueOf, size, swim_one]

theorem push_queueOf_one (a : Item ℕ) (value : ℕ) (priority : ℤ) :
    (queueOf [a]).Push value priority =
      .ok (if a.priority > priority then queueOf [⟨value, priority⟩, a]
        else queueOf [a, ⟨value, priority⟩]) := by
  simp only [Push, queueOf, size]
  rw [swim, dif_pos (by simp)]
  by_cases hless : a.priority > priority
  · simp [less, item, index, PQueue.min, hless, exch, swim_one]
  · simp [less, item, index, PQueue.min, hless]

theorem pop_queueOf_one (a : Item ℕ) :
    (queueOf [a]).Pop = .ok (some a, queueOf []) := by
  simp [Pop, queueOf, size, index, exch, slice, sink, sink.sinkLoop]

theorem pop_queueOf_two (a b : Item ℕ) :
    (queueOf [a, b]).Pop = .ok (some a, queueOf [b]) := by
  simp [Pop, queueOf, size, index, exch, slice, sink, sink.sinkLoop]

/-- Of two queued commands the one in slot 1 has the lower op number, or
the same op number and was pushed first. -/
def AgeOrdered (s : QueueRun) : Prop :=
  s.queue = queueOf [] ∨
    (∃ a, s.queue = queueOf [a] ∧ a.value < s.pushed) ∨
      ∃ a b, s.queue = queueOf [a, b] ∧ a.value < s.pushed ∧
        b.value < s.pushed ∧ a.priority ≤ b.priority ∧
        (a.priority = b.priority → a.value < b.value)

theorem initial_ageOrdered : initial.AgeOrdered :=
  Or.inl rfl

theorem AgeOrdered.push {s next : QueueRun} (hs : s.AgeOrdered)
    {priority : ℤ} (hroom : s.queue.elemsCount < 2)
    (hstep : s.step (.push priority) = some next) : next.AgeOrdered := by
  rcases hs with hq | ⟨a, hq, ha⟩ | ⟨a, b, hq, _⟩
  · simp only [step, hq, push_queueOf_nil, Option.some.injEq] at hstep
    subst hstep
    exact Or.inr (Or.inl ⟨_, rfl, Nat.lt_succ_self _⟩)
  · simp only [step, hq, push_queueOf_one, Option.some.injEq] at hstep
    subst hstep
    refine Or.inr (Or.inr ?_)
    by_cases hless : a.priority > priority
    · refine ⟨_, _, if_pos hless, Nat.lt_succ_self _, ?_, ?_, ?_⟩
      · exact Nat.lt_succ_of_lt ha
      · exact le_of_lt hless
      · exact fun heq => absurd heq (ne_of_lt hless)
    · refine ⟨_, _, if_neg hless, Nat.lt_succ_of_lt ha, ?_, ?_, ?_⟩
      · exact Nat.lt_succ_self _
      · exact not_lt.mp hless
      · exact fun _ => ha
  · simp [hq, queueOf] at hroom

theorem AgeOrdered.pop {s next : QueueRun} (hs : s.AgeOrdered)
    (hstep : s.step .pop = some next) : next.AgeOrdered := by
  rcases hs with hq | ⟨a, hq, ha⟩ | ⟨a, b, hq, _, hb, _⟩
  · simp only [step, hq, pop_empty (show (queueOf []).elemsCount = 0 from rfl),
      Option.some.injEq] at hstep
    subst hstep
    exact Or.inl rfl
  · simp only [step, hq, pop_queueOf_one, Option.some.injEq] at hstep
    subst hstep
    exact Or.inl rfl
  · simp only [step, hq, pop_queueOf_two, Option.some.injEq] at hstep
    subst hstep
    exact Or.inr (Or.inl ⟨b, rfl, hb⟩)

theorem guardedRun_ageOrdered {ops : List QueueOp} {s : QueueRun}
    (hrun : GuardedRun step AtMostTwo initial ops s) : s.AgeOrdered := by
  apply hrun.invariant _ initial_ageOrdered
  intro s op next hs hroom hstep
  cases op with
  | push priority => exact hs.push hroom hstep
  | pop => exact hs.pop hstep

theorem AgeOrdered.popsInPushOrder {s : QueueRun} (hs : s.AgeOrdered) :
    s.PopsInPushOrder := by
  intro x queue hpop y hy heq
  rcases hs with hq | ⟨a, hq, _⟩ | ⟨a, b, hq, _, _, _, hage⟩
  · rw [hq, pop_empty rfl] at hpop
    cases hpop
  · rw [hq, pop_queueOf_one] at hpop
    cases hpop
    simp [contents, queueOf] at hy
  · rw [hq, pop_queueOf_two] at hpop
    cases hpop
    have hyb : y = b := by
      simpa [contents, queueOf] using hy
    subst hyb
    exact hage heq.symm

/-! ## The order of commands that share an op number -/

/-- Commands leave in the order of their op numbers in every run; commands
that share one leave in push order while at most two are queued. -/
theorem commandQueue_pop_order {ops : List QueueOp} {s : QueueRun}
    (hrun : Run step initial ops s) :
    s.PopsLowestFirst ∧
      (GuardedRun step AtMostTwo initial ops s → s.PopsInPushOrder) :=
  ⟨(run_minValid hrun).popsLowestFirst,
    fun hsmall => (guardedRun_ageOrdered hsmall).popsInPushOrder⟩

theorem exec_two_set_mode :
    exec step AtMostTwo initial [.push 176, .push 176] =
      some ⟨queueOf [⟨0, 176⟩, ⟨1, 176⟩], 2⟩ := by
  have hfirst : step initial (.push 176) =
      some ⟨queueOf [⟨0, 176⟩], 1⟩ := by
    simp only [step, initial]
    rw [show (NewPQueue .MINPQ : PQueue ℕ) = queueOf [] from rfl,
      push_queueOf_nil]
  have hsecond : step ⟨queueOf [⟨0, 176⟩], 1⟩ (.push 176) =
      some ⟨queueOf [⟨0, 176⟩, ⟨1, 176⟩], 2⟩ := by
    simp [step, push_queueOf_one]
  have hroom : initial.AtMostTwo (.push 176) := by decide
  have hroom' : AtMostTwo ⟨queueOf [⟨0, 176⟩], 1⟩ (.push 176) := by decide
  simp [exec, hfirst, hsecond, hroom, hroom']

theorem commandQueue_pop_order_two_set_mode :
    PopsLowestFirst ⟨queueOf [⟨0, 176⟩, ⟨1, 176⟩], 2⟩ ∧
      PopsInPushOrder ⟨queueOf [⟨0, 176⟩, ⟨1, 176⟩], 2⟩ := by
  have hrun := GuardedRun.of_exec exec_two_set_mode
  have horder := commandQueue_pop_order
    (hrun.run)
  exact ⟨horder.1, horder.2 hrun⟩

/-- Three commands with one op number: the third leaves before the
second. -/
theorem commandQueue_reorders_equal_ops :
    ¬ ∀ ops s, Run step initial ops s → s.PopsInPushOrder := by
  intro hall
  have hthird : step ⟨queueOf [⟨0, 176⟩, ⟨1, 176⟩], 2⟩ (.push 176) =
      some ⟨queueOf [⟨0, 176⟩, ⟨1, 176⟩, ⟨2, 176⟩], 3⟩ := by
    simp only [step, Push, queueOf, size]
    rw [swim, dif_pos (by simp)]
    simp [less, item, index, PQueue.min]
  have hpop : step ⟨queueOf [⟨0, 176⟩, ⟨1, 176⟩, ⟨2, 176⟩], 3⟩ .pop =
      some ⟨queueOf [⟨2, 176⟩, ⟨1, 176⟩], 3⟩ := by
    simp [step, Pop, queueOf, size, index, exch, slice, sink, sink.sinkLoop,
      sinkChild, less, item, PQueue.min]
  have htwo : Run step initial _ _ :=
    (GuardedRun.of_exec exec_two_set_mode).mono
      (fun _ _ _ => trivial)
  have hrun : Run step initial _ _ := (htwo.snoc trivial hthird).snoc trivial hpop
  have horder := hall _ _ hrun ⟨2, 176⟩ _ (pop_queueOf_two _ _)
    ⟨1, 176⟩ (by simp [contents, queueOf]) rfl
  simp at horder

end QueueRun

end DronesmithEngine.Utils
