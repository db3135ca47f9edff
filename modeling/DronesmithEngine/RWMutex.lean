import DronesmithEngine.LabelledRuns
import Mathlib.Tactic

/-!
# Readers and writers on one lock

Threads that lock and unlock one `sync.RWMutex`.  A writer first announces
itself, which keeps new readers out, and enters when the readers that hold
the lock have left; when it leaves, the readers it kept out hold the lock.
The state of the lock is read off the threads.  `i` ranges over any type of
threads, and a thread is the list of its calls that are left.
-/

namespace RWMutex

open LabelledRuns

inductive Op
  | RLock
  | RUnlock
  | Lock
  | Unlock
  deriving DecidableEq

/-- A blocked thread waits in `RLock`, an announced one in `Lock`, and a
writing one holds the lock alone. -/
inductive Status
  | running
  | blocked
  | announced
  | writing
  deriving DecidableEq

/-- A thread, and how often it holds the lock for reading. -/
structure Thread where
  ops : List Op
  held : ℕ
  status : Status
  deriving DecidableEq

/-- Read locks are released, and a write lock is taken only without one and
released at once. -/
def Balanced : ℕ → List Op → Prop
  | 0, [] => True
  | n, .RLock :: ops => Balanced (n + 1) ops
  | n + 1, .RUnlock :: ops => Balanced n ops
  | 0, .Lock :: .Unlock :: ops => Balanced 0 ops
  | _, _ => False

/-- The thread takes the lock for reading while it holds it for reading. -/
def reenters : ℕ → List Op → Bool
  | _ + 1, .RLock :: _ => true
  | n + 1, .RUnlock :: ops => reenters n ops
  | _, _ => false

def Thread.Reenters (t : Thread) : Prop := reenters t.held t.ops

def Thread.IsWriter (t : Thread) : Prop :=
  t.status = .announced ∨ t.status = .writing

/-- A reader that a writer has kept out holds the lock when it leaves. -/
def Thread.wake (t : Thread) : Thread :=
  match t.status, t.ops with
  | .blocked, .RLock :: ops => ⟨ops, t.held + 1, .running⟩
  | _, _ => t

instance (t : Thread) : Decidable t.Reenters :=
  inferInstanceAs (Decidable (_ = true))

instance (t : Thread) : Decidable t.IsWriter :=
  inferInstanceAs (Decidable (_ ∨ _))

variable {ι : Type*}

def WriterFree (s : ι → Thread) : Prop := ∀ i, ¬ (s i).IsWriter

def NoReaders (s : ι → Thread) : Prop := ∀ i, (s i).held = 0

instance [Fintype ι] (s : ι → Thread) : Decidable (WriterFree s) :=
  inferInstanceAs (Decidable (∀ _, _))

instance [Fintype ι] (s : ι → Thread) : Decidable (NoReaders s) :=
  inferInstanceAs (Decidable (∀ _, _))

/-- One step of the thread `k`, `none` if it has to wait or has finished. -/
def step [Fintype ι] [DecidableEq ι] (s : ι → Thread) (k : ι) :
    Option (ι → Thread) :=
  match (s k).status, (s k).ops with
  | .running, .RLock :: ops =>
      if WriterFree s then
        some (Function.update s k ⟨ops, (s k).held + 1, .running⟩)
      else
        some (Function.update s k ⟨.RLock :: ops, (s k).held, .blocked⟩)
  | .running, .RUnlock :: ops =>
      some (Function.update s k ⟨ops, (s k).held - 1, .running⟩)
  | .running, .Lock :: ops =>
      if WriterFree s then
        some (Function.update s k ⟨.Lock :: ops, (s k).held, .announced⟩)
      else none
  | .announced, .Lock :: ops =>
      if NoReaders s then
        some (Function.update s k ⟨ops, (s k).held, .writing⟩)
      else none
  | .writing, .Unlock :: ops =>
      some (Function.update (fun i => (s i).wake) k
        ⟨ops, (s k).held, .running⟩)
  | _, _ => none

/-- Some thread has not finished, and none can take a step. -/
def Deadlock [Fintype ι] [DecidableEq ι] (s : ι → Thread) : Prop :=
  (∃ i, (s i).ops ≠ []) ∧ ∀ k, step s k = none

/-- No writer announces itself while a thread that holds the lock for reading
is going to take it for reading again. -/
def Undisturbed (s : ι → Thread) (k : ι) : Prop :=
  (s k).status = .running → (s k).ops.head? = some .Lock →
    ∀ i, ¬ (s i).Reenters

instance [Fintype ι] (s : ι → Thread) (k : ι) :
    Decidable (Undisturbed s k) :=
  inferInstanceAs (Decidable (_ → _))

/-! ## What a step can do -/

inductive Moves [DecidableEq ι] (s : ι → Thread) (k : ι) :
    (ι → Thread) → Prop
  | acquire {ops : List Op} {held : ℕ} :
      s k = ⟨.RLock :: ops, held, .running⟩ → WriterFree s →
        Moves s k (Function.update s k ⟨ops, held + 1, .running⟩)
  | block {ops : List Op} {held : ℕ} :
      s k = ⟨.RLock :: ops, held, .running⟩ → ¬ WriterFree s →
        Moves s k (Function.update s k ⟨.RLock :: ops, held, .blocked⟩)
  | release {ops : List Op} {held : ℕ} :
      s k = ⟨.RUnlock :: ops, held, .running⟩ →
        Moves s k (Function.update s k ⟨ops, held - 1, .running⟩)
  | announce {ops : List Op} {held : ℕ} :
      s k = ⟨.Lock :: ops, held, .running⟩ → WriterFree s →
        Moves s k (Function.update s k ⟨.Lock :: ops, held, .announced⟩)
  | enter {ops : List Op} {held : ℕ} :
      s k = ⟨.Lock :: ops, held, .announced⟩ → NoReaders s →
        Moves s k (Function.update s k ⟨ops, held, .writing⟩)
  | leave {ops : List Op} {held : ℕ} :
      s k = ⟨.Unlock :: ops, held, .writing⟩ →
        Moves s k (Function.update (fun i => (s i).wake) k
          ⟨ops, held, .running⟩)

theorem moves_of_step [Fintype ι] [DecidableEq ι] {s next : ι → Thread}
    {k : ι} (hstep : step s k = some next) : Moves s k next := by
  unfold step at hstep
  rcases hk : s k with ⟨ops, held, status⟩
  rw [hk] at hstep
  cases status with
  | running =>
      cases ops with
      | nil => cases hstep
      | cons op ops =>
          cases op with
          | RLock =>
              simp only at hstep
              split at hstep
              next hfree =>
                  rw [← Option.some.inj hstep]
                  exact .acquire hk hfree
              next hbusy =>
                  rw [← Option.some.inj hstep]
                  exact .block hk hbusy
          | RUnlock =>
              rw [← Option.some.inj hstep]
              exact .release hk
          | Lock =>
              simp only at hstep
              split at hstep
              next hfree =>
                  rw [← Option.some.inj hstep]
                  exact .announce hk hfree
              next => cases hstep
          | Unlock => cases hstep
  | blocked => cases hstep
  | announced =>
      cases ops with
      | nil => cases hstep
      | cons op ops =>
          cases op with
          | Lock =>
              simp only at hstep
              split at hstep
              next hnone =>
                  rw [← Option.some.inj hstep]
                  exact .enter hk hnone
              next => cases hstep
          | RLock => cases hstep
          | RUnlock => cases hstep
          | Unlock => cases hstep
  | writing =>
      cases ops with
      | nil => cases hstep
      | cons op ops =>
          cases op with
          | Unlock =>
              rw [← Option.some.inj hstep]
              exact .leave hk
          | RLock => cases hstep
          | RUnlock => cases hstep
          | Lock => cases hstep

/-! ## Invariants of all runs -/

inductive WellFormed : Thread → Prop
  | running {ops : List Op} {held : ℕ} :
      Balanced held ops → WellFormed ⟨ops, held, .running⟩
  | blocked {ops : List Op} {held : ℕ} :
      Balanced (held + 1) ops → WellFormed ⟨.RLock :: ops, held, .blocked⟩
  | announced {ops : List Op} :
      Balanced 0 ops → WellFormed ⟨.Lock :: .Unlock :: ops, 0, .announced⟩
  | writing {ops : List Op} :
      Balanced 0 ops → WellFormed ⟨.Unlock :: ops, 0, .writing⟩

/-- There is one writer at most, it writes alone, and readers are blocked
only while there is one. -/
structure Consistent (s : ι → Thread) : Prop where
  wellFormed : ∀ i, WellFormed (s i)
  single : ∀ i j, (s i).IsWriter → (s j).IsWriter → i = j
  alone : ∀ i, (s i).status = .writing → NoReaders s
  blocked : ∀ i, (s i).status = .blocked → ¬ WriterFree s

theorem consistent_of_balanced {s : ι → Thread}
    (hs : ∀ i, ∃ ops, Balanced 0 ops ∧ s i = ⟨ops, 0, .running⟩) :
    Consistent s := by
  have hrunning (i : ι) : (s i).status = .running := by
    obtain ⟨ops, -, hi⟩ := hs i
    rw [hi]
  refine ⟨?_, ?_, ?_, ?_⟩
  · intro i
    obtain ⟨ops, hbalanced, hi⟩ := hs i
    rw [hi]
    exact .running hbalanced
  · intro i j hwriter
    rcases hwriter with h | h
    · rw [hrunning] at h
      cases h
    · rw [hrunning] at h
      cases h
  · intro i hwriting
    rw [hrunning] at hwriting
    cases hwriting
  · intro i hblocked
    rw [hrunning] at hblocked
    cases hblocked

theorem not_writer_of_running {t : Thread} (ht : t.status = .running) :
    ¬ t.IsWriter := by
  rintro (h | h)
  · rw [ht] at h
    cases h
  · rw [ht] at h
    cases h

section Wake

theorem WellFormed.wake {t : Thread} (ht : WellFormed t) :
    WellFormed t.wake := by
  cases ht with
  | running hbalanced => exact .running hbalanced
  | blocked hbalanced => exact .running hbalanced
  | announced hbalanced => exact .announced hbalanced
  | writing hbalanced => exact .writing hbalanced

theorem WellFormed.wake_status {t : Thread} (ht : WellFormed t) :
    t.wake.status ≠ .blocked := by
  cases ht with
  | running _ => simp [Thread.wake]
  | blocked _ => simp [Thread.wake]
  | announced _ => simp [Thread.wake]
  | writing _ => simp [Thread.wake]

theorem WellFormed.wake_isWriter {t : Thread} (ht : WellFormed t) :
    t.wake.IsWriter ↔ t.IsWriter := by
  cases ht with
  | running _ => rfl
  | blocked _ => simp [Thread.wake, Thread.IsWriter]
  | announced _ => rfl
  | writing _ => rfl

end Wake

variable [DecidableEq ι]

/-- A step that keeps a thread from being a writer keeps the others the
writers they were. -/
theorem status_update {s : ι → Thread} {k i : ι} {t : Thread}
    {status : Status} (hi : (Function.update s k t i).status = status)
    (ht : t.status ≠ status) : i ≠ k ∧ (s i).status = status := by
  by_cases hik : i = k
  · subst hik
    rw [Function.update_self] at hi
    exact absurd hi ht
  · rw [Function.update_of_ne hik] at hi
    exact ⟨hik, hi⟩

theorem isWriter_update {s : ι → Thread} {k i : ι} {t : Thread}
    (ht : ¬ t.IsWriter) (hi : (Function.update s k t i).IsWriter) :
    i ≠ k ∧ (s i).IsWriter := by
  by_cases hik : i = k
  · subst hik
    rw [Function.update_self] at hi
    exact absurd hi ht
  · rw [Function.update_of_ne hik] at hi
    exact ⟨hik, hi⟩

theorem wellFormed_update {s : ι → Thread} {k : ι} {t : Thread}
    (ht : WellFormed t) (hs : ∀ i, WellFormed (s i)) (i : ι) :
    WellFormed (Function.update s k t i) :=
  (Function.forall_update_iff s fun _ => WellFormed).mpr
    ⟨ht, fun i _ => hs i⟩ i

/-- A step of a thread that is not a writer and does not become one. -/
theorem Consistent.update_reader {s : ι → Thread} (hs : Consistent s)
    {k : ι} {t : Thread} (ht : WellFormed t) (hnot : ¬ t.IsWriter)
    (hk : ¬ (s k).IsWriter)
    (hblocked : t.status = .blocked → ¬ WriterFree s)
    (hheld : ¬ WriterFree s → (s k).held = 0 → t.held = 0) :
    Consistent (Function.update s k t) := by
  have hbusy : ¬ WriterFree s → ¬ WriterFree (Function.update s k t) := by
    intro hbusy hfree
    apply hbusy
    intro i hi
    have hik : i ≠ k := by
      rintro rfl
      exact hk hi
    have hnone := hfree i
    rw [Function.update_of_ne hik] at hnone
    exact hnone hi
  refine ⟨?_, ?_, ?_, ?_⟩
  · exact wellFormed_update ht hs.wellFormed
  · intro i j hi hj
    exact hs.single i j (isWriter_update hnot hi).2
      (isWriter_update hnot hj).2
  · intro i hi j
    obtain ⟨hik, hwriter⟩ := isWriter_update hnot (Or.inr hi)
    rw [Function.update_of_ne hik] at hi
    have hnone := hs.alone i hi
    by_cases hjk : j = k
    · subst hjk
      rw [Function.update_self]
      exact hheld (fun hfree => hfree i hwriter) (hnone j)
    · rw [Function.update_of_ne hjk]
      exact hnone j
  · intro i hi
    apply hbusy
    by_cases hik : i = k
    · subst hik
      rw [Function.update_self] at hi
      exact hblocked hi
    · rw [Function.update_of_ne hik] at hi
      exact hs.blocked i hi

theorem Consistent.announce {s : ι → Thread} (hs : Consistent s) {k : ι}
    (hfree : WriterFree s) {t : Thread} (ht : WellFormed t)
    (hannounced : t.status = .announced) :
    Consistent (Function.update s k t) := by
  have honly (i : ι) (hi : (Function.update s k t i).IsWriter) : i = k := by
    by_contra hik
    rw [Function.update_of_ne hik] at hi
    exact hfree i hi
  refine ⟨?_, ?_, ?_, ?_⟩
  · exact wellFormed_update ht hs.wellFormed
  · intro i j hi hj
    rw [honly i hi, honly j hj]
  · intro i hi
    have hik := honly i (Or.inr hi)
    subst hik
    rw [Function.update_self, hannounced] at hi
    cases hi
  · intro i hi
    have hold := (status_update hi (by rw [hannounced]; decide)).2
    exact absurd hfree (hs.blocked i hold)

theorem Consistent.enter {s : ι → Thread} (hs : Consistent s) {k : ι}
    (hannounced : (s k).status = .announced) (hnone : NoReaders s)
    {t : Thread} (ht : WellFormed t) (hwriting : t.status = .writing)
    (hheld : t.held = 0) : Consistent (Function.update s k t) := by
  have honly (i : ι) (hi : (Function.update s k t i).IsWriter) : i = k := by
    by_contra hik
    rw [Function.update_of_ne hik] at hi
    exact hik (hs.single i k hi (Or.inl hannounced))
  refine ⟨?_, ?_, ?_, ?_⟩
  · exact wellFormed_update ht hs.wellFormed
  · intro i j hi hj
    rw [honly i hi, honly j hj]
  · intro i _ j
    by_cases hjk : j = k
    · subst hjk
      rwa [Function.update_self]
    · rw [Function.update_of_ne hjk]
      exact hnone j
  · intro i _ hfree
    apply hfree k
    rw [Function.update_self]
    exact Or.inr hwriting

theorem Consistent.leave {s : ι → Thread} (hs : Consistent s) {k : ι}
    (hwriting : (s k).status = .writing) {t : Thread} (ht : WellFormed t)
    (hrunning : t.status = .running) :
    Consistent (Function.update (fun i => (s i).wake) k t) := by
  have hfree (i : ι) :
      ¬ (Function.update (fun i => (s i).wake) k t i).IsWriter := by
    intro hi
    obtain ⟨hik, hwriter⟩ :=
      isWriter_update (not_writer_of_running hrunning) hi
    rw [(hs.wellFormed i).wake_isWriter] at hwriter
    exact hik (hs.single i k hwriter (Or.inr hwriting))
  refine ⟨?_, ?_, ?_, ?_⟩
  · exact wellFormed_update ht fun i => (hs.wellFormed i).wake
  · intro i j hi
    exact absurd hi (hfree i)
  · intro i hi
    exact absurd (Or.inr hi) (hfree i)
  · intro i hi
    have hold := (status_update hi (by rw [hrunning]; decide)).2
    exact absurd hold (hs.wellFormed i).wake_status

/-- The number of read locks a thread holds is part of its being balanced. -/
theorem WellFormed.balanced {ops : List Op} {held : ℕ}
    (ht : WellFormed ⟨ops, held, .running⟩) : Balanced held ops := by
  cases ht with
  | running hbalanced => exact hbalanced

theorem Balanced.acquire {ops : List Op} {held : ℕ}
    (hbalanced : Balanced held (.RLock :: ops)) :
    Balanced (held + 1) ops := by
  cases held with
  | zero => exact hbalanced
  | succ n => exact hbalanced

theorem Balanced.release {ops : List Op} {held : ℕ}
    (hbalanced : Balanced held (.RUnlock :: ops)) :
    ∃ n, held = n + 1 ∧ Balanced n ops := by
  cases held with
  | zero => exact absurd hbalanced id
  | succ n => exact ⟨n, rfl, hbalanced⟩

theorem Balanced.lock {ops : List Op} {held : ℕ}
    (hbalanced : Balanced held (.Lock :: ops)) :
    held = 0 ∧ ∃ rest, ops = .Unlock :: rest ∧ Balanced 0 rest := by
  cases held with
  | succ n => exact absurd hbalanced id
  | zero =>
      refine ⟨rfl, ?_⟩
      cases ops with
      | nil => exact absurd hbalanced id
      | cons op rest =>
          cases op with
          | Unlock => exact ⟨rest, rfl, hbalanced⟩
          | RLock => exact absurd hbalanced id
          | RUnlock => exact absurd hbalanced id
          | Lock => exact absurd hbalanced id

theorem Consistent.moves {s next : ι → Thread} (hs : Consistent s) {k : ι}
    (hmoves : Moves s k next) : Consistent next := by
  have hk := hs.wellFormed k
  cases hmoves with
  | acquire hthread hfree =>
      rw [hthread] at hk
      refine hs.update_reader (.running hk.balanced.acquire)
        (not_writer_of_running rfl) (not_writer_of_running (by rw [hthread]))
        (by simp) (fun hbusy => absurd hfree hbusy)
  | block hthread hbusy =>
      rw [hthread] at hk
      refine hs.update_reader (.blocked hk.balanced.acquire)
        (by simp [Thread.IsWriter])
        (not_writer_of_running (by rw [hthread])) (fun _ => hbusy) ?_
      intro _ hheld
      rwa [hthread] at hheld
  | release hthread =>
      rw [hthread] at hk
      obtain ⟨n, rfl, hbalanced⟩ := hk.balanced.release
      refine hs.update_reader (.running hbalanced)
        (not_writer_of_running rfl) (not_writer_of_running (by rw [hthread]))
        (by simp) ?_
      intro _ hheld
      rw [hthread] at hheld
      cases hheld
  | announce hthread hfree =>
      rw [hthread] at hk
      obtain ⟨rfl, rest, rfl, hbalanced⟩ := hk.balanced.lock
      exact hs.announce hfree (.announced hbalanced) rfl
  | enter hthread hnone =>
      rw [hthread] at hk
      cases hk with
      | announced hbalanced =>
          exact hs.enter (by rw [hthread]) hnone (.writing hbalanced) rfl rfl
  | leave hthread =>
      rw [hthread] at hk
      cases hk with
      | writing hbalanced =>
          exact hs.leave (by rw [hthread]) (.running hbalanced) rfl

/-! ## Undisturbed readers -/

/-- While a writer is announced, no thread takes the lock for reading twice. -/
def Calm (s : ι → Thread) : Prop :=
  ∀ i, (s i).status = .announced → ∀ j, ¬ (s j).Reenters

theorem Calm.moves {s next : ι → Thread} (hs : Consistent s)
    (hcalm : Calm s) {k : ι} (hguard : Undisturbed s k)
    (hmoves : Moves s k next) : Calm next := by
  intro i hi j
  cases hmoves with
  | acquire hthread hfree =>
      obtain ⟨-, hwriter⟩ :=
        isWriter_update (not_writer_of_running rfl) (Or.inl hi)
      exact absurd hwriter (hfree i)
  | @block ops held hthread hbusy =>
      obtain ⟨-, hwas⟩ := status_update hi (by simp)
      by_cases hjk : j = k
      · subst hjk
        have hold := hcalm i hwas j
        rw [hthread] at hold
        rwa [Function.update_self]
      · rw [Function.update_of_ne hjk]
        exact hcalm i hwas j
  | @release ops held hthread =>
      obtain ⟨-, hwas⟩ := status_update hi (by simp)
      by_cases hjk : j = k
      · subst hjk
        have hold := hcalm i hwas j
        have hk := hs.wellFormed j
        rw [hthread] at hold hk
        obtain ⟨n, rfl, -⟩ := hk.balanced.release
        rw [Function.update_self]
        exact hold
      · rw [Function.update_of_ne hjk]
        exact hcalm i hwas j
  | @announce ops held hthread hfree =>
      have hnone := hguard (by rw [hthread]) (by rw [hthread]; rfl) j
      by_cases hjk : j = k
      · subst hjk
        rw [hthread] at hnone
        rwa [Function.update_self]
      · rwa [Function.update_of_ne hjk]
  | enter hthread hnone =>
      obtain ⟨hik, hwas⟩ := status_update hi (by simp)
      exact absurd (hs.single i k (Or.inl hwas)
        (Or.inl (by rw [hthread]))) hik
  | leave hthread =>
      obtain ⟨hik, hwriter⟩ :=
        isWriter_update (not_writer_of_running rfl) (Or.inl hi)
      rw [(hs.wellFormed i).wake_isWriter] at hwriter
      exact absurd (hs.single i k hwriter (Or.inr (by rw [hthread]))) hik

/-! ## Disturbed readers -/

/-- A writer is announced, and a reader that it waits for is going to wait
for it. -/
def Doomed (s : ι → Thread) : Prop :=
  (∃ w, (s w).status = .announced) ∧ ∃ r, (s r).Reenters

theorem Doomed.moves {s next : ι → Thread} (hs : Consistent s)
    (hdoomed : Doomed s) {k : ι} (hmoves : Moves s k next) : Doomed next := by
  obtain ⟨⟨w, hw⟩, r, hr⟩ := hdoomed
  have hother {t : Thread} (hk : (s k).status ≠ .announced) :
      (Function.update s k t w).status = .announced := by
    rw [Function.update_of_ne, hw]
    rintro rfl
    exact hk hw
  cases hmoves with
  | acquire _ hfree => exact absurd (Or.inl hw) (hfree w)
  | announce _ hfree => exact absurd (Or.inl hw) (hfree w)
  | @block ops held hthread _ =>
      refine ⟨⟨w, hother (by simp [hthread])⟩, r, ?_⟩
      by_cases hrk : r = k
      · subst hrk
        rw [hthread] at hr
        rwa [Function.update_self]
      · rwa [Function.update_of_ne hrk]
  | @release ops held hthread =>
      refine ⟨⟨w, hother (by simp [hthread])⟩, r, ?_⟩
      by_cases hrk : r = k
      · subst hrk
        have hk := hs.wellFormed r
        rw [hthread] at hr hk
        obtain ⟨n, rfl, -⟩ := hk.balanced.release
        rw [Function.update_self]
        exact hr
      · rwa [Function.update_of_ne hrk]
  | enter _ hnone =>
      rw [Thread.Reenters, hnone r] at hr
      cases hr
  | leave hthread =>
      have hwk := hs.single w k (Or.inl hw) (Or.inr (by rw [hthread]))
      rw [hwk, hthread] at hw
      cases hw

def weight (t : Thread) : ℕ :=
  2 * t.ops.length + if t.status = .running then 1 else 0

theorem weight_wake (t : Thread) : weight t.wake ≤ weight t := by
  rcases t with ⟨_ | ⟨op, ops⟩, held, status⟩
  · cases status <;> exact le_rfl
  · cases status with
    | running => exact le_rfl
    | announced => exact le_rfl
    | writing => exact le_rfl
    | blocked =>
        cases op with
        | RLock =>
            simp [Thread.wake, weight]
        | RUnlock => exact le_rfl
        | Lock => exact le_rfl
        | Unlock => exact le_rfl

/-- A step lowers the weight of the thread that takes it, and of no other
thread raises it. -/
theorem weight_moves {s next : ι → Thread} {k : ι}
    (hmoves : Moves s k next) :
    (∀ i, weight (next i) ≤ weight (s i)) ∧
      weight (next k) < weight (s k) := by
  have hupdate {t : Thread} (hless : weight t < weight (s k)) :
      (∀ i, weight (Function.update s k t i) ≤ weight (s i)) ∧
        weight (Function.update s k t k) < weight (s k) := by
    refine ⟨?_, by rwa [Function.update_self]⟩
    intro i
    by_cases hik : i = k
    · subst hik
      rw [Function.update_self]
      exact hless.le
    · rw [Function.update_of_ne hik]
  cases hmoves with
  | acquire hthread _ => exact hupdate (by simp [hthread, weight])
  | block hthread _ => exact hupdate (by simp [hthread, weight])
  | release hthread => exact hupdate (by simp [hthread, weight])
  | announce hthread _ => exact hupdate (by simp [hthread, weight])
  | enter hthread _ => exact hupdate (by simp [hthread, weight])
  | @leave ops held hthread =>
      have hless : weight ⟨ops, held, .running⟩ < weight (s k) := by
        simp [hthread, weight]
        omega
      refine ⟨?_, by rwa [Function.update_self]⟩
      intro i
      by_cases hik : i = k
      · subst hik
        rw [Function.update_self]
        exact hless.le
      · rw [Function.update_of_ne hik]
        exact weight_wake (s i)

/-! ## Progress -/

variable [Fintype ι]

/-- A thread that holds the lock for reading, and does not take it again
before it has released it, can go on. -/
theorem step_of_reader {s : ι → Thread} (hs : Consistent s) {k : ι}
    (hheld : (s k).held ≠ 0) (honce : ¬ (s k).Reenters) :
    ∃ next, step s k = some next := by
  rcases hk : s k with ⟨ops, held, status⟩
  rw [hk] at hheld honce
  have hwf := hs.wellFormed k
  rw [hk] at hwf
  cases hwf with
  | announced hbalanced => exact absurd rfl hheld
  | writing hbalanced => exact absurd rfl hheld
  | blocked hbalanced =>
      obtain ⟨n, rfl⟩ := Nat.exists_eq_succ_of_ne_zero hheld
      exact absurd rfl honce
  | running hbalanced =>
      obtain ⟨n, rfl⟩ := Nat.exists_eq_succ_of_ne_zero hheld
      cases ops with
      | nil => exact absurd hbalanced id
      | cons op ops =>
          cases op with
          | RLock => exact absurd rfl honce
          | RUnlock => exact ⟨_, by simp only [step, hk]; rfl⟩
          | Lock => exact absurd hbalanced id
          | Unlock => exact absurd hbalanced id

/-- A running thread that has not finished can go on while there is no
writer. -/
theorem step_of_free {s : ι → Thread} (hs : Consistent s)
    (hfree : WriterFree s) {k : ι} (hops : (s k).ops ≠ []) :
    ∃ next, step s k = some next := by
  rcases hk : s k with ⟨ops, held, status⟩
  have hwf := hs.wellFormed k
  have hnot := hfree k
  have hblocked := hs.blocked k
  rw [hk] at hwf hops hnot hblocked
  cases hwf with
  | announced hbalanced => exact absurd (Or.inl rfl) hnot
  | writing hbalanced => exact absurd (Or.inr rfl) hnot
  | blocked hbalanced => exact absurd hfree (hblocked rfl)
  | running hbalanced =>
      cases ops with
      | nil => exact absurd rfl hops
      | cons op ops =>
          cases op with
          | RLock => exact ⟨_, by simp only [step, hk, hfree, if_true]; rfl⟩
          | RUnlock => exact ⟨_, by simp only [step, hk]; rfl⟩
          | Lock => exact ⟨_, by simp only [step, hk, hfree, if_true]; rfl⟩
          | Unlock =>
              cases held with
              | zero => exact absurd hbalanced id
              | succ n => exact absurd hbalanced id

/-- In a calm state some thread that has not finished can take a step. -/
theorem Calm.not_deadlock {s : ι → Thread} (hs : Consistent s)
    (hcalm : Calm s) : ¬ Deadlock s := by
  rintro ⟨⟨i, hops⟩, hstuck⟩
  have hnext (k : ι) (hk : ∃ next, step s k = some next) : False := by
    obtain ⟨next, hnext⟩ := hk
    rw [hstuck k] at hnext
    cases hnext
  by_cases hfree : WriterFree s
  · exact hnext i (step_of_free hs hfree hops)
  · simp only [WriterFree, not_forall, not_not] at hfree
    obtain ⟨w, hannounced | hwriting⟩ := hfree
    · by_cases hnone : NoReaders s
      · rcases hw : s w with ⟨ops, held, status⟩
        have hwf := hs.wellFormed w
        rw [hw] at hwf hannounced
        cases hwf with
        | announced hbalanced =>
            exact hnext w ⟨_, by simp only [step, hw, hnone, if_true]; rfl⟩
        | running _ => cases hannounced
        | blocked _ => cases hannounced
        | writing _ => cases hannounced
      · simp only [NoReaders, not_forall] at hnone
        obtain ⟨r, hheld⟩ := hnone
        exact hnext r (step_of_reader hs hheld (hcalm w hannounced r))
    · rcases hw : s w with ⟨ops, held, status⟩
      have hwf := hs.wellFormed w
      rw [hw] at hwf hwriting
      cases hwf with
      | writing hbalanced =>
          exact hnext w ⟨_, by simp only [step, hw]; rfl⟩
      | running _ => cases hwriting
      | blocked _ => cases hwriting
      | announced _ => cases hwriting

/-- From threads that have not begun, a run in which no writer disturbs a
reader does not lead to a deadlock. -/
theorem not_deadlock_of_undisturbed {start s : ι → Thread}
    (hstart : Consistent start) (hcalm : Calm start) {events : List ι}
    (hrun : GuardedRun step Undisturbed start events s) :
    Consistent s ∧ ¬ Deadlock s := by
  have hinv : Consistent s ∧ Calm s := by
    apply hrun.invariant
    · rintro s k next ⟨hs, hcalm⟩ hguard hstep
      have hmoves := moves_of_step hstep
      exact ⟨hs.moves hmoves, hcalm.moves hs hguard hmoves⟩
    · exact ⟨hstart, hcalm⟩
  exact ⟨hinv.1, hinv.2.not_deadlock hinv.1⟩

/-! ## Deadlocks -/

/-- Every state leads to one in which no thread can take a step. -/
theorem exists_stuck (s : ι → Thread) :
    ∃ later t, Run step s later t ∧ ∀ k, step t k = none := by
  induction hsize : ∑ i, weight (s i) using Nat.strong_induction_on
    generalizing s with
  | _ n ih =>
      by_cases hstuck : ∀ k, step s k = none
      · exact ⟨[], s, .nil, hstuck⟩
      · simp only [not_forall] at hstuck
        obtain ⟨k, hk⟩ := hstuck
        obtain ⟨next, hnext⟩ := Option.ne_none_iff_exists'.mp hk
        obtain ⟨hle, hlt⟩ := weight_moves (moves_of_step hnext)
        have hless : ∑ i, weight (next i) < n := by
          rw [← hsize]
          exact Finset.sum_lt_sum (fun i _ => hle i)
            ⟨k, Finset.mem_univ k, hlt⟩
        obtain ⟨later, t, hrun, hend⟩ := ih _ hless next rfl
        exact ⟨k :: later, t, hrun.cons trivial hnext, hend⟩

theorem Doomed.exists_deadlock {s : ι → Thread} (hs : Consistent s)
    (hdoomed : Doomed s) : ∃ later t, Run step s later t ∧ Deadlock t := by
  obtain ⟨later, t, hrun, hstuck⟩ := exists_stuck s
  have hinv : Consistent t ∧ Doomed t := by
    apply hrun.invariant
    · rintro s k next ⟨hs, hdoomed⟩ - hstep
      have hmoves := moves_of_step hstep
      exact ⟨hs.moves hmoves, hdoomed.moves hs hmoves⟩
    · exact ⟨hs, hdoomed⟩
  obtain ⟨ht, ⟨w, hannounced⟩, -⟩ := hinv
  refine ⟨later, t, hrun, ⟨w, ?_⟩, hstuck⟩
  rcases hw : t w with ⟨ops, held, status⟩
  have hwf := ht.wellFormed w
  rw [hw] at hwf hannounced
  cases hwf with
  | announced hbalanced => simp
  | running _ => cases hannounced
  | blocked _ => cases hannounced
  | writing _ => cases hannounced

/-- A writer that disturbs a reader leads to a deadlock. -/
theorem exists_deadlock_of_disturbed {s next : ι → Thread}
    (hs : Consistent s) {k : ι} (hstep : step s k = some next)
    (hguard : ¬ Undisturbed s k) :
    ∃ later t, Run step next later t ∧ Deadlock t := by
  have hmoves := moves_of_step hstep
  simp only [Undisturbed, Classical.not_imp, not_forall, not_not] at hguard
  obtain ⟨hrunning, hlock, r, hr⟩ := hguard
  apply Doomed.exists_deadlock (hs.moves hmoves)
  cases hmoves with
  | @announce ops held hthread _ =>
      refine ⟨⟨k, by rw [Function.update_self]⟩, r, ?_⟩
      by_cases hrk : r = k
      · subst hrk
        rw [hthread] at hr
        rwa [Function.update_self]
      · rwa [Function.update_of_ne hrk]
  | acquire hthread _ => rw [hthread] at hlock; cases hlock
  | block hthread _ => rw [hthread] at hlock; cases hlock
  | release hthread => rw [hthread] at hlock; cases hlock
  | enter hthread _ => rw [hthread] at hrunning; cases hrunning
  | leave hthread => rw [hthread] at hrunning; cases hrunning

/-! ## Threads that call again -/

section Calls

/-- The lock is taken for reading once. -/
def readOnce : List Op := [.RLock, .RUnlock]

/-- The lock is taken for writing once. -/
def writeOnce : List Op := [.Lock, .Unlock]

theorem suffix_pair_iff {ops : List Op} {a b : Op} :
    ops <:+ [a, b] ↔ ops = [a, b] ∨ ops = [b] ∨ ops = [] := by
  simp only [List.suffix_cons_iff, List.suffix_nil]

theorem WellFormed.finished {t : Thread} (ht : WellFormed t)
    (hdone : t.ops = []) : t = ⟨[], 0, .running⟩ := by
  cases ht with
  | @running ops held hbalanced =>
      obtain rfl : ops = [] := hdone
      cases held with
      | zero => rfl
      | succ n => exact absurd hbalanced id
  | blocked _ => cases hdone
  | announced _ => cases hdone
  | writing _ => cases hdone

/-- Where a thread is that takes the lock for reading once. -/
theorem WellFormed.reader_cases {t : Thread} (ht : WellFormed t)
    (hops : t.ops <:+ readOnce) :
    t = ⟨[], 0, .running⟩ ∨ t = ⟨readOnce, 0, .running⟩ ∨
      t = ⟨readOnce, 0, .blocked⟩ ∨ t = ⟨[.RUnlock], 1, .running⟩ := by
  rcases suffix_pair_iff.mp hops with hops | hops | hops
  · cases ht with
    | @running ops held hbalanced =>
        obtain rfl : ops = readOnce := hops
        rcases held with _ | _ | held
        · exact Or.inr (Or.inl rfl)
        · exact absurd hbalanced id
        · exact absurd hbalanced id
    | @blocked ops held hbalanced =>
        cases hops
        cases held with
        | zero => exact Or.inr (Or.inr (Or.inl rfl))
        | succ held => exact absurd hbalanced id
    | announced _ => cases hops
    | writing _ => cases hops
  · cases ht with
    | @running ops held hbalanced =>
        obtain rfl : ops = [.RUnlock] := hops
        rcases held with _ | _ | held
        · exact absurd hbalanced id
        · exact Or.inr (Or.inr (Or.inr rfl))
        · exact absurd hbalanced id
    | blocked _ => cases hops
    | announced _ => cases hops
    | writing _ => cases hops
  · exact Or.inl (ht.finished hops)

/-- Where a thread is that takes the lock for writing once. -/
theorem WellFormed.writer_cases {t : Thread} (ht : WellFormed t)
    (hops : t.ops <:+ writeOnce) :
    t = ⟨[], 0, .running⟩ ∨ t = ⟨writeOnce, 0, .running⟩ ∨
      t = ⟨writeOnce, 0, .announced⟩ ∨ t = ⟨[.Unlock], 0, .writing⟩ := by
  rcases suffix_pair_iff.mp hops with hops | hops | hops
  · cases ht with
    | @running ops held hbalanced =>
        obtain rfl : ops = writeOnce := hops
        cases held with
        | zero => exact Or.inr (Or.inl rfl)
        | succ held => exact absurd hbalanced id
    | blocked _ => cases hops
    | announced _ =>
        cases hops
        exact Or.inr (Or.inr (Or.inl rfl))
    | writing _ => cases hops
  · cases ht with
    | @running ops held hbalanced =>
        obtain rfl : ops = [.Unlock] := hops
        cases held with
        | zero => exact absurd hbalanced id
        | succ held => exact absurd hbalanced id
    | blocked _ => cases hops
    | announced _ => cases hops
    | writing _ =>
        cases hops
        exact Or.inr (Or.inr (Or.inr rfl))
  · exact Or.inl (ht.finished hops)

omit [Fintype ι] in
/-- A thread that has finished may begin again. -/
theorem Consistent.call {s : ι → Thread} (hs : Consistent s) {k : ι}
    (hdone : (s k).ops = []) {ops : List Op} (hbalanced : Balanced 0 ops) :
    Consistent (Function.update s k ⟨ops, 0, .running⟩) := by
  have hk := (hs.wellFormed k).finished hdone
  exact hs.update_reader (.running hbalanced) (not_writer_of_running rfl)
    (not_writer_of_running (by rw [hk])) (by simp) (fun _ _ => rfl)

theorem wake_of_not_blocked {t : Thread} (ht : t.status ≠ .blocked) :
    t.wake = t := by
  unfold Thread.wake
  split
  next hblocked _ => exact absurd hblocked ht
  next => rfl

theorem wake_ops_suffix (t : Thread) : t.wake.ops <:+ t.ops := by
  unfold Thread.wake
  split
  next hops =>
    rw [hops]
    exact List.suffix_cons _ _
  next => exact List.suffix_rfl

omit [Fintype ι] in
/-- The others are as they were, or were kept out and hold the lock. -/
theorem Moves.others {s next : ι → Thread} {k i : ι}
    (hmoves : Moves s k next) (hik : i ≠ k) :
    next i = s i ∨ next i = (s i).wake := by
  cases hmoves with
  | leave _ =>
      rw [Function.update_of_ne hik]
      exact Or.inr rfl
  | _ =>
      rw [Function.update_of_ne hik]
      exact Or.inl rfl

omit [Fintype ι] in
theorem Moves.ops_suffix {s next : ι → Thread} {k : ι}
    (hmoves : Moves s k next) (i : ι) : (next i).ops <:+ (s i).ops := by
  by_cases hik : i = k
  · subst hik
    cases hmoves with
    | block hthread _ => rw [Function.update_self, hthread]
    | announce hthread _ => rw [Function.update_self, hthread]
    | acquire hthread _ =>
        rw [Function.update_self, hthread]
        exact List.suffix_cons _ _
    | release hthread =>
        rw [Function.update_self, hthread]
        exact List.suffix_cons _ _
    | enter hthread _ =>
        rw [Function.update_self, hthread]
        exact List.suffix_cons _ _
    | leave hthread =>
        rw [Function.update_self, hthread]
        exact List.suffix_cons _ _
  · rcases hmoves.others hik with heq | heq
    · rw [heq]
    · rw [heq]
      exact wake_ops_suffix (s i)

/-- Every step lowers the weight of the threads together. -/
theorem sum_weight_moves {s next : ι → Thread} {k : ι}
    (hmoves : Moves s k next) :
    ∑ i, weight (next i) < ∑ i, weight (s i) := by
  obtain ⟨hle, hlt⟩ := weight_moves hmoves
  exact Finset.sum_lt_sum (fun i _ => hle i) ⟨k, Finset.mem_univ k, hlt⟩

/-- A thread that has not been kept out yet can call `RLock`. -/
theorem step_of_rlock {s : ι → Thread} {k : ι} {ops : List Op} {held : ℕ}
    (hk : s k = ⟨.RLock :: ops, held, .running⟩) :
    ∃ next, step s k = some next := by
  by_cases hfree : WriterFree s
  · exact ⟨_, by simp only [step, hk, hfree, if_true]; rfl⟩
  · exact ⟨_, by simp only [step, hk, hfree, if_false]; rfl⟩

/-- A writer goes on unless it waits for a reader. -/
theorem step_of_writer {s : ι → Thread} (hs : Consistent s) {k : ι}
    (hk : (s k).IsWriter) :
    (∃ next, step s k = some next) ∨
      ((s k).status = .announced ∧ ∃ r, (s r).held ≠ 0) := by
  rcases hthread : s k with ⟨ops, held, status⟩
  have hwf := hs.wellFormed k
  rw [hthread] at hwf hk
  cases hwf with
  | running _ => exact absurd hk (not_writer_of_running rfl)
  | blocked _ => simp [Thread.IsWriter] at hk
  | writing _ => exact Or.inl ⟨_, by simp only [step, hthread]; rfl⟩
  | announced _ =>
      by_cases hnone : NoReaders s
      · exact Or.inl ⟨_, by simp only [step, hthread, hnone, if_true]; rfl⟩
      · simp only [NoReaders, not_forall] at hnone
        exact Or.inr ⟨rfl, hnone⟩

end Calls

end RWMutex
