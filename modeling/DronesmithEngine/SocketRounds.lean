import DronesmithEngine.StatusSockets
import Mathlib.Tactic

/-!
# Whether the sockets go on

The rounds of `periodicFmuStatus` over every interleaving.  Left to itself the
whole comes to rest, or stalls: the round waits for a listener to come, every
listener for a handler that has announced itself, and the handler for the
round to end.  A stall takes a listener that was not done with a round before.
-/

namespace DronesmithEngine.StatusServer.Sockets

open LabelledRuns RWMutex

variable {ι : Type*} [Fintype ι] [DecidableEq ι]
variable {s next : Sockets ι} {event : SocketEvent ι} {k : ι}

/-! ## Where it comes to rest -/

/-- Nothing happens until something comes from outside. -/
def Stuck (s : Sockets ι) : Prop :=
  ∀ event, event.Internal → s.step event = none

structure Quiet (s : Sockets ι) : Prop where
  threads : ∀ p, (s.threads p).ops = []
  connections : ∀ k, (s.connections k).isSettled = true

structure Stalled (s : Sockets ι) : Prop where
  sending : s.Sending
  announced : ∃ k, (s.threads (.handler k)).status = .announced
  blocked : ∀ k, (s.connections k).listens = true →
    (s.threads (.listener k)).status = .blocked
  started : ∀ k, s.connections k ≠ .counted

instance (s : Sockets ι) : Decidable s.Stalled :=
  decidable_of_iff
    (s.Sending ∧ (∃ k, (s.threads (.handler k)).status = .announced) ∧
      (∀ k, (s.connections k).listens = true →
        (s.threads (.listener k)).status = .blocked) ∧
      ∀ k, s.connections k ≠ .counted)
    ⟨fun h => ⟨h.1, h.2.1, h.2.2.1, h.2.2.2⟩,
      fun h => ⟨h.sending, h.announced, h.blocked, h.started⟩⟩

theorem Stuck.lock (hstuck : s.Stuck) {p : Party ι}
    (hmay : ¬ (p = .periodicFmuStatus ∧ s.Sending)) :
    RWMutex.step s.threads p = none := by
  have hnone := hstuck (.lock p) trivial
  simpa only [step, if_neg hmay, Option.map_eq_none_iff] using hnone

theorem Stuck.not_selects (hstuck : s.Stuck) (hsending : s.Sending) (k : ι) :
    ¬ s.Selects k := by
  intro hselects
  have hnone := hstuck (.send k {}) trivial
  simp [step, hsending, hselects] at hnone

theorem Stuck.started (hstuck : s.Stuck) (k : ι) :
    s.connections k ≠ .counted := by
  intro hcounted
  have hnone := hstuck (.listen k) trivial
  simp [step, hcounted] at hnone

theorem Stuck.not_leaving (hstuck : s.Stuck)
    (hidle : (s.threads (.listener k)).ops = []) :
    s.connections k ≠ .leaving := by
  intro hleaving
  have hnone := hstuck (.quit k) trivial
  simp [step, hleaving, Selects, hidle, Connection.listens] at hnone

omit [DecidableEq ι] in
/-- No goroutine takes the lock for reading while it has it. -/
theorem Sound.calm (hs : s.Sound) : Calm s.threads := by
  rintro - - p
  have hreader (h : (s.threads p).ops <:+ readOnce) :
      ¬ (s.threads p).Reenters := by
    rcases (hs.consistent.wellFormed p).reader_cases h with
      heq | heq | heq | heq
    all_goals simp [heq, Thread.Reenters, reenters, readOnce]
  cases p with
  | periodicFmuStatus => exact hreader hs.periodic
  | listener k => exact hreader (hs.listener k)
  | handler k =>
      rcases (hs.consistent.wellFormed _).writer_cases (hs.handler k) with
        heq | heq | heq | heq
      all_goals simp [heq, Thread.Reenters, reenters, writeOnce]

omit [DecidableEq ι] in
theorem Sound.isWriter (hs : s.Sound) {p : Party ι}
    (hp : (s.threads p).IsWriter) : ∃ k, p = .handler k := by
  have hreader (h : (s.threads p).ops <:+ readOnce) : False := by
    rcases (hs.consistent.wellFormed p).reader_cases h with
      heq | heq | heq | heq
    all_goals simp [heq, Thread.IsWriter] at hp
  cases p with
  | periodicFmuStatus => exact (hreader hs.periodic).elim
  | listener k => exact (hreader (hs.listener k)).elim
  | handler k => exact ⟨k, rfl⟩

theorem Stuck.quiet (hs : s.Sound) (hstuck : s.Stuck)
    (hidle : ¬ s.Sending) : s.Quiet := by
  have hnone (p : Party ι) : RWMutex.step s.threads p = none :=
    hstuck.lock fun h => hidle h.2
  have hops (p : Party ι) : (s.threads p).ops = [] := by
    by_contra hne
    exact hs.calm.not_deadlock hs.consistent ⟨⟨p, hne⟩, hnone⟩
  refine ⟨hops, fun k => ?_⟩
  have hlocks : (s.connections k).locks ≠ true :=
    fun h => (hs.locks k).mpr h (hops _)
  have hcounted := hstuck.started k
  have hleaving := hstuck.not_leaving (hops (.listener k))
  cases hconnection : s.connections k with
  | connecting => simp [hconnection, Connection.locks] at hlocks
  | disconnecting => simp [hconnection, Connection.locks] at hlocks
  | counted => exact absurd hconnection hcounted
  | leaving => exact absurd hconnection hleaving
  | _ => rfl

theorem Stuck.blocked (hs : s.Sound) (hstuck : s.Stuck)
    (hsending : s.Sending) (hlistens : (s.connections k).listens = true) :
    s.threads (.listener k) = ⟨readOnce, 0, .blocked⟩ := by
  have hnone : RWMutex.step s.threads (.listener k) = none :=
    hstuck.lock (by simp)
  rcases (hs.consistent.wellFormed _).reader_cases (hs.listener k) with
    heq | heq | heq | heq
  · exact absurd ⟨hlistens, by rw [heq]⟩ (hstuck.not_selects hsending k)
  · obtain ⟨threads, hstep⟩ := step_of_rlock heq
    rw [hnone] at hstep
    cases hstep
  · exact heq
  · obtain ⟨threads, hstep⟩ := step_of_reader hs.consistent
      (k := .listener k) (by simp [heq])
      (by simp [heq, Thread.Reenters, reenters])
    rw [hnone] at hstep
    cases hstep

omit [DecidableEq ι] in
/-- A socket that is counted has its listener, or is about to get it. -/
theorem listens_of_counted (hcounted : k ∈ s.countedSockets)
    (hstarted : s.connections k ≠ .counted) :
    (s.connections k).listens = true := by
  rw [mem_countedSockets] at hcounted
  cases hconnection : s.connections k with
  | connected => rfl
  | disconnecting => rfl
  | counted => exact absurd hconnection hstarted
  | _ => simp [hconnection, Connection.isCounted] at hcounted

theorem Stuck.stalled (hs : s.Sound) (hstuck : s.Stuck)
    (hsending : s.Sending) : s.Stalled := by
  have hblocked (k : ι) (hlistens : (s.connections k).listens = true) :
      (s.threads (.listener k)).status = .blocked := by
    rw [hstuck.blocked hs hsending hlistens]
  refine ⟨hsending, ?_, hblocked, hstuck.started⟩
  have hcard : 0 < s.countedSockets.card := by
    have hless := hsending.2
    rw [hs.socketCnt] at hless
    omega
  obtain ⟨k, hk⟩ := Finset.card_pos.mp hcard
  have hlistens := listens_of_counted hk (hstuck.started k)
  have hbusy := hs.consistent.blocked _ (hblocked k hlistens)
  simp only [WriterFree, not_forall, not_not] at hbusy
  obtain ⟨p, hp⟩ := hbusy
  obtain ⟨j, rfl⟩ := hs.isWriter hp
  rcases step_of_writer hs.consistent hp with
    ⟨threads, hstep⟩ | ⟨hannounced, -⟩
  · rw [hstuck.lock (by simp)] at hstep
    cases hstep
  · exact ⟨j, hannounced⟩

/-- There are two ways to stop. -/
theorem stuck_cases (hs : s.Sound) (hstuck : s.Stuck) :
    s.Quiet ∨ s.Stalled := by
  by_cases hsending : s.Sending
  · exact Or.inr (hstuck.stalled hs hsending)
  · exact Or.inl (hstuck.quiet hs hsending)

/-! ## Done with the rounds before -/

/-- The listeners that have received the record and do not have the lock. -/
def waiting (s : Sockets ι) : Finset ι :=
  Finset.univ.filter fun k => (s.threads (.listener k)).ops = readOnce

/-- The ticker fires when every listener has taken the lock for what it
received. -/
def Drained (s : Sockets ι) : SocketEvent ι → Prop
  | .tick => s.waiting = ∅
  | _ => True

instance (s : Sockets ι) : ∀ event, Decidable (s.Drained event)
  | .tick => inferInstanceAs (Decidable (s.waiting = ∅))
  | .send _ _ => .isTrue trivial
  | .lock _ => .isTrue trivial
  | .connection _ => .isTrue trivial
  | .listen _ => .isTrue trivial
  | .disconnection _ => .isTrue trivial
  | .quit _ => .isTrue trivial

/-- A round that goes on has sent to every listener that waits. -/
def Paced (s : Sockets ι) : Prop :=
  (s.threads .periodicFmuStatus).ops ≠ [] → s.waiting.card ≤ s.i

omit [DecidableEq ι] in
@[simp] theorem mem_waiting :
    k ∈ s.waiting ↔ (s.threads (.listener k)).ops = readOnce := by
  simp [waiting]

theorem waiting_lock (hs : s.Sound) {p : Party ι}
    {threads : Party ι → Thread} (hmoves : Moves s.threads p threads) :
    (s.locked p threads).waiting ⊆ s.waiting := by
  intro k hk
  rw [mem_waiting] at hk ⊢
  have hsuffix : readOnce <:+ (s.threads (.listener k)).ops :=
    hk ▸ hmoves.ops_suffix (.listener k)
  exact (hs.listener k).eq_of_length_le hsuffix.length_le

theorem Paced.acts (hs : s.Sound) (hpaced : s.Paced)
    (hguard : s.Drained event) (hacts : s.Acts event next) :
    next.Paced := by
  cases hacts with
  | tick hidle =>
      intro _
      have hsame : s.beginRound.waiting = s.waiting := by
        ext k
        simp [beginRound, call]
      rw [hsame, (hguard : s.waiting = ∅)]
      exact le_rfl
  | @send k data hsending hselects =>
      intro _
      have hbefore := hpaced (by simp [hsending.1])
      have hinsert : (s.receive k data).waiting = insert k s.waiting := by
        ext j
        by_cases hjk : j = k
        · simp [receive, call, hjk]
        · simp [receive, call, hjk]
      rw [hinsert]
      exact (Finset.card_insert_le _ _).trans (Nat.succ_le_succ hbefore)
  | @lock p threads hmay hmoves =>
      intro hops
      have hbefore := hpaced fun hnil =>
        hops (List.suffix_nil.mp (hnil ▸ hmoves.ops_suffix _))
      have hfewer := Finset.card_le_card (waiting_lock hs hmoves)
      simpa [locked] using hfewer.trans hbefore
  | connection _ => simpa [Paced, waiting, call, setConnection] using hpaced
  | disconnection _ =>
      simpa [Paced, waiting, call, setConnection] using hpaced
  | listen _ => exact hpaced
  | quit _ _ => exact hpaced

omit [DecidableEq ι] in
/-- What every listener waits for was sent in this round, and then the round
has been sent. -/
theorem Paced.not_stalled (hs : s.Sound) (hpaced : s.Paced) :
    ¬ s.Stalled := by
  intro hstalled
  have hsubset : s.countedSockets ⊆ s.waiting := by
    intro k hk
    have hlistens := listens_of_counted hk (hstalled.started k)
    have hblocked := hstalled.blocked k hlistens
    rw [mem_waiting]
    rcases (hs.consistent.wellFormed _).reader_cases (hs.listener k) with
      heq | heq | heq | heq
    · simp [heq] at hblocked
    · simp [heq] at hblocked
    · rw [heq]
    · simp [heq] at hblocked
  have hcard := Finset.card_le_card hsubset
  have hsent := hpaced (by simp [hstalled.sending.1])
  have hless := hstalled.sending.2
  rw [hs.socketCnt] at hless
  omega

/-! ## Work -/

/-- The sockets that are counted, or whose handler is about to. -/
def expected (s : Sockets ι) : Finset ι :=
  Finset.univ.filter fun k =>
    (s.connections k).isCounted = true ∨ s.connections k = .connecting

/-- How often the round can still send. -/
def sends (s : Sockets ι) : ℕ :=
  if (s.threads .periodicFmuStatus).ops = [] then 0
  else s.expected.card - s.i

def duty (connection : Connection) : ℕ :=
  if connection.isSettled then 0 else 1

def work (s : Sockets ι) : ℕ :=
  ∑ p, weight (s.threads p) + ∑ k, duty (s.connections k) + 6 * s.sends

omit [DecidableEq ι] in
@[simp] theorem mem_expected :
    k ∈ s.expected ↔
      (s.connections k).isCounted = true ∨ s.connections k = .connecting := by
  simp [expected]

omit [DecidableEq ι] in
theorem countedSockets_subset : s.countedSockets ⊆ s.expected := by
  intro k hk
  rw [mem_countedSockets] at hk
  exact mem_expected.mpr (Or.inl hk)

theorem sum_update_add {κ α : Type*} [Fintype κ] [DecidableEq κ]
    (g : α → ℕ) (f : κ → α) (k : κ) (a : α) :
    ∑ j, g (Function.update f k a j) + g (f k) = ∑ j, g (f j) + g a := by
  have hrest : ∑ j ∈ Finset.univ.erase k, g (Function.update f k a j) =
      ∑ j ∈ Finset.univ.erase k, g (f j) := by
    refine Finset.sum_congr rfl fun j hj => ?_
    rw [Function.update_of_ne (Finset.ne_of_mem_erase hj)]
  have hafter := Finset.sum_erase_add Finset.univ
    (fun j => g (Function.update f k a j)) (Finset.mem_univ k)
  have hbefore := Finset.sum_erase_add Finset.univ
    (fun j => g (f j)) (Finset.mem_univ k)
  rw [Function.update_self, hrest] at hafter
  omega

/-- A handler that has counted has as much to do, and no socket is expected
that was not. -/
theorem count_bounds (s : Sockets ι) (k : ι) :
    (∀ j, duty ((s.count k).connections j) = duty (s.connections j)) ∧
      (s.count k).expected ⊆ s.expected := by
  cases hconnection : s.connections k with
  | connecting =>
      simp only [count, hconnection]
      constructor
      · intro j
        by_cases hjk : j = k
        · simp [setConnection, hjk, hconnection, duty, Connection.isSettled]
        · simp [setConnection, hjk]
      · intro j hj
        by_cases hjk : j = k
        · simp [hjk, hconnection]
        · simpa [setConnection, hjk] using hj
  | disconnecting =>
      simp only [count, hconnection]
      constructor
      · intro j
        by_cases hjk : j = k
        · simp [setConnection, hjk, hconnection, duty, Connection.isSettled]
        · simp [setConnection, hjk]
      · intro j hj
        by_cases hjk : j = k
        · simp [hjk, hconnection, Connection.isCounted]
        · simpa [setConnection, hjk] using hj
  | _ =>
      have hsame : s.count k = s := by simp only [count, hconnection]
      rw [hsame]
      exact ⟨fun _ => rfl, Finset.Subset.refl _⟩

theorem beforeUnlock_bounds (s : Sockets ι) (p : Party ι) :
    (∀ k, duty ((s.beforeUnlock p).connections k) =
      duty (s.connections k)) ∧
      (s.beforeUnlock p).expected ⊆ s.expected := by
  cases p with
  | periodicFmuStatus => exact ⟨fun _ => rfl, Finset.Subset.refl _⟩
  | listener k =>
      simp only [beforeUnlock]
      split <;> exact ⟨fun _ => rfl, Finset.Subset.refl _⟩
  | handler k =>
      simp only [beforeUnlock]
      split
      · exact count_bounds s k
      · exact ⟨fun _ => rfl, Finset.Subset.refl _⟩

theorem sends_locked {p : Party ι} {threads : Party ι → Thread}
    (hmoves : Moves s.threads p threads) :
    (s.locked p threads).sends ≤ s.sends := by
  have hexpected : (s.locked p threads).expected ⊆ s.expected :=
    (beforeUnlock_bounds s p).2
  have hcard := Finset.card_le_card hexpected
  have hi : (s.locked p threads).i = s.i := beforeUnlock_i s p
  have hsuffix := hmoves.ops_suffix .periodicFmuStatus
  by_cases hidle : (s.threads .periodicFmuStatus).ops = []
  · have hdone : (threads .periodicFmuStatus).ops = [] :=
      List.suffix_nil.mp (hidle ▸ hsuffix)
    have hnone : (s.locked p threads).sends = 0 := if_pos hdone
    omega
  · have hsends : s.sends = s.expected.card - s.i := if_neg hidle
    have hafter : (s.locked p threads).sends ≤
        (s.locked p threads).expected.card - (s.locked p threads).i := by
      unfold sends
      split
      · exact Nat.zero_le _
      · exact le_rfl
    omega

theorem work_locked {p : Party ι} {threads : Party ι → Thread}
    (hmoves : Moves s.threads p threads) :
    (s.locked p threads).work < s.work := by
  have hweight := sum_weight_moves hmoves
  have hsends := sends_locked hmoves
  have hduty : ∑ k, duty ((s.locked p threads).connections k) =
      ∑ k, duty (s.connections k) :=
    Finset.sum_congr rfl fun k _ => (beforeUnlock_bounds s p).1 k
  have hthreads : (s.locked p threads).threads = threads := rfl
  simp only [work, hduty, hthreads]
  omega

/-- A goroutine that finds its own way has less to do. -/
theorem work_setConnection {connection : Connection}
    (hduty : duty connection < duty (s.connections k))
    (hexpected : (connection.isCounted = true ∨ connection = .connecting) ↔
      (s.connections k).isCounted = true ∨ s.connections k = .connecting) :
    (s.setConnection k connection).work < s.work := by
  have hsum := sum_update_add duty s.connections k connection
  have hsame : (s.setConnection k connection).expected = s.expected := by
    ext j
    by_cases hjk : j = k
    · subst hjk
      simp [setConnection, hexpected]
    · simp [setConnection, hjk]
  have hsends : (s.setConnection k connection).sends = s.sends := by
    simp only [sends, hsame]
    rfl
  have hconnections : (s.setConnection k connection).connections =
      Function.update s.connections k connection := rfl
  have hthreads : (s.setConnection k connection).threads = s.threads := rfl
  simp only [work, hsends, hconnections, hthreads]
  omega

theorem work_receive (hs : s.Sound) (hsending : s.Sending)
    (hselects : s.Selects k) (data : Fmulink.Fmu) :
    (s.receive k data).work < s.work := by
  have hidle := (hs.consistent.wellFormed _).finished hselects.2
  have hsum := sum_update_add weight s.threads (.listener k)
    ⟨readOnce, 0, .running⟩
  have hthreads : (s.receive k data).threads =
      Function.update s.threads (.listener k) ⟨readOnce, 0, .running⟩ := rfl
  have hsent : (s.receive k data).sends + 1 ≤ s.sends := by
    have hcard := Finset.card_le_card (countedSockets_subset (s := s))
    have hless := hsending.2
    rw [hs.socketCnt] at hless
    have hexpected : (s.receive k data).expected = s.expected := rfl
    have hi : (s.receive k data).i = s.i + 1 := rfl
    have hround : (s.threads .periodicFmuStatus).ops ≠ [] := by
      simp [hsending.1]
    have hbefore : s.sends = s.expected.card - s.i := if_neg hround
    have hafter : (s.receive k data).sends = s.expected.card - (s.i + 1) := by
      simp [sends, hexpected, hi, hthreads, hround]
    omega
  have hold : weight (s.threads (.listener k)) = 1 := by rw [hidle]; rfl
  have hnew : weight ⟨readOnce, 0, .running⟩ = 5 := rfl
  have hconnections : (s.receive k data).connections = s.connections := rfl
  simp only [work, hthreads, hconnections]
  omega

/-- What happens inside is work that is done. -/
theorem work_acts (hs : s.Sound) (hinternal : event.Internal)
    (hacts : s.Acts event next) : next.work < s.work := by
  cases hacts with
  | tick _ => exact hinternal.elim
  | connection _ => exact hinternal.elim
  | disconnection _ => exact hinternal.elim
  | lock _ hmoves => exact work_locked hmoves
  | send hsending hselects => exact work_receive hs hsending hselects _
  | listen hcounted =>
      apply work_setConnection
      · rw [hcounted]
        decide
      · simp [hcounted, Connection.isCounted]
  | quit hleaving _ =>
      apply work_setConnection
      · rw [hleaving]
        decide
      · simp [hleaving, Connection.isCounted]

/-! ## Runs -/

omit [DecidableEq ι] in
theorem drained_of_internal (s : Sockets ι) (hinternal : event.Internal) :
    s.Drained event := by
  cases event with
  | tick => exact hinternal.elim
  | _ => trivial

theorem sound_of_run {events : List (SocketEvent ι)}
    (hrun : Run step initial events s) : s.Sound := by
  apply hrun.invariant
  · intro s event next hs _ hstep
    exact hs.acts (acts_of_step hstep)
  · exact initial_sound

theorem paced_of_run {events : List (SocketEvent ι)}
    (hrun : GuardedRun step Drained initial events s) :
    s.Sound ∧ s.Paced := by
  apply hrun.invariant
  · rintro s event next ⟨hs, hpaced⟩ hguard hstep
    have hacts := acts_of_step hstep
    exact ⟨hs.acts hacts, hpaced.acts hs hguard hacts⟩
  · exact ⟨initial_sound, fun h => absurd rfl h⟩

/-- In a run whose ticks find every listener done with the rounds before,
whatever the goroutines are about to do comes to an end, in a bounded number
of steps and in any order, and then all of it is done.  The calls that a round
and a listener make besides (`GetData`, `FmuReadLock` and `Emit`) are taken to
return. -/
theorem sockets_settle {events later : List (SocketEvent ι)}
    {t : Sockets ι} (hrun : GuardedRun step Drained initial events s)
    (hlater : GuardedRun step (fun _ event => event.Internal) s later t) :
    later.length ≤ s.work ∧ (t.Stuck → t.Quiet) := by
  obtain ⟨hs, hpaced⟩ := paced_of_run hrun
  have hwork : (t.Sound ∧ t.Paced) ∧ later.length + t.work ≤ s.work := by
    induction hlater with
    | nil => exact ⟨⟨hs, hpaced⟩, by simp⟩
    | snoc _ hinternal hstep ih =>
        obtain ⟨⟨hsound, hpaces⟩, hle⟩ := ih
        have hacts := acts_of_step hstep
        have hless := work_acts hsound hinternal hacts
        refine ⟨⟨hsound.acts hacts, ?_⟩, ?_⟩
        · exact hpaces.acts hsound (drained_of_internal _ hinternal) hacts
        · rw [List.length_append, List.length_singleton]
          omega
  obtain ⟨⟨ht, hpaces⟩, hle⟩ := hwork
  refine ⟨by omega, fun hstuck => ?_⟩
  rcases stuck_cases ht hstuck with hquiet | hstalled
  · exact hquiet
  · exact absurd hstalled (hpaces.not_stalled ht)

/-- A socket connects, and hears one round. -/
theorem sockets_settle_one :
    ∃ s t : Sockets Unit,
      GuardedRun step Drained initial
        [.connection (), .lock (.handler ()), .lock (.handler ()),
          .lock (.handler ()), .listen (), .tick] s ∧
      GuardedRun step (fun _ event => event.Internal) s
        [.lock .periodicFmuStatus, .send () {}, .lock (.listener ()),
          .lock .periodicFmuStatus, .lock (.listener ())] t ∧
      5 ≤ s.work ∧ (t.Stuck → t.Quiet) := by
  have hexec : (exec step Drained (initial : Sockets Unit)
      [.connection (), .lock (.handler ()), .lock (.handler ()),
        .lock (.handler ()), .listen (), .tick]).map
      (fun s => (exec step (fun _ event => event.Internal) s
        [.lock .periodicFmuStatus, .send () {}, .lock (.listener ()),
          .lock .periodicFmuStatus, .lock (.listener ())]).isSome) =
            some true := by
    decide +kernel
  obtain ⟨s, hrun, heq⟩ := GuardedRun.of_exec_map hexec
  obtain ⟨t, hlater⟩ := GuardedRun.of_exec_isSome heq
  exact ⟨s, t, hrun, hlater, sockets_settle hrun hlater⟩

/-! ## Stalls -/

omit [DecidableEq ι] in
theorem Stalled.not_selects (hs : s.Sound) (hstalled : s.Stalled) (k : ι) :
    ¬ s.Selects k := by
  rintro ⟨hlistens, hidle⟩
  have hblocked := hstalled.blocked k hlistens
  rw [(hs.consistent.wellFormed _).finished hidle] at hblocked
  cases hblocked

omit [DecidableEq ι] in
theorem Sound.holds (hs : s.Sound)
    (hround : (s.threads .periodicFmuStatus).ops = [.RUnlock]) :
    s.threads .periodicFmuStatus = ⟨[.RUnlock], 1, .running⟩ := by
  rcases (hs.consistent.wellFormed _).reader_cases hs.periodic with
    heq | heq | heq | heq
  · simp [heq] at hround
  · simp [heq, readOnce] at hround
  · simp [heq, readOnce] at hround
  · exact heq

/-- No goroutine gets on with the lock. -/
theorem Stalled.not_moves (hs : s.Sound) (hstalled : s.Stalled)
    {p : Party ι} (hmay : ¬ (p = .periodicFmuStatus ∧ s.Sending))
    (threads : Party ι → Thread) : ¬ Moves s.threads p threads := by
  intro hmoves
  obtain ⟨w, hw⟩ := hstalled.announced
  cases p with
  | periodicFmuStatus => exact hmay ⟨rfl, hstalled.sending⟩
  | listener k =>
      by_cases hops : (s.threads (.listener k)).ops = []
      · cases hmoves with
        | _ hthread => simp [hthread] at hops
      · have hblocked := hstalled.blocked k (hs.listens k hops)
        cases hmoves with
        | _ hthread => simp [hthread] at hblocked
  | handler k =>
      rcases (hs.consistent.wellFormed _).writer_cases (hs.handler k) with
        heq | heq | heq | heq
      · cases hmoves with
        | _ hthread => simp [heq] at hthread
      · cases hmoves with
        | announce _ hfree => exact hfree _ (Or.inl hw)
        | _ hthread => simp [heq, writeOnce] at hthread
      · cases hmoves with
        | enter _ hnone =>
            have hheld := hnone .periodicFmuStatus
            rw [hs.holds hstalled.sending.1] at hheld
            cases hheld
        | _ hthread => simp [heq, writeOnce] at hthread
      · have hwk := hs.consistent.single _ _ (Or.inl hw)
          (Or.inr (congrArg Thread.status heq))
        rw [hwk, heq] at hw
        cases hw

/-- A handler that comes waits with the others. -/
theorem Stalled.begin (hs : s.Sound) (hstalled : s.Stalled)
    {connection : Connection} (hidle : (s.connections k).locks = false)
    (hlistens : connection.listens = true →
      (s.connections k).listens = true)
    (hstarted : connection ≠ .counted) :
    ((s.call (.handler k) writeOnce).setConnection k connection).Stalled := by
  obtain ⟨w, hw⟩ := hstalled.announced
  have hwk : w ≠ k := by
    rintro rfl
    have hops : (s.threads (.handler w)).ops = [] := by
      by_contra hne
      rw [(hs.locks w).mp hne] at hidle
      cases hidle
    rw [(hs.consistent.wellFormed _).finished hops] at hw
    cases hw
  refine ⟨?_, ⟨w, by simpa [call, setConnection, hwk] using hw⟩, ?_, ?_⟩
  · simpa [Sending, call, setConnection] using hstalled.sending
  · intro j hj
    have hbefore : (s.connections j).listens = true := by
      by_cases hjk : j = k
      · subst hjk
        exact hlistens (by simpa [setConnection] using hj)
      · simpa [call, setConnection, hjk] using hj
    simpa [call, setConnection] using hstalled.blocked j hbefore
  · intro j
    by_cases hjk : j = k
    · simpa [setConnection, hjk] using hstarted
    · simpa [call, setConnection, hjk] using hstalled.started j

theorem Stalled.acts (hs : s.Sound) (hstalled : s.Stalled)
    (hacts : s.Acts event next) :
    (∃ k, event = .connection k ∨ event = .disconnection k) ∧
      next.Stalled ∧ next.emitted = s.emitted ∧
      next.socketCnt = s.socketCnt := by
  cases hacts with
  | tick hidle =>
      rw [hstalled.sending.1] at hidle
      cases hidle
  | send _ hselects => exact absurd hselects (hstalled.not_selects hs _)
  | lock hmay hmoves => exact absurd hmoves (hstalled.not_moves hs hmay _)
  | listen hcounted => exact absurd hcounted (hstalled.started _)
  | quit _ hselects => exact absurd hselects (hstalled.not_selects hs _)
  | connection habsent =>
      refine ⟨⟨_, Or.inl rfl⟩, hstalled.begin hs ?_ ?_ (by simp), rfl, rfl⟩
      · simp [habsent, Connection.locks]
      · simp [Connection.listens]
  | disconnection hconnected =>
      refine ⟨⟨_, Or.inr rfl⟩, hstalled.begin hs ?_ ?_ (by simp), rfl, rfl⟩
      · simp [hconnected, Connection.locks]
      · simp [hconnected, Connection.listens]

omit [Fintype ι] [DecidableEq ι] in
theorem Stalled.not_quiet (hstalled : s.Stalled) : ¬ s.Quiet := by
  intro hquiet
  have hround := hstalled.sending.1
  rw [hquiet.threads] at hround
  cases hround

theorem Stalled.stuck (hs : s.Sound) (hstalled : s.Stalled) : s.Stuck := by
  intro event hinternal
  cases hstep : s.step event with
  | none => rfl
  | some next =>
      obtain ⟨⟨k, rfl | rfl⟩, -⟩ := hstalled.acts hs (acts_of_step hstep)
      · exact hinternal.elim
      · exact hinternal.elim

/-- Where nothing happens from inside although something is left to do, it
stays so: handlers come to wait and nothing else happens, not even a tick;
nothing is emitted to a socket and no socket is counted in or out. -/
theorem stuck_forever {events later : List (SocketEvent ι)}
    {t : Sockets ι} (hrun : Run step initial events s) (hstuck : s.Stuck)
    (hleft : ¬ s.Quiet) (hlater : Run step s later t) :
    (∀ event ∈ later, ∃ k,
        event = .connection k ∨ event = .disconnection k) ∧
      t.Stuck ∧ ¬ t.Quiet ∧ t.emitted = s.emitted ∧
      t.socketCnt = s.socketCnt := by
  have hs := sound_of_run hrun
  have hstalled := (stuck_cases hs hstuck).resolve_left hleft
  have hstays : (t.Sound ∧ t.Stalled) ∧
      (∀ event ∈ later, ∃ k,
        event = .connection k ∨ event = .disconnection k) ∧
      t.emitted = s.emitted ∧ t.socketCnt = s.socketCnt := by
    induction hlater with
    | nil => exact ⟨⟨hs, hstalled⟩, by simp, rfl, rfl⟩
    | snoc _ _ hstep ih =>
        obtain ⟨⟨hsound, hstays⟩, houtside, hemitted, hcnt⟩ := ih
        have hacts := acts_of_step hstep
        obtain ⟨hexternal, hnext, hsame, hkept⟩ := hstays.acts hsound hacts
        refine ⟨⟨hsound.acts hacts, hnext⟩, ?_, hsame.trans hemitted,
          hkept.trans hcnt⟩
        intro event hevent
        rcases List.mem_append.mp hevent with hold | hlast
        · exact houtside event hold
        · rw [List.mem_singleton.mp hlast]
          exact hexternal
  obtain ⟨⟨ht, hend⟩, houtside, hemitted, hcnt⟩ := hstays
  exact ⟨houtside, hend.stuck ht, hend.not_quiet, hemitted, hcnt⟩

/-- A socket disconnects in the second round, while its listener has not taken
the lock for the first. -/
def disconnectingEvents : List (SocketEvent Unit) :=
  [.connection (), .lock (.handler ()), .lock (.handler ()),
    .lock (.handler ()), .listen (), .tick, .lock .periodicFmuStatus,
    .send () {}, .lock .periodicFmuStatus, .tick, .lock .periodicFmuStatus,
    .disconnection (), .lock (.handler ()), .lock (.listener ())]

theorem stuck_forever_disconnecting :
    ∃ s, Run step initial disconnectingEvents s ∧
      ∀ later t, Run step s later t →
        (∀ event ∈ later, ∃ k,
            event = .connection k ∨ event = .disconnection k) ∧
          t.Stuck ∧ ¬ t.Quiet ∧ t.emitted = s.emitted ∧
          t.socketCnt = s.socketCnt := by
  have hexec : (exec step (fun _ _ => True) initial disconnectingEvents).map
      (fun s => decide s.Stalled) = some true := by
    decide +kernel
  obtain ⟨s, hrun, heq⟩ := GuardedRun.of_exec_map hexec
  have hstalled := of_decide_eq_true heq
  have hstuck := hstalled.stuck (sound_of_run hrun)
  exact ⟨s, hrun, fun later t hlater =>
    stuck_forever hrun hstuck hstalled.not_quiet hlater⟩

/-! ## What a round sends -/

/-- What was sent to the listener of a socket. -/
def sentTo (k : ι) (events : List (SocketEvent ι)) : List Fmulink.Fmu :=
  events.filterMap fun
    | .send j data => if j = k then some data else none
    | _ => none

/-- How often the last round has sent. -/
def roundSends (events : List (SocketEvent ι)) : ℕ :=
  events.foldl
    (fun n event => match event with
      | .tick => 0
      | .send _ _ => n + 1
      | _ => n) 0

/-- A listener that selects has emitted all that it received, and a round
sends at most once for each socket. -/
structure Follows (s : Sockets ι) : Prop where
  data : ∀ k, (s.threads (.listener k)).ops = [] → s.data k = none
  fresh : (s.threads .periodicFmuStatus).ops = readOnce → s.i = 0
  bound : (s.threads .periodicFmuStatus).ops = [.RUnlock] →
    s.i ≤ s.socketCnt

/-- A listener is done when it was, or when it releases the lock. -/
theorem Sound.listener_done (hs : s.Sound) {p : Party ι}
    {threads : Party ι → Thread} (hmoves : Moves s.threads p threads)
    (hdone : (threads (.listener k)).ops = []) :
    (s.threads (.listener k)).ops = [] ∨
      (p = .listener k ∧ (s.threads (.listener k)).ops = [.RUnlock]) := by
  by_cases hpk : .listener k = p
  · subst hpk
    rcases (hs.consistent.wellFormed _).reader_cases (hs.listener k) with
      heq | heq | heq | heq
    · exact Or.inl (by rw [heq])
    · cases hmoves with
      | acquire hthread _ =>
          rw [heq] at hthread
          cases hthread
          simp at hdone
      | block hthread _ => simp at hdone
      | _ hthread => simp [heq, readOnce] at hthread
    · cases hmoves with
      | _ hthread => simp [heq] at hthread
    · exact Or.inr ⟨rfl, by rw [heq]⟩
  · left
    rcases hmoves.others hpk with hsame | hwoken
    · rwa [hsame] at hdone
    · rw [hwoken] at hdone
      rcases (hs.consistent.wellFormed _).reader_cases (hs.listener k) with
        heq | heq | heq | heq
      · rw [heq]
      · simp [heq, Thread.wake, readOnce] at hdone
      · simp [heq, Thread.wake, readOnce] at hdone
      · simp [heq, Thread.wake] at hdone

omit [Fintype ι] in
theorem count_keeps (s : Sockets ι) (k : ι) :
    (s.count k).data = s.data ∧ (s.count k).emitted = s.emitted := by
  unfold count
  split <;> exact ⟨rfl, rfl⟩

omit [Fintype ι] in
/-- Only a listener that releases the lock has emitted. -/
theorem beforeUnlock_data (s : Sockets ι) (p : Party ι) (k : ι) :
    (s.beforeUnlock p).data k =
      if p = .listener k ∧ (s.threads (.listener k)).ops = [.RUnlock] then
        none
      else s.data k := by
  cases p with
  | periodicFmuStatus => simp [beforeUnlock]
  | listener j =>
      by_cases hops : (s.threads (.listener j)).ops = [.RUnlock]
      · by_cases hjk : j = k
        · subst hjk
          simp [beforeUnlock, hops, emit]
        · simp [beforeUnlock, hops, emit, hjk, Ne.symm hjk]
      · by_cases hjk : j = k
        · subst hjk
          simp [beforeUnlock, hops]
        · simp [beforeUnlock, hops, hjk]
  | handler j =>
      simp only [beforeUnlock]
      split
      · simp [(count_keeps s j).1]
      · simp

omit [Fintype ι] in
theorem beforeUnlock_stream (s : Sockets ι) (p : Party ι) (k : ι) :
    (s.beforeUnlock p).emitted k ++ ((s.beforeUnlock p).data k).toList =
      s.emitted k ++ (s.data k).toList := by
  cases p with
  | periodicFmuStatus => rfl
  | listener j =>
      simp only [beforeUnlock]
      split
      · by_cases hkj : k = j
        · simp [emit, hkj]
        · simp [emit, hkj]
      · rfl
  | handler j =>
      simp only [beforeUnlock]
      split
      · rw [(count_keeps s j).1, (count_keeps s j).2]
      · rfl

theorem Follows.lock (hs : s.Sound) (hfollows : s.Follows) {p : Party ι}
    {threads : Party ι → Thread} (hmoves : Moves s.threads p threads) :
    (s.locked p threads).Follows := by
  have hi : (s.locked p threads).i = s.i := beforeUnlock_i s p
  have hsuffix := hmoves.ops_suffix .periodicFmuStatus
  refine ⟨?_, ?_, ?_⟩
  · intro k hdone
    change (s.beforeUnlock p).data k = none
    rw [beforeUnlock_data]
    split
    next => rfl
    next hnot =>
      exact hfollows.data k ((hs.listener_done hmoves hdone).resolve_right hnot)
  · intro hwaits
    have hbefore : (s.threads .periodicFmuStatus).ops = readOnce := by
      have hwas : readOnce <:+ (s.threads .periodicFmuStatus).ops :=
        hwaits ▸ hsuffix
      exact hs.periodic.eq_of_length_le hwas.length_le
    exact hi.trans (hfollows.fresh hbefore)
  · intro hround
    have hcnt := (hs.lock hmoves).socketCnt
    rcases suffix_pair_iff.mp hs.periodic with hwas | hwas | hwas
    · have hzero := hfollows.fresh hwas
      omega
    · have hle := hfollows.bound hwas
      rcases hs.lock_cases hmoves with
        ⟨k, rfl, hthread, -, -⟩ | ⟨-, hsame, -⟩
      · have hnone := hs.consistent.alone _ (congrArg Thread.status hthread)
          .periodicFmuStatus
        rw [hs.holds hwas] at hnone
        cases hnone
      · rw [hi]
        exact hle.trans_eq hsame.symm
    · rw [hwas, List.suffix_nil] at hsuffix
      have hnil : (s.locked p threads).threads .periodicFmuStatus =
        threads .periodicFmuStatus := rfl
      rw [hnil, hsuffix] at hround
      cases hround

theorem Follows.acts (hs : s.Sound) (hfollows : s.Follows)
    (hacts : s.Acts event next) : next.Follows := by
  cases hacts with
  | tick _ =>
      exact
        { data := fun k hops =>
            hfollows.data k (by simpa [beginRound, call] using hops)
          fresh := fun _ => rfl
          bound := fun hround => by
            simp [beginRound, call, readOnce] at hround }
  | @send k data hsending _ =>
      refine ⟨?_, ?_, ?_⟩
      · intro j hops
        by_cases hjk : j = k
        · simp [receive, call, hjk, readOnce] at hops
        · have hbefore := hfollows.data j
            (by simpa [receive, call, hjk] using hops)
          simpa [receive, hjk] using hbefore
      · intro hwaits
        simp [receive, call, hsending.1, readOnce] at hwaits
      · intro _
        have hless := hsending.2
        simp only [receive, call]
        omega
  | lock _ hmoves => exact hfollows.lock hs hmoves
  | connection _ =>
      exact ⟨by simpa [call, setConnection] using hfollows.data,
        by simpa [call, setConnection] using hfollows.fresh,
        by simpa [call, setConnection] using hfollows.bound⟩
  | disconnection _ =>
      exact ⟨by simpa [call, setConnection] using hfollows.data,
        by simpa [call, setConnection] using hfollows.fresh,
        by simpa [call, setConnection] using hfollows.bound⟩
  | listen _ => exact ⟨hfollows.data, hfollows.fresh, hfollows.bound⟩
  | quit _ _ => exact ⟨hfollows.data, hfollows.fresh, hfollows.bound⟩

omit [Fintype ι] in
theorem sentTo_snoc (events : List (SocketEvent ι)) :
    sentTo k (events ++ [event]) =
      sentTo k events ++ sentTo k [event] :=
  List.filterMap_append

omit [Fintype ι] [DecidableEq ι] in
theorem roundSends_snoc (events : List (SocketEvent ι)) :
    roundSends (events ++ [event]) = match event with
      | .tick => 0
      | .send _ _ => roundSends events + 1
      | _ => roundSends events := by
  rw [roundSends, List.foldl_append]
  rfl

omit [Fintype ι] in
theorem roundSends_acts (hacts : s.Acts event next)
    {events : List (SocketEvent ι)} (hi : roundSends events = s.i) :
    roundSends (events ++ [event]) = next.i := by
  rw [roundSends_snoc, hi]
  cases hacts with
  | lock _ _ => exact (beforeUnlock_i s _).symm
  | _ => rfl

omit [Fintype ι] in
theorem sentTo_acts (hfollows : s.Follows) (hacts : s.Acts event next)
    {events : List (SocketEvent ι)}
    (hsent : sentTo k events = s.emitted k ++ (s.data k).toList) :
    sentTo k (events ++ [event]) =
      next.emitted k ++ (next.data k).toList := by
  rw [sentTo_snoc, hsent]
  cases hacts with
  | @send j data _ hselects =>
      by_cases hjk : j = k
      · subst hjk
        have hnone := hfollows.data j hselects.2
        simp [sentTo, receive, call, hnone]
      · simp [sentTo, receive, call, hjk, Ne.symm hjk]
  | lock _ _ =>
      exact (List.append_nil _).trans (beforeUnlock_stream s _ k).symm
  | _ => exact List.append_nil _

/-- In every run each record that is sent goes to one socket, which is emitted
all of its records in their order, and a round ends when it has sent as many
as there are sockets counted. -/
theorem sockets_follow {events : List (SocketEvent ι)}
    (hrun : Run step initial events s) :
    (∀ k, sentTo k events = s.emitted k ++ (s.data k).toList) ∧
      ((s.threads .periodicFmuStatus).ops = [.RUnlock] →
        roundSends events ≤ s.countedSockets.card ∧
        (¬ s.Sending → roundSends events = s.countedSockets.card)) := by
  have hinv : s.Sound ∧ s.Follows ∧ roundSends events = s.i ∧
      ∀ k, sentTo k events = s.emitted k ++ (s.data k).toList := by
    induction hrun with
    | nil =>
        refine ⟨initial_sound, ⟨fun _ _ => rfl, fun _ => rfl, ?_⟩, rfl,
          fun _ => rfl⟩
        intro hround
        cases hround
    | snoc _ _ hstep ih =>
        obtain ⟨hs, hfollows, hi, hsent⟩ := ih
        have hacts := acts_of_step hstep
        exact ⟨hs.acts hacts, hfollows.acts hs hacts,
          roundSends_acts hacts hi,
          fun k => sentTo_acts hfollows hacts (hsent k)⟩
  obtain ⟨hs, hfollows, hi, hsent⟩ := hinv
  refine ⟨hsent, fun hround => ?_⟩
  have hcnt := hs.socketCnt
  have hbound := hfollows.bound hround
  refine ⟨by omega, fun hended => ?_⟩
  have hnot : ¬ (s.i : ℤ) < s.socketCnt := fun hless =>
    hended ⟨hround, hless⟩
  omega

/-- Two sockets, and a round of which one hears both records. -/
def twiceEvents : List (SocketEvent Bool) :=
  [.connection true, .lock (.handler true), .lock (.handler true),
    .lock (.handler true), .listen true, .connection false,
    .lock (.handler false), .lock (.handler false), .lock (.handler false),
    .listen false, .tick, .lock .periodicFmuStatus, .send true {},
    .lock (.listener true), .lock (.listener true), .send true {}]

theorem sockets_follow_twice :
    ∃ s, Run step initial twiceEvents s ∧ s.countedSockets.card = 2 ∧
      s.emitted false = [] := by
  have hexec : (exec step (fun _ _ => True) initial twiceEvents).map
      (fun s => ((s.threads .periodicFmuStatus).ops,
        decide s.Sending)) = some ([.RUnlock], false) := by
    decide +kernel
  obtain ⟨s, hrun, heq⟩ := GuardedRun.of_exec_map hexec
  simp only [Prod.mk.injEq, decide_eq_false_iff_not] at heq
  obtain ⟨hsent, hround⟩ := sockets_follow hrun
  have hmissed := hsent false
  have hnone : sentTo false twiceEvents = [] := rfl
  rw [hnone] at hmissed
  refine ⟨s, hrun, ((hround heq.1).2 heq.2).symm, ?_⟩
  exact (List.append_eq_nil_iff.mp hmissed.symm).1

end DronesmithEngine.StatusServer.Sockets
