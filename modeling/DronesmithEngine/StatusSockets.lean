import DronesmithEngine.FmuStatus
import DronesmithEngine.RWMutex
import Mathlib.Tactic

/-!
# The sockets of the status page

`statusServer/statusServer.go`: once a second `periodicFmuStatus` holds
`socketLock` for reading while it sends the record over `fmuEvent` as often as
there are sockets.  Whichever listeners come for it take the lock for reading
as well, to emit the record to their sockets.  The handlers of "connection"
and "disconnection" take the lock for writing to count.

The lock of the record itself is left out: who holds it never waits for a
socket.
-/

namespace DronesmithEngine.StatusServer

open LabelledRuns RWMutex

variable {ι : Type*}

/-- The goroutines: each socket has its listener, and the one that calls its
handlers. -/
inductive Party (ι : Type*)
  | periodicFmuStatus
  | listener (k : ι)
  | handler (k : ι)
  deriving DecidableEq

def Party.ofOption : Option (ι ⊕ ι) → Party ι
  | none => .periodicFmuStatus
  | some (.inl k) => .listener k
  | some (.inr k) => .handler k

theorem Party.ofOption_surjective :
    Function.Surjective (Party.ofOption (ι := ι)) := by
  intro p
  cases p with
  | periodicFmuStatus => exact ⟨none, rfl⟩
  | listener k => exact ⟨some (.inl k), rfl⟩
  | handler k => exact ⟨some (.inr k), rfl⟩

instance [Fintype ι] [DecidableEq ι] : Fintype (Party ι) :=
  Fintype.ofSurjective Party.ofOption Party.ofOption_surjective

/-- How far the handlers of a socket are. -/
inductive Connection
  | absent
  /-- "connection", which is about to count the socket. -/
  | connecting
  /-- "connection", which is about to start the listener. -/
  | counted
  | connected
  /-- "disconnection", which is about to count the socket out. -/
  | disconnecting
  /-- "disconnection", which sends `quit`. -/
  | leaving
  | gone
  deriving DecidableEq

namespace Connection

/-- `socketCnt` has the socket. -/
def isCounted : Connection → Bool
  | .counted => true
  | .connected => true
  | .disconnecting => true
  | _ => false

/-- The listener is there. -/
def listens : Connection → Bool
  | .connected => true
  | .disconnecting => true
  | .leaving => true
  | _ => false

/-- A handler is between `Lock` and `Unlock`, or waits for them. -/
def locks : Connection → Bool
  | .connecting => true
  | .disconnecting => true
  | _ => false

/-- No handler is being called. -/
def isSettled : Connection → Bool
  | .absent => true
  | .connected => true
  | .gone => true
  | _ => false

end Connection

/-- `data` is what a listener has received and not yet emitted, and `i` the
variable of the loop in `periodicFmuStatus`. -/
structure Sockets (ι : Type*) where
  threads : Party ι → Thread
  connections : ι → Connection
  socketCnt : ℤ
  i : ℕ
  data : ι → Option Fmulink.Fmu
  emitted : ι → List Fmulink.Fmu

/-- `lock` is the next step of a goroutine at `socketLock`. -/
inductive SocketEvent (ι : Type*)
  | tick
  | send (k : ι) (data : Fmulink.Fmu)
  | lock (p : Party ι)
  | connection (k : ι)
  | listen (k : ι)
  | disconnection (k : ι)
  | quit (k : ι)

/-- The other events come from outside. -/
def SocketEvent.Internal : SocketEvent ι → Prop
  | .tick => False
  | .connection _ => False
  | .disconnection _ => False
  | _ => True

instance : ∀ event : SocketEvent ι, Decidable event.Internal
  | .tick => .isFalse id
  | .connection _ => .isFalse id
  | .disconnection _ => .isFalse id
  | .send _ _ => .isTrue trivial
  | .lock _ => .isTrue trivial
  | .listen _ => .isTrue trivial
  | .quit _ => .isTrue trivial

namespace Sockets

def initial : Sockets ι where
  threads := fun _ => ⟨[], 0, .running⟩
  connections := fun _ => .absent
  socketCnt := 0
  i := 0
  data := fun _ => none
  emitted := fun _ => []

variable [DecidableEq ι]

def call (s : Sockets ι) (p : Party ι) (ops : List Op) : Sockets ι :=
  { s with threads := Function.update s.threads p ⟨ops, 0, .running⟩ }

def setConnection (s : Sockets ι) (k : ι) (connection : Connection) :
    Sockets ι :=
  { s with connections := Function.update s.connections k connection }

/-- The loop has not ended. -/
def Sending (s : Sockets ι) : Prop :=
  (s.threads .periodicFmuStatus).ops = [.RUnlock] ∧ s.i < s.socketCnt

/-- The listener waits in `select`. -/
def Selects (s : Sockets ι) (k : ι) : Prop :=
  (s.connections k).listens = true ∧ (s.threads (.listener k)).ops = []

instance (s : Sockets ι) : Decidable s.Sending :=
  inferInstanceAs (Decidable (_ ∧ _))

instance (s : Sockets ι) (k : ι) : Decidable (s.Selects k) :=
  inferInstanceAs (Decidable (_ ∧ _))

def emit (s : Sockets ι) (k : ι) : Sockets ι :=
  { s with
    data := Function.update s.data k none
    emitted :=
      Function.update s.emitted k (s.emitted k ++ (s.data k).toList) }

/-- What a handler does while it holds the lock. -/
def count (s : Sockets ι) (k : ι) : Sockets ι :=
  match s.connections k with
  | .connecting =>
      { s.setConnection k .counted with socketCnt := s.socketCnt + 1 }
  | .disconnecting =>
      { s.setConnection k .leaving with socketCnt := s.socketCnt - 1 }
  | _ => s

/-- What a goroutine does while it holds the lock is done when it releases
it. -/
def beforeUnlock (s : Sockets ι) : Party ι → Sockets ι
  | .periodicFmuStatus => s
  | .listener k =>
      if (s.threads (.listener k)).ops = [.RUnlock] then s.emit k else s
  | .handler k =>
      if (s.threads (.handler k)).ops = [.Unlock] then s.count k else s

def locked (s : Sockets ι) (p : Party ι) (threads : Party ι → Thread) :
    Sockets ι :=
  { s.beforeUnlock p with threads := threads }

def beginRound (s : Sockets ι) : Sockets ι :=
  { s.call .periodicFmuStatus readOnce with i := 0 }

def receive (s : Sockets ι) (k : ι) (data : Fmulink.Fmu) : Sockets ι :=
  { s.call (.listener k) readOnce with
    i := s.i + 1
    data := Function.update s.data k (some data) }

def step [Fintype ι] (s : Sockets ι) : SocketEvent ι → Option (Sockets ι)
  | .tick =>
      if (s.threads .periodicFmuStatus).ops = [] then
        some s.beginRound
      else none
  | .send k data =>
      if s.Sending ∧ s.Selects k then some (s.receive k data) else none
  | .lock p =>
      if p = .periodicFmuStatus ∧ s.Sending then none
      else
        (RWMutex.step s.threads p).map (s.locked p)
  | .connection k =>
      if s.connections k = .absent then
        some ((s.call (.handler k) writeOnce).setConnection k .connecting)
      else none
  | .listen k =>
      if s.connections k = .counted then some (s.setConnection k .connected)
      else none
  | .disconnection k =>
      if s.connections k = .connected then
        some ((s.call (.handler k) writeOnce).setConnection k .disconnecting)
      else none
  | .quit k =>
      if s.connections k = .leaving ∧ s.Selects k then
        some (s.setConnection k .gone)
      else none

@[simp] theorem count_i (s : Sockets ι) (k : ι) : (s.count k).i = s.i := by
  unfold count
  split <;> rfl

@[simp] theorem beforeUnlock_i (s : Sockets ι) (p : Party ι) :
    (s.beforeUnlock p).i = s.i := by
  cases p with
  | periodicFmuStatus => rfl
  | listener k =>
      simp only [beforeUnlock]
      split <;> rfl
  | handler k =>
      simp only [beforeUnlock]
      split
      · exact count_i s k
      · rfl

/-- What each event does, and when. -/
inductive Acts (s : Sockets ι) : SocketEvent ι → Sockets ι → Prop
  | tick : (s.threads .periodicFmuStatus).ops = [] →
      Acts s .tick s.beginRound
  | send {k : ι} {data : Fmulink.Fmu} : s.Sending → s.Selects k →
      Acts s (.send k data) (s.receive k data)
  | lock {p : Party ι} {threads : Party ι → Thread} :
      ¬ (p = .periodicFmuStatus ∧ s.Sending) →
      Moves s.threads p threads →
      Acts s (.lock p) (s.locked p threads)
  | connection {k : ι} : s.connections k = .absent →
      Acts s (.connection k)
        ((s.call (.handler k) writeOnce).setConnection k .connecting)
  | listen {k : ι} : s.connections k = .counted →
      Acts s (.listen k) (s.setConnection k .connected)
  | disconnection {k : ι} : s.connections k = .connected →
      Acts s (.disconnection k)
        ((s.call (.handler k) writeOnce).setConnection k .disconnecting)
  | quit {k : ι} : s.connections k = .leaving → s.Selects k →
      Acts s (.quit k) (s.setConnection k .gone)

theorem acts_of_step [Fintype ι] {s next : Sockets ι}
    {event : SocketEvent ι} (hstep : s.step event = some next) :
    s.Acts event next := by
  cases event with
  | lock p =>
      simp only [step] at hstep
      split at hstep
      next => cases hstep
      next hmay =>
        obtain ⟨threads, hthreads, rfl⟩ := Option.map_eq_some_iff.mp hstep
        exact .lock hmay (moves_of_step hthreads)
  | tick =>
      obtain ⟨hidle, hnext⟩ := Option.ite_none_right_eq_some.mp hstep
      cases hnext
      exact .tick hidle
  | send k data =>
      obtain ⟨⟨hsending, hselects⟩, hnext⟩ :=
        Option.ite_none_right_eq_some.mp hstep
      cases hnext
      exact .send hsending hselects
  | connection k =>
      obtain ⟨habsent, hnext⟩ := Option.ite_none_right_eq_some.mp hstep
      cases hnext
      exact .connection habsent
  | listen k =>
      obtain ⟨hcounted, hnext⟩ := Option.ite_none_right_eq_some.mp hstep
      cases hnext
      exact .listen hcounted
  | disconnection k =>
      obtain ⟨hconnected, hnext⟩ := Option.ite_none_right_eq_some.mp hstep
      cases hnext
      exact .disconnection hconnected
  | quit k =>
      obtain ⟨⟨hleaving, hselects⟩, hnext⟩ :=
        Option.ite_none_right_eq_some.mp hstep
      cases hnext
      exact .quit hleaving hselects

/-! ## Counting -/

def countedSockets [Fintype ι] (s : Sockets ι) : Finset ι :=
  Finset.univ.filter fun k => (s.connections k).isCounted = true

/-- The goroutines are where the connections say, and `socketCnt` counts. -/
structure Sound [Fintype ι] (s : Sockets ι) : Prop where
  consistent : Consistent s.threads
  periodic : (s.threads .periodicFmuStatus).ops <:+ readOnce
  listener : ∀ k, (s.threads (.listener k)).ops <:+ readOnce
  handler : ∀ k, (s.threads (.handler k)).ops <:+ writeOnce
  listens : ∀ k, (s.threads (.listener k)).ops ≠ [] →
    (s.connections k).listens = true
  locks : ∀ k, (s.threads (.handler k)).ops ≠ [] ↔
    (s.connections k).locks = true
  socketCnt : s.socketCnt = s.countedSockets.card

section Lemmas

variable [Fintype ι] {s next : Sockets ι} {p : Party ι} {k : ι}
variable {threads : Party ι → Thread}

omit [DecidableEq ι] in
theorem initial_sound : (initial : Sockets ι).Sound where
  consistent := consistent_of_balanced fun _ => ⟨[], trivial, rfl⟩
  periodic := List.nil_suffix
  listener := fun _ => List.nil_suffix
  handler := fun _ => List.nil_suffix
  listens := fun _ h => absurd rfl h
  locks := fun _ => iff_of_false (fun h => h rfl) Bool.false_ne_true
  socketCnt := by simp [initial, countedSockets, Connection.isCounted]

omit [DecidableEq ι] in
@[simp] theorem mem_countedSockets :
    k ∈ s.countedSockets ↔ (s.connections k).isCounted = true := by
  simp [countedSockets]

theorem countedSockets_setConnection_of_eq {connection : Connection}
    (hsame : connection.isCounted = (s.connections k).isCounted) :
    (s.setConnection k connection).countedSockets = s.countedSockets := by
  ext j
  by_cases hjk : j = k
  · subst hjk
    simp [setConnection, hsame]
  · simp [setConnection, hjk]

theorem countedSockets_setConnection_in {connection : Connection}
    (hin : connection.isCounted = true) :
    (s.setConnection k connection).countedSockets =
      insert k s.countedSockets := by
  ext j
  by_cases hjk : j = k
  · subst hjk
    simp [setConnection, hin]
  · simp [setConnection, hjk]

theorem countedSockets_setConnection_out {connection : Connection}
    (hout : connection.isCounted = false) :
    (s.setConnection k connection).countedSockets =
      s.countedSockets.erase k := by
  ext j
  by_cases hjk : j = k
  · subst hjk
    simp [setConnection, hout]
  · simp [setConnection, hjk]

theorem Sound.other_handler (hs : s.Sound)
    (hmoves : Moves s.threads p threads) (hother : .handler k ≠ p) :
    threads (.handler k) = s.threads (.handler k) := by
  have hnot : (s.threads (.handler k)).status ≠ .blocked := by
    rcases (hs.consistent.wellFormed _).writer_cases (hs.handler k) with
      heq | heq | heq | heq
    all_goals simp [heq]
  rcases hmoves.others hother with heq | heq
  · exact heq
  · rw [heq, wake_of_not_blocked hnot]

/-- Only a handler that releases the lock has done something with it. -/
theorem Sound.lock_cases (hs : s.Sound)
    (hmoves : Moves s.threads p threads) :
    (∃ k, p = .handler k ∧ s.threads p = ⟨[.Unlock], 0, .writing⟩ ∧
      (threads p).ops = [] ∧ s.beforeUnlock p = s.count k) ∨
    ((s.beforeUnlock p).connections = s.connections ∧
      (s.beforeUnlock p).socketCnt = s.socketCnt ∧
      ∀ k, (threads (.handler k)).ops = [] ↔
        (s.threads (.handler k)).ops = []) := by
  have hothers (hnot : ∀ k, p ≠ .handler k) (k : ι) :
      (threads (.handler k)).ops = [] ↔
        (s.threads (.handler k)).ops = [] := by
    rw [hs.other_handler hmoves (hnot k).symm]
  cases p with
  | periodicFmuStatus => exact Or.inr ⟨rfl, rfl, hothers (by simp)⟩
  | listener k =>
      refine Or.inr ⟨?_, ?_, hothers (by simp)⟩
      · simp only [beforeUnlock]
        split <;> rfl
      · simp only [beforeUnlock]
        split <;> rfl
  | handler k =>
      have hrest (hkeeps : (threads (.handler k)).ops = [] ↔
          (s.threads (.handler k)).ops = []) (j : ι) :
          (threads (.handler j)).ops = [] ↔
            (s.threads (.handler j)).ops = [] := by
        by_cases hjk : j = k
        · rw [hjk, hkeeps]
        · rw [hs.other_handler hmoves (by simp [hjk])]
      rcases (hs.consistent.wellFormed _).writer_cases (hs.handler k) with
        heq | heq | heq | heq
      · cases hmoves with
        | _ hthread => simp [heq] at hthread
      · right
        refine ⟨by simp [beforeUnlock, heq, writeOnce],
          by simp [beforeUnlock, heq, writeOnce], hrest ?_⟩
        cases hmoves with
        | announce hthread _ => simp [hthread]
        | _ hthread => simp [heq, writeOnce] at hthread
      · right
        refine ⟨by simp [beforeUnlock, heq, writeOnce],
          by simp [beforeUnlock, heq, writeOnce], hrest ?_⟩
        cases hmoves with
        | enter hthread _ =>
            rw [heq] at hthread
            cases hthread
            simp [heq, writeOnce]
        | _ hthread => simp [heq, writeOnce] at hthread
      · left
        refine ⟨k, rfl, heq, ?_, by simp [beforeUnlock, heq]⟩
        cases hmoves with
        | leave hthread =>
            rw [heq] at hthread
            cases hthread
            simp
        | _ hthread => simp [heq] at hthread

theorem Sound.listening (hs : s.Sound) (hmoves : Moves s.threads p threads)
    (hops : (threads (.listener k)).ops ≠ []) :
    (s.connections k).listens = true := by
  apply hs.listens k
  intro hnil
  exact hops (List.suffix_nil.mp (hnil ▸ hmoves.ops_suffix _))

/-- The handler goes on to `connection` as it releases the lock. -/
theorem Sound.release (hs : s.Sound)
    (hmoves : Moves s.threads (.handler k) threads)
    (hdone : (threads (.handler k)).ops = []) {connection : Connection}
    (hlocks : connection.locks = false)
    (hlistens : (s.connections k).listens = true →
      connection.listens = true) {socketCnt : ℤ}
    (hcnt : socketCnt =
      (s.setConnection k connection).countedSockets.card) :
    Sound
      { s.setConnection k connection with
        socketCnt := socketCnt
        threads := threads } where
  consistent := hs.consistent.moves hmoves
  periodic := (hmoves.ops_suffix _).trans hs.periodic
  listener := fun j => (hmoves.ops_suffix _).trans (hs.listener j)
  handler := fun j => (hmoves.ops_suffix _).trans (hs.handler j)
  listens := by
    intro j hops
    have hbefore := hs.listening hmoves hops
    by_cases hjk : j = k
    · subst hjk
      simpa [setConnection] using hlistens hbefore
    · simpa [setConnection, hjk] using hbefore
  locks := by
    intro j
    by_cases hjk : j = k
    · subst hjk
      simp [setConnection, hdone, hlocks]
    · have hother := hs.other_handler hmoves (k := j) (by simp [hjk])
      simpa [setConnection, hjk, hother] using hs.locks j
  socketCnt := hcnt

theorem Sound.lock (hs : s.Sound) (hmoves : Moves s.threads p threads) :
    (s.locked p threads).Sound := by
  unfold locked
  rcases hs.lock_cases hmoves with
    ⟨k, rfl, hthread, hdone, hcount⟩ | ⟨hconnections, hcnt, hsame⟩
  · have hlocks : (s.connections k).locks = true :=
      (hs.locks k).mp (by simp [hthread])
    rw [hcount]
    cases hconnection : s.connections k with
    | connecting =>
        have hout : k ∉ s.countedSockets := by
          simp [hconnection, Connection.isCounted]
        have hset : (s.setConnection k .counted).countedSockets =
            insert k s.countedSockets :=
          countedSockets_setConnection_in rfl
        have hcard := Finset.card_insert_of_notMem hout
        rw [← hset] at hcard
        simp only [count, hconnection]
        refine hs.release hmoves hdone rfl ?_ ?_
        · rw [hconnection]
          exact id
        · have hcnt := hs.socketCnt
          omega
    | disconnecting =>
        have hin : k ∈ s.countedSockets := by
          simp [hconnection, Connection.isCounted]
        have hset : (s.setConnection k .leaving).countedSockets =
            s.countedSockets.erase k :=
          countedSockets_setConnection_out rfl
        have hcard := Finset.card_erase_add_one hin
        rw [← hset] at hcard
        simp only [count, hconnection]
        refine hs.release hmoves hdone rfl (fun _ => rfl) ?_
        have hcnt := hs.socketCnt
        omega
    | _ => simp [hconnection, Connection.locks] at hlocks
  · exact
      { consistent := hs.consistent.moves hmoves
        periodic := (hmoves.ops_suffix _).trans hs.periodic
        listener := fun j => (hmoves.ops_suffix _).trans (hs.listener j)
        handler := fun j => (hmoves.ops_suffix _).trans (hs.handler j)
        listens := fun j hops => by
          simpa only [hconnections] using hs.listening hmoves hops
        locks := fun j => by
          simp only [hconnections]
          exact (not_congr (hsame j)).trans (hs.locks j)
        socketCnt := by
          simp only [countedSockets, hconnections, hcnt]
          exact hs.socketCnt }

/-- A handler begins to wait for the lock. -/
theorem Sound.begin (hs : s.Sound) {connection : Connection}
    (hidle : (s.connections k).locks = false)
    (hlocks : connection.locks = true)
    (hlistens : (s.connections k).listens = true →
      connection.listens = true)
    (hcounted : connection.isCounted = (s.connections k).isCounted) :
    ((s.call (.handler k) writeOnce).setConnection k connection).Sound where
  consistent := by
    have hdone : (s.threads (.handler k)).ops = [] := by
      by_contra hops
      rw [(hs.locks k).mp hops] at hidle
      cases hidle
    exact hs.consistent.call hdone trivial
  periodic := by simpa [call, setConnection] using hs.periodic
  listener := fun j => by simpa [call, setConnection] using hs.listener j
  handler := fun j => by
    by_cases hjk : j = k
    · simp [call, setConnection, hjk]
    · simpa [call, setConnection, hjk] using hs.handler j
  listens := fun j hops => by
    have hbefore := hs.listens j (by simpa [call, setConnection] using hops)
    by_cases hjk : j = k
    · subst hjk
      simpa [setConnection] using hlistens hbefore
    · simpa [call, setConnection, hjk] using hbefore
  locks := fun j => by
    by_cases hjk : j = k
    · simp [call, setConnection, hjk, hlocks, writeOnce]
    · simpa [call, setConnection, hjk] using hs.locks j
  socketCnt := by
    rw [countedSockets_setConnection_of_eq
      (s := s.call (.handler k) writeOnce) hcounted]
    exact hs.socketCnt

theorem Sound.setConnection (hs : s.Sound) {connection : Connection}
    (hlocks : connection.locks = (s.connections k).locks)
    (hlistens : (s.threads (.listener k)).ops ≠ [] →
      connection.listens = true)
    (hcounted : connection.isCounted = (s.connections k).isCounted) :
    (s.setConnection k connection).Sound where
  consistent := hs.consistent
  periodic := hs.periodic
  listener := hs.listener
  handler := hs.handler
  listens := fun j hops => by
    by_cases hjk : j = k
    · subst hjk
      simpa [Sockets.setConnection] using hlistens hops
    · simpa [Sockets.setConnection, hjk] using hs.listens j hops
  locks := fun j => by
    by_cases hjk : j = k
    · subst hjk
      simpa [Sockets.setConnection, hlocks] using hs.locks j
    · simpa [Sockets.setConnection, hjk] using hs.locks j
  socketCnt := by
    rw [countedSockets_setConnection_of_eq hcounted]
    exact hs.socketCnt

theorem Sound.acts (hs : s.Sound) {event : SocketEvent ι}
    (hacts : s.Acts event next) : next.Sound := by
  cases hacts with
  | tick hidle =>
      exact
        { consistent := hs.consistent.call hidle trivial
          periodic := by simp [beginRound, call]
          listener := fun j => by
            simpa [beginRound, call] using hs.listener j
          handler := fun j => by
            simpa [beginRound, call] using hs.handler j
          listens := fun j hops =>
            hs.listens j (by simpa [beginRound, call] using hops)
          locks := fun j => by simpa [beginRound, call] using hs.locks j
          socketCnt := hs.socketCnt }
  | @send k data hsending hselects =>
      exact
        { consistent := hs.consistent.call hselects.2 trivial
          periodic := by simpa [receive, call] using hs.periodic
          listener := fun j => by
            by_cases hjk : j = k
            · simp [receive, call, hjk]
            · simpa [receive, call, hjk] using hs.listener j
          handler := fun j => by simpa [receive, call] using hs.handler j
          listens := fun j hops => by
            by_cases hjk : j = k
            · subst hjk
              exact hselects.1
            · exact hs.listens j (by simpa [receive, call, hjk] using hops)
          locks := fun j => by simpa [receive, call] using hs.locks j
          socketCnt := hs.socketCnt }
  | lock _ hmoves => exact hs.lock hmoves
  | connection habsent =>
      apply hs.begin <;> simp [habsent, Connection.locks,
        Connection.listens, Connection.isCounted]
  | disconnection hconnected =>
      apply hs.begin <;> simp [hconnected, Connection.locks,
        Connection.listens, Connection.isCounted]
  | listen hcounted =>
      apply hs.setConnection <;> simp [hcounted, Connection.locks,
        Connection.listens, Connection.isCounted]
  | quit hleaving hselects =>
      apply hs.setConnection <;> simp [hleaving, hselects.2,
        Connection.locks, Connection.isCounted]

end Lemmas

end Sockets

end DronesmithEngine.StatusServer
