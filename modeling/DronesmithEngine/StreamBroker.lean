import DronesmithEngine.BroadcastRounds
import DronesmithEngine.LabelledRuns
import Mathlib.Tactic

/-!
# The telemetry stream

`apiservice/streamservice.go`: a broker goroutine owns the clients, and a
handler for each connection registers its channel with it, writes what comes
over the channel, and takes the channel back when the connection closes.  An
event goes round the clients, and a client that does not come for it in time
is skipped.  A client is known by the number of its handler.
-/

namespace DronesmithEngine.Apiservice

open LabelledRuns BroadcastRounds

variable {α : Type}

/-- Where the handler of a connection is.  It waits for the broker when it
arrives and when it closes. -/
inductive Streaming (α : Type)
  | absent
  | arriving
  | looping
  | receiving
  | writing (event : α)
  | closing
  | gone

/-- `written` is what went to the client, and `notified` that it closed. -/
structure StreamHandler (α : Type) where
  phase : Streaming α
  notified : Bool
  written : List α

/-- The loop of the broker over its clients is the round of `broadcast`, which
also has the rounds and visits that have been. -/
structure StreamBroker (α : Type) where
  Notifier : List α
  clients : Finset ℕ
  broadcast : Broadcaster α ℕ
  handlers : ℕ → StreamHandler α
  published : List α

inductive StreamEvent (α : Type)
  | publish (event : α)
  | connect (k : ℕ)
  | closeNotify (k : ℕ)
  | newClient (k : ℕ)
  | select (k : ℕ)
  | flush (k : ℕ)
  | closingClient (k : ℕ)
  | range (order : List ℕ)
  | deliver
  | skip
  | endRange

namespace Streaming

/-- The handler is between its two meetings with the broker. -/
def registered : Streaming α → Bool
  | .looping => true
  | .receiving => true
  | .writing _ => true
  | .closing => true
  | _ => false

/-- The event that a handler has taken and not written. -/
def inHand : Streaming α → List α
  | .writing event => [event]
  | _ => []

end Streaming

namespace StreamBroker

def NewStreamListener : StreamBroker α where
  Notifier := []
  clients := ∅
  broadcast := .new
  handlers _ := ⟨.absent, false, []⟩
  published := []

def setHandler (s : StreamBroker α) (k : ℕ) (h : StreamHandler α) :
    StreamBroker α :=
  { s with handlers := Function.update s.handlers k h }

def setPhase (s : StreamBroker α) (k : ℕ) (phase : Streaming α) :
    StreamBroker α :=
  s.setHandler k { s.handlers k with phase := phase }

section

variable (s : StreamBroker α) (k : ℕ) (h : StreamHandler α)
  (phase : Streaming α)

@[simp] theorem setHandler_self : (s.setHandler k h).handlers k = h :=
  Function.update_self ..

theorem setHandler_of_ne {other : ℕ} (hother : other ≠ k) :
    (s.setHandler k h).handlers other = s.handlers other :=
  Function.update_of_ne hother ..

@[simp] theorem setPhase_self :
    (s.setPhase k phase).handlers k = { s.handlers k with phase := phase } :=
  s.setHandler_self k _

theorem setPhase_of_ne {other : ℕ} (hother : other ≠ k) :
    (s.setPhase k phase).handlers other = s.handlers other :=
  s.setHandler_of_ne k _ hother

@[simp] theorem setPhase_clients : (s.setPhase k phase).clients = s.clients :=
  rfl

@[simp] theorem setPhase_broadcast :
    (s.setPhase k phase).broadcast = s.broadcast := rfl

end

/-- The channel `Notifier` has room for one event. -/
def publish (s : StreamBroker α) (event : α) : Option (StreamBroker α) :=
  if s.Notifier.length < 1 then
    some
      { s with
        Notifier := s.Notifier ++ [event]
        published := s.published ++ [event] }
  else none

def newClient (s : StreamBroker α) (k : ℕ) : Option (StreamBroker α) :=
  match s.broadcast.underway, (s.handlers k).phase with
  | none, .arriving =>
      some { s.setPhase k .looping with clients := insert k s.clients }
  | _, _ => none

def closingClient (s : StreamBroker α) (k : ℕ) : Option (StreamBroker α) :=
  match s.broadcast.underway, (s.handlers k).phase with
  | none, .closing =>
      some { s.setPhase k .gone with clients := s.clients.erase k }
  | _, _ => none

/-- The `select` of a handler goes on to receive unless the connection has
closed. -/
def select (s : StreamBroker α) (k : ℕ) : Option (StreamBroker α) :=
  match (s.handlers k).phase with
  | .looping =>
      some (s.setPhase k
        (if (s.handlers k).notified then .closing else .receiving))
  | _ => none

def flush (s : StreamBroker α) (k : ℕ) : Option (StreamBroker α) :=
  match (s.handlers k).phase with
  | .writing event =>
      some (s.setHandler k
        { s.handlers k with
          phase := .looping
          written := (s.handlers k).written ++ [event] })
  | _ => none

def range (s : StreamBroker α) (order : List ℕ) : Option (StreamBroker α) :=
  match s.broadcast.underway, s.Notifier with
  | none, event :: rest =>
      if (order : Multiset ℕ) = s.clients.val then
        some
          { s with
            Notifier := rest
            broadcast := s.broadcast.start ⟨event, order⟩ }
      else none
  | _, _ => none

def deliver (s : StreamBroker α) : Option (StreamBroker α) :=
  match s.broadcast.underway with
  | some ⟨event, k :: left⟩ =>
      match (s.handlers k).phase with
      | .receiving =>
          some
            { s.setPhase k (.writing event) with
              broadcast := s.broadcast.visit event k left true }
      | _ => none
  | _ => none

/-- The patience with a client has ended.  Where the client receives by then,
the `select` may still take this case. -/
def skip (s : StreamBroker α) : Option (StreamBroker α) :=
  match s.broadcast.underway with
  | some ⟨event, k :: left⟩ =>
      some { s with broadcast := s.broadcast.visit event k left false }
  | _ => none

def endRange (s : StreamBroker α) : Option (StreamBroker α) :=
  match s.broadcast.underway with
  | some ⟨_, []⟩ => some { s with broadcast := s.broadcast.finish }
  | _ => none

def step (s : StreamBroker α) : StreamEvent α → Option (StreamBroker α)
  | .publish event => s.publish event
  | .connect k =>
      match (s.handlers k).phase with
      | .absent => some (s.setPhase k .arriving)
      | _ => none
  | .closeNotify k =>
      some (s.setHandler k { s.handlers k with notified := true })
  | .newClient k => s.newClient k
  | .select k => s.select k
  | .flush k => s.flush k
  | .closingClient k => s.closingClient k
  | .range order => s.range order
  | .deliver => s.deliver
  | .skip => s.skip
  | .endRange => s.endRange

/-! ## What a step does -/

inductive Steps (s : StreamBroker α) : StreamEvent α → StreamBroker α → Prop
  | published {event : α} (hroom : s.Notifier.length < 1) :
      Steps s (.publish event)
        { s with
          Notifier := s.Notifier ++ [event]
          published := s.published ++ [event] }
  | connected {k : ℕ} (hphase : (s.handlers k).phase = .absent) :
      Steps s (.connect k) (s.setPhase k .arriving)
  | closed {k : ℕ} :
      Steps s (.closeNotify k)
        (s.setHandler k { s.handlers k with notified := true })
  | added {k : ℕ} (hfree : s.broadcast.underway = none)
      (hphase : (s.handlers k).phase = .arriving) :
      Steps s (.newClient k)
        { s.setPhase k .looping with clients := insert k s.clients }
  | selected {k : ℕ} {phase : Streaming α}
      (hphase : (s.handlers k).phase = .looping)
      (hnext : phase = .closing ∨ phase = .receiving) :
      Steps s (.select k) (s.setPhase k phase)
  | flushed {k : ℕ} {event : α}
      (hphase : (s.handlers k).phase = .writing event) :
      Steps s (.flush k)
        (s.setHandler k
          { s.handlers k with
            phase := .looping
            written := (s.handlers k).written ++ [event] })
  | removed {k : ℕ} (hfree : s.broadcast.underway = none)
      (hphase : (s.handlers k).phase = .closing) :
      Steps s (.closingClient k)
        { s.setPhase k .gone with clients := s.clients.erase k }
  | began {event : α} {rest : List α} {order : List ℕ}
      (hfree : s.broadcast.underway = none)
      (hnotifier : s.Notifier = event :: rest)
      (horder : (order : Multiset ℕ) = s.clients.val) :
      Steps s (.range order)
        { s with
          Notifier := rest
          broadcast := s.broadcast.start ⟨event, order⟩ }
  | delivered {event : α} {k : ℕ} {left : List ℕ}
      (hround : s.broadcast.underway = some ⟨event, k :: left⟩)
      (hphase : (s.handlers k).phase = .receiving) :
      Steps s .deliver
        { s.setPhase k (.writing event) with
          broadcast := s.broadcast.visit event k left true }
  | skipped {event : α} {k : ℕ} {left : List ℕ}
      (hround : s.broadcast.underway = some ⟨event, k :: left⟩) :
      Steps s .skip
        { s with broadcast := s.broadcast.visit event k left false }
  | ended {event : α} (hround : s.broadcast.underway = some ⟨event, []⟩) :
      Steps s .endRange { s with broadcast := s.broadcast.finish }

theorem step_cases {s next : StreamBroker α} {event : StreamEvent α}
    (hstep : s.step event = some next) : Steps s event next := by
  cases event with
  | publish event =>
      simp only [step, publish] at hstep
      split at hstep
      next hroom =>
        cases hstep
        exact .published hroom
      next => cases hstep
  | connect k =>
      simp only [step] at hstep
      split at hstep
      next hphase =>
        cases hstep
        exact .connected hphase
      next => cases hstep
  | closeNotify k =>
      cases hstep
      exact .closed
  | newClient k =>
      simp only [step, newClient] at hstep
      split at hstep
      next hfree hphase =>
        cases hstep
        exact .added hfree hphase
      next => cases hstep
  | select k =>
      simp only [step, select] at hstep
      split at hstep
      next hphase =>
        cases hstep
        refine .selected hphase ?_
        split
        · exact Or.inl rfl
        · exact Or.inr rfl
      next => cases hstep
  | flush k =>
      simp only [step, flush] at hstep
      split at hstep
      next hphase =>
        cases hstep
        exact .flushed hphase
      next => cases hstep
  | closingClient k =>
      simp only [step, closingClient] at hstep
      split at hstep
      next hfree hphase =>
        cases hstep
        exact .removed hfree hphase
      next => cases hstep
  | range order =>
      simp only [step, range] at hstep
      split at hstep
      next hfree hnotifier =>
        split at hstep
        next horder =>
          cases hstep
          exact .began hfree hnotifier horder
        next => cases hstep
      next => cases hstep
  | deliver =>
      simp only [step, deliver] at hstep
      split at hstep
      next hround =>
        split at hstep
        next hphase =>
          cases hstep
          exact .delivered hround hphase
        next => cases hstep
      next => cases hstep
  | skip =>
      simp only [step, skip] at hstep
      split at hstep
      next hround =>
        cases hstep
        exact .skipped hround
      next => cases hstep
  | endRange =>
      simp only [step, endRange] at hstep
      split at hstep
      next hround =>
        cases hstep
        exact .ended hround
      next => cases hstep

/-! ## What the clients are written -/

structure Serves (s : StreamBroker α) : Prop where
  published : s.broadcast.rounds.map Round.message ++ s.Notifier = s.published
  room : s.Notifier.length ≤ 1
  registered : ∀ k, k ∈ s.clients ↔ (s.handlers k).phase.registered
  accounted : s.broadcast.Accounted
  subscribed : ∀ r ∈ s.broadcast.underway, ∀ k ∈ r.subscribers,
    k ∈ s.clients
  heard : ∀ k, (s.handlers k).written ++ (s.handlers k).phase.inHand =
    s.broadcast.deliveredTo k

theorem new_serves : (NewStreamListener : StreamBroker α).Serves where
  published := rfl
  room := Nat.zero_le _
  registered _ := by simp [NewStreamListener, Streaming.registered]
  accounted := Broadcaster.accounted_new
  subscribed _ hr := by cases hr
  heard _ := rfl

variable {s next : StreamBroker α} {event : StreamEvent α}

/-- A handler goes on, registered or not as before and with the same events
heard. -/
theorem Serves.setHandler (hs : s.Serves) {k : ℕ} {h : StreamHandler α}
    (hregistered : h.phase.registered = (s.handlers k).phase.registered)
    (hheard : h.written ++ h.phase.inHand =
      (s.handlers k).written ++ (s.handlers k).phase.inHand) :
    (s.setHandler k h).Serves where
  published := hs.published
  room := hs.room
  registered other := by
    by_cases hother : other = k
    · subst hother
      rw [setHandler_self, hregistered]
      exact hs.registered other
    · rw [setHandler_of_ne s k h hother]
      exact hs.registered other
  accounted := hs.accounted
  subscribed := hs.subscribed
  heard other := by
    by_cases hother : other = k
    · subst hother
      rw [setHandler_self, hheard]
      exact hs.heard other
    · rw [setHandler_of_ne s k h hother]
      exact hs.heard other

theorem Serves.setPhase (hs : s.Serves) {k : ℕ} {phase : Streaming α}
    (hregistered : phase.registered = (s.handlers k).phase.registered)
    (hhand : phase.inHand = (s.handlers k).phase.inHand) :
    (s.setPhase k phase).Serves :=
  hs.setHandler hregistered (congrArg _ hhand)

theorem Serves.newClient (hs : s.Serves) {k : ℕ}
    (hfree : s.broadcast.underway = none)
    (hphase : (s.handlers k).phase = .arriving) :
    Serves { s.setPhase k .looping with clients := insert k s.clients } where
  published := hs.published
  room := hs.room
  registered other := by
    rw [Finset.mem_insert]
    by_cases hother : other = k
    · subst hother
      simp [Streaming.registered]
    · simp only [setPhase_of_ne s k _ hother, hother,
        false_or]
      exact hs.registered other
  accounted := hs.accounted
  subscribed r hr := by
    have hnone : r ∈ s.broadcast.underway := hr
    rw [hfree] at hnone
    cases hnone
  heard other := by
    have hheard := hs.heard other
    by_cases hother : other = k
    · subst hother
      rw [hphase] at hheard
      simpa [Streaming.inHand] using hheard
    · simpa only [setPhase_of_ne s k _ hother, setPhase_broadcast] using hheard

theorem Serves.closingClient (hs : s.Serves) {k : ℕ}
    (hfree : s.broadcast.underway = none)
    (hphase : (s.handlers k).phase = .closing) :
    Serves { s.setPhase k .gone with clients := s.clients.erase k } where
  published := hs.published
  room := hs.room
  registered other := by
    rw [Finset.mem_erase]
    by_cases hother : other = k
    · subst hother
      simp [Streaming.registered]
    · simp only [setPhase_of_ne s k _ hother, hother,
        ne_eq, not_false_eq_true, true_and]
      exact hs.registered other
  accounted := hs.accounted
  subscribed r hr := by
    have hnone : r ∈ s.broadcast.underway := hr
    rw [hfree] at hnone
    cases hnone
  heard other := by
    have hheard := hs.heard other
    by_cases hother : other = k
    · subst hother
      rw [hphase] at hheard
      simpa [Streaming.inHand] using hheard
    · simpa only [setPhase_of_ne s k _ hother, setPhase_broadcast] using hheard

theorem Serves.deliver (hs : s.Serves) {event : α} {k : ℕ} {left : List ℕ}
    (hround : s.broadcast.underway = some ⟨event, k :: left⟩)
    (hphase : (s.handlers k).phase = .receiving) :
    Serves
      { s.setPhase k (.writing event) with
        broadcast := s.broadcast.visit event k left true } where
  published := hs.published
  room := hs.room
  registered other := by
    have hregistered := hs.registered other
    by_cases hother : other = k
    · subst hother
      rw [hphase] at hregistered
      simpa [Streaming.registered] using hregistered
    · simpa only [setPhase_of_ne s k _ hother, setPhase_clients]
        using hregistered
  accounted := hs.accounted.visit hround true
  subscribed r hr other hother := by
    cases hr
    exact hs.subscribed _ hround other (List.mem_cons_of_mem _ hother)
  heard other := by
    have hheard := hs.heard other
    rw [Broadcaster.deliveredTo_visit, ← hheard]
    by_cases hother : other = k
    · subst hother
      simp [hphase, Streaming.inHand]
    · simp [hother, setPhase_of_ne s k _ hother]

theorem Serves.step (hs : s.Serves) (hstep : s.step event = some next) :
    next.Serves := by
  cases step_cases hstep with
  | published hroom =>
      refine ⟨?_, ?_, hs.registered, hs.accounted, hs.subscribed, hs.heard⟩
      · rw [← hs.published, List.append_assoc]
      · rw [List.length_append]
        exact hroom
  | connected hphase =>
      exact hs.setPhase (by rw [hphase]; rfl) (by rw [hphase]; rfl)
  | closed => exact hs.setHandler rfl rfl
  | added hfree hphase => exact hs.newClient hfree hphase
  | selected hphase hnext =>
      rcases hnext with rfl | rfl
      · exact hs.setPhase (by rw [hphase]; rfl) (by rw [hphase]; rfl)
      · exact hs.setPhase (by rw [hphase]; rfl) (by rw [hphase]; rfl)
  | flushed hphase =>
      refine hs.setHandler (by rw [hphase]; rfl) ?_
      rw [hphase, List.append_assoc]
      rfl
  | removed hfree hphase => exact hs.closingClient hfree hphase
  | @began event rest order hfree hnotifier horder =>
      refine ⟨?_, ?_, hs.registered, ?_, ?_, hs.heard⟩
      · rw [← hs.published, hnotifier]
        simp [Broadcaster.start]
      · have hroom := hs.room
        rw [hnotifier] at hroom
        exact (Nat.le_succ _).trans hroom
      · refine hs.accounted.start hfree (r := ⟨event, order⟩) ?_
        rw [← Multiset.coe_nodup, horder]
        exact s.clients.nodup
      · intro r hr k hk
        cases hr
        rw [← Multiset.mem_coe, horder] at hk
        exact hk
  | delivered hround hphase => exact hs.deliver hround hphase
  | skipped hround =>
      refine ⟨hs.published, hs.room, hs.registered,
        hs.accounted.visit hround false, ?_, fun other => ?_⟩
      · intro r hr other hother
        cases hr
        exact hs.subscribed _ hround other (List.mem_cons_of_mem _ hother)
      · rw [Broadcaster.deliveredTo_visit, hs.heard other]
        simp
  | ended hround =>
      refine ⟨hs.published, hs.room, hs.registered,
        hs.accounted.finish hround, fun r hr => ?_, hs.heard⟩
      cases hr

/-- In every interleaving, what a client was written is a part of the events
whose rounds began while it was registered, in their order and none twice, and
all of them where it was never skipped.  The rounds are the published events
but the one that waits. -/
theorem clients_hear_rounds {events : List (StreamEvent α)}
    (hrun : Run step NewStreamListener events s) (k : ℕ) :
    ((s.handlers k).written ++ (s.handlers k).phase.inHand ++
        s.broadcast.pendingFor k).Sublist (s.broadcast.messagesFor k) ∧
      ((∀ v ∈ s.broadcast.visitsOf k, v.delivered) →
        (s.handlers k).written ++ (s.handlers k).phase.inHand ++
          s.broadcast.pendingFor k = s.broadcast.messagesFor k) ∧
      s.Serves := by
  have hs : s.Serves :=
    hrun.invariant (fun _ _ _ hs _ hstep => hs.step hstep) new_serves
  rw [hs.heard k]
  exact ⟨hs.accounted.delivered_sublist k, hs.accounted.delivered_all, hs⟩

/-- A client comes for one event and closes during the next. -/
theorem clients_hear_rounds_one :
    ∃ s : StreamBroker ℕ,
      Run step NewStreamListener
        [.connect 0, .newClient 0, .publish 7, .select 0, .range [0],
          .deliver, .endRange, .closeNotify 0, .publish 8, .range [0], .skip,
          .flush 0, .select 0] s ∧
      ((s.handlers 0).written ++ (s.handlers 0).phase.inHand ++
        s.broadcast.pendingFor 0).Sublist (s.broadcast.messagesFor 0) := by
  have hexec : (exec step (fun _ _ => True)
      (NewStreamListener : StreamBroker ℕ)
      [.connect 0, .newClient 0, .publish 7, .select 0, .range [0],
        .deliver, .endRange, .closeNotify 0, .publish 8, .range [0], .skip,
        .flush 0, .select 0]).isSome := by
    decide
  obtain ⟨s, hrun⟩ := GuardedRun.of_exec_isSome hexec
  exact ⟨s, hrun, (clients_hear_rounds hrun 0).1⟩

/-! ## Rounds come to an end -/

/-- The steps that the broker takes alone in a round, or with a handler that
receives. -/
def ofRound : StreamEvent α → Bool
  | .deliver => true
  | .skip => true
  | .endRange => true
  | _ => false

def isRange : StreamEvent α → Bool
  | .range _ => true
  | _ => false

/-- The steps to the end of the round that is under way. -/
def remaining (s : StreamBroker α) : ℕ :=
  s.broadcast.underway.elim 0 fun r => r.subscribers.length + 1

theorem remaining_step (hstep : s.step event = some next)
    (hrange : isRange event = false) :
    (if ofRound event then 1 else 0) + next.remaining = s.remaining := by
  cases step_cases hstep with
  | began hfree hnotifier horder => cases hrange
  | delivered hround hphase =>
      simp [remaining, hround, Broadcaster.visit, ofRound, Nat.add_comm 1]
  | skipped hround =>
      simp [remaining, hround, Broadcaster.visit, ofRound, Nat.add_comm 1]
  | ended hround => simp [remaining, hround, Broadcaster.finish, ofRound]
  | _ => exact Nat.zero_add _

theorem exists_round_step (hremaining : 0 < s.remaining) :
    ∃ event, ofRound event ∧ (s.step event).isSome := by
  cases hround : s.broadcast.underway with
  | none => simp [remaining, hround] at hremaining
  | some r =>
      obtain ⟨event, left⟩ := r
      cases left with
      | nil => exact ⟨.endRange, rfl, by simp [step, endRange, hround]⟩
      | cons k left => exact ⟨.skip, rfl, by simp [step, skip, hround]⟩

/-- From every state and in every interleaving, the round that is under way
ends after as many of its steps as it has clients left and one more, one of
these steps is possible all the time, and after them the broker takes whatever
waits for it: a client to add, a client to remove, or an event. -/
theorem broker_serves {events : List (StreamEvent α)}
    (hrun : Run step s events next)
    (hrange : ∀ event ∈ events, isRange event = false) :
    events.countP ofRound + next.remaining = s.remaining ∧
      (0 < next.remaining →
        ∃ event, ofRound event ∧ (next.step event).isSome) ∧
      (next.remaining = 0 →
        (∀ k, (next.handlers k).phase = .arriving →
          (next.step (.newClient k)).isSome) ∧
        (∀ k, (next.handlers k).phase = .closing →
          (next.step (.closingClient k)).isSome) ∧
        (next.Notifier ≠ [] →
          ∃ order, (next.step (.range order)).isSome)) := by
  refine ⟨?_, exists_round_step, fun hzero => ?_⟩
  · induction hrun with
    | nil => exact Nat.zero_add _
    | snoc _ _ hstep ih =>
        obtain ⟨hbefore, hlast⟩ := List.forall_mem_append.mp hrange
        have hone := remaining_step hstep (hlast _ (List.mem_singleton.mpr rfl))
        have hall := ih hbefore
        rw [List.countP_append, List.countP_singleton]
        omega
  · have hfree : next.broadcast.underway = none := by
      cases hround : next.broadcast.underway with
      | none => rfl
      | some r => simp [remaining, hround] at hzero
    refine ⟨fun k hphase => ?_, fun k hphase => ?_, fun hsome => ?_⟩
    · simp [step, newClient, hfree, hphase]
    · simp [step, closingClient, hfree, hphase]
    · obtain ⟨event, rest, hnotifier⟩ := List.exists_cons_of_ne_nil hsome
      refine ⟨next.clients.val.toList, ?_⟩
      simp [step, range, hfree, hnotifier]

/-- An event is published while a client arrives. -/
theorem broker_serves_arriving :
    ∃ s : StreamBroker ℕ,
      Run step NewStreamListener [.connect 0, .publish 7] s ∧
      [StreamEvent.connect 0, .publish 7].countP ofRound + s.remaining =
        (NewStreamListener : StreamBroker ℕ).remaining := by
  have hexec : (exec step (fun _ _ => True)
      (NewStreamListener : StreamBroker ℕ) [.connect 0, .publish 7]).isSome := by
    decide
  obtain ⟨s, hrun⟩ := GuardedRun.of_exec_isSome hexec
  exact ⟨s, hrun, (broker_serves hrun (by decide)).1⟩

end StreamBroker

end DronesmithEngine.Apiservice
