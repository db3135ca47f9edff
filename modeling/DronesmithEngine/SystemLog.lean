import DronesmithEngine.LabelledRuns
import DronesmithEngine.VehicleInit
import Mathlib.Tactic

/-!
# Draining the system log

`GetSysLog` of `vehicle/vehicle.go`, called by any number of requests while
messages come in.  Each call of a method of the deque is one step, so between
the test of `Empty` and the `Pop` that follows it other calls may pop.
-/

namespace DronesmithEngine

open Go Mavlink Utils Api LabelledRuns

/-! ## What a packet does to the log -/

def logOf (m : Statustext) (now : Time) : VehicleLog where
  Msg := m.Text.toList
  Time := now
  Level := m.Severity.toUInt64

def logOfPacket (p : Packet) (now : Time) : Option VehicleLog :=
  match wholeMessage p with
  | some (.statustext m) => some (logOf m now)
  | _ => none

namespace Vehicle

/-- The log after a message, with the entry that was stored. -/
def storeLog (q : Deque VehicleLog) :
    Option VehicleLog → List VehicleLog × Deque VehicleLog
  | none => ([], q)
  | some log =>
      match q.Prepend log with
      | (true, q) => ([log], q)
      | (false, q) => ([], q)

theorem adoptSystem_syslogQueue (v : Vehicle) (p : Packet) :
    (v.adoptSystem p).syslogQueue = v.syslogQueue := by
  unfold adoptSystem
  split <;> rfl

theorem UpdateFromAck_syslogQueue (v : Vehicle) (m : CommandAck) :
    (v.UpdateFromAck m).syslogQueue = v.syslogQueue := by
  unfold UpdateFromAck
  split
  · rfl
  · split <;> rfl

theorem processPacket_syslogQueue (v : Vehicle) (p : Packet) (now : Time) :
    (v.processPacket p now).syslogQueue =
      (storeLog v.syslogQueue (logOfPacket p now)).2 := by
  have hadopt := v.adoptSystem_syslogQueue p
  rw [processPacket_eq, logOfPacket, wholeMessage]
  cases readMessage p with
  | none => exact hadopt
  | some read =>
      obtain ⟨err, m⟩ := read
      cases m with
      | statustext m =>
          simp only [Option.map_some, applyMessage, hadopt, storeLog]
          rcases v.syslogQueue.Prepend_cases (logOf m now) with hput | hfull
          · rw [hput]
            exact congrArg Prod.snd hput
          · rw [hfull]
            exact congrArg Prod.snd hfull
      | commandAck m =>
          exact (UpdateFromAck_syslogQueue _ m).trans hadopt
      | _ => exact hadopt

end Vehicle

/-! ## Calls that drain the log -/

inductive DrainPhase
  | testing
  | popping
  | returned
  | panicked
  deriving DecidableEq

/-- A call of `GetSysLog`, with what it has collected. -/
structure LogCall where
  phase : DrainPhase
  log : List VehicleLog

/-- The run records what was stored, in the order of receipt, and what was
popped, with the call that popped it. -/
structure LogRun where
  vehicle : Vehicle
  calls : List LogCall
  stored : List VehicleLog
  taken : List (ℕ × VehicleLog)

inductive LogEvent
  | packet (p : Packet) (now : Time)
  | GetSysLog
  | callEmpty (k : ℕ)
  | callPop (k : ℕ)

namespace LogRun

def initial (writer : Encoder) (now : Time) : LogRun where
  vehicle := Vehicle.NewVehicle writer now
  calls := []
  stored := []
  taken := []

def queue (s : LogRun) : Deque VehicleLog := s.vehicle.syslogQueue

def callIn (s : LogRun) (phase : DrainPhase) (k : ℕ) : Option LogCall :=
  s.calls[k]?.filter fun c => c.phase = phase

def receive (p : Packet) (now : Time) (s : LogRun) : LogRun :=
  { s with
    vehicle := s.vehicle.processPacket p now
    stored := s.stored ++ (Vehicle.storeLog s.queue (logOfPacket p now)).1 }

def callEmpty (k : ℕ) (s : LogRun) (c : LogCall) : LogRun :=
  let phase := if s.queue.Empty then .returned else .popping
  { s with calls := s.calls.set k { c with phase := phase } }

/-- The assertion of a nil interface panics. -/
def callPop (k : ℕ) (s : LogRun) (c : LogCall) : LogRun :=
  match s.queue.Pop with
  | (some item, q) =>
      { s with
        vehicle := { s.vehicle with syslogQueue := q }
        calls := s.calls.set k ⟨.testing, c.log ++ [item]⟩
        taken := s.taken ++ [(k, item)] }
  | (none, q) =>
      { s with
        vehicle := { s.vehicle with syslogQueue := q }
        calls := s.calls.set k { c with phase := .panicked } }

def step (s : LogRun) : LogEvent → Option LogRun
  | .packet p now => some (s.receive p now)
  | .GetSysLog => some { s with calls := s.calls ++ [⟨.testing, []⟩] }
  | .callEmpty k => (s.callIn .testing k).map (s.callEmpty k)
  | .callPop k => (s.callIn .popping k).map (s.callPop k)

/-! ### What is stored is popped once -/

/-- What was stored was popped or is in the queue, oldest first; and each
call has collected what it popped. -/
structure Accounts (s : LogRun) : Prop where
  order : s.stored = s.taken.map Prod.snd ++ s.queue.container.reverse
  logs : ∀ k c, s.calls[k]? = some c →
    c.log = (s.taken.filter fun t => t.1 = k).map Prod.snd
  owners : ∀ t ∈ s.taken, t.1 < s.calls.length

theorem callIn_eq_some {s : LogRun} {phase : DrainPhase} {k : ℕ}
    {c : LogCall} (hc : s.callIn phase k = some c) :
    s.calls[k]? = some c ∧ c.phase = phase := by
  simpa [callIn, Option.filter_eq_some_iff] using hc

theorem Accounts.receive {s : LogRun} (hs : s.Accounts) (p : Packet)
    (now : Time) : (s.receive p now).Accounts where
  order := by
    have hqueue := s.vehicle.processPacket_syslogQueue p now
    have horder := hs.order
    simp only [LogRun.receive, LogRun.queue, hqueue] at horder ⊢
    rw [horder]
    cases logOfPacket p now with
    | none => exact List.append_nil _
    | some log =>
        simp only [Vehicle.storeLog]
        rcases s.vehicle.syslogQueue.Prepend_cases log with hput | hfull
        · rw [hput]
          simp
        · rw [hfull]
          exact List.append_nil _
  logs := hs.logs
  owners := hs.owners

theorem Accounts.call {s : LogRun} (hs : s.Accounts) :
    ({ s with calls := s.calls ++ [⟨.testing, []⟩] } : LogRun).Accounts where
  order := hs.order
  logs := by
    intro k c hc
    rcases lt_trichotomy k s.calls.length with hlt | heq | hgt
    · rw [List.getElem?_append_left hlt] at hc
      exact hs.logs k c hc
    · subst heq
      rw [List.getElem?_concat_length, Option.some.injEq] at hc
      rw [← hc, List.filter_eq_nil_iff.mpr]
      · rfl
      · intro t ht
        simpa using (hs.owners t ht).ne
    · rw [List.getElem?_eq_none (by simpa using hgt)] at hc
      cases hc
  owners := by
    intro t ht
    rw [List.length_append]
    exact Nat.lt_add_right _ (hs.owners t ht)

/-- Only the phase of a call changes. -/
theorem Accounts.phase {s : LogRun} (hs : s.Accounts) {k : ℕ} {c : LogCall}
    (hc : s.calls[k]? = some c) (phase : DrainPhase) :
    ({ s with calls := s.calls.set k { c with phase := phase } } :
      LogRun).Accounts where
  order := hs.order
  logs := by
    intro j d hd
    rw [List.getElem?_set] at hd
    split at hd
    next heq =>
      subst heq
      split at hd
      · cases hd
        exact hs.logs k c hc
      · cases hd
    next => exact hs.logs j d hd
  owners := by
    intro t ht
    rw [List.length_set]
    exact hs.owners t ht

theorem Accounts.pop {s : LogRun} (hs : s.Accounts) {k : ℕ} {c : LogCall}
    (hc : s.calls[k]? = some c) : (s.callPop k c).Accounts := by
  unfold callPop
  rcases s.queue.Pop_cases with ⟨-, hnone⟩ | ⟨front, item, hlast, hsome⟩
  · rw [hnone]
    exact hs.phase hc .panicked
  · rw [hsome]
    refine ⟨?_, ?_, ?_⟩
    · rw [hs.order, hlast]
      simp [queue]
    · intro j d hd
      simp only [List.filter_append, List.map_append]
      rw [List.getElem?_set] at hd
      split at hd
      next heq =>
        subst heq
        split at hd
        · cases hd
          simp [hs.logs k c hc]
        · cases hd
      next hne =>
        rw [hs.logs j d hd]
        simp [hne]
    · intro t ht
      rw [List.length_set]
      rcases List.mem_append.mp ht with hold | hnew
      · exact hs.owners t hold
      · rw [List.mem_singleton.mp hnew]
        exact (List.getElem?_eq_some_iff.mp hc).1

theorem Accounts.step {s next : LogRun} {event : LogEvent} (hs : s.Accounts)
    (hstep : s.step event = some next) : next.Accounts := by
  cases event with
  | packet p now =>
      cases hstep
      exact hs.receive p now
  | GetSysLog =>
      cases hstep
      exact hs.call
  | callEmpty k =>
      obtain ⟨c, hc, rfl⟩ := Option.map_eq_some_iff.mp hstep
      exact hs.phase (callIn_eq_some hc).1 _
  | callPop k =>
      obtain ⟨c, hc, rfl⟩ := Option.map_eq_some_iff.mp hstep
      exact hs.pop (callIn_eq_some hc).1

theorem accounts_of_run {writer : Encoder} {now : Time}
    {events : List LogEvent} {s : LogRun}
    (hrun : Run step (initial writer now) events s) : s.Accounts :=
  hrun.invariant (fun _ _ _ hs _ hstep => hs.step hstep)
    ⟨rfl, by intro k c hc; simp [initial] at hc, by rintro t ⟨⟩⟩

/-! ### Panics -/

def Panicked (s : LogRun) : Prop := ∃ c ∈ s.calls, c.phase = .panicked

/-- No other call has emptied the queue since this one found an entry. -/
def NotRaced (s : LogRun) : LogEvent → Prop
  | .callPop _ => ¬ s.queue.Empty
  | _ => True

instance (s : LogRun) : ∀ event, Decidable (s.NotRaced event)
  | .callPop _ => inferInstanceAs (Decidable (¬ _))
  | .packet _ _ => .isTrue trivial
  | .GetSysLog => .isTrue trivial
  | .callEmpty _ => .isTrue trivial

/-- Changing a call that has not panicked. -/
theorem panicked_set_iff {s : LogRun} {k : ℕ} {c : LogCall}
    (hc : s.calls[k]? = some c) (hphase : c.phase ≠ .panicked)
    (c' : LogCall) :
    (∃ d ∈ s.calls.set k c', d.phase = .panicked) ↔
      s.Panicked ∨ c'.phase = .panicked := by
  obtain ⟨hlt, hget⟩ := List.getElem?_eq_some_iff.mp hc
  constructor
  · rintro ⟨d, hd, hpanicked⟩
    rcases List.mem_or_eq_of_mem_set hd with hold | rfl
    · exact Or.inl ⟨d, hold, hpanicked⟩
    · exact Or.inr hpanicked
  · rintro (⟨d, hd, hpanicked⟩ | hpanicked)
    · obtain ⟨j, hj, hjd⟩ := List.mem_iff_getElem.mp hd
      have hne : k ≠ j := by
        rintro rfl
        rw [hget] at hjd
        exact hphase (hjd ▸ hpanicked)
      refine ⟨d, List.mem_iff_getElem?.mpr ⟨j, ?_⟩, hpanicked⟩
      rw [List.getElem?_set_ne hne, List.getElem?_eq_getElem hj, hjd]
    · exact ⟨c', List.mem_set hlt c', hpanicked⟩

/-- A step leaves the calls that have panicked, and adds one exactly where a
call pops from an empty queue. -/
theorem panicked_step_iff {s next : LogRun} {event : LogEvent}
    (hstep : s.step event = some next) :
    next.Panicked ↔ s.Panicked ∨ ¬ s.NotRaced event := by
  cases event with
  | packet p now =>
      cases hstep
      simp [NotRaced, Panicked, receive]
  | GetSysLog =>
      cases hstep
      simp [NotRaced, Panicked, or_and_right, exists_or]
  | callEmpty k =>
      obtain ⟨c, hc, rfl⟩ := Option.map_eq_some_iff.mp hstep
      obtain ⟨hget, hphase⟩ := callIn_eq_some hc
      refine (panicked_set_iff hget (by rw [hphase]; decide) _).trans ?_
      refine or_congr Iff.rfl ?_
      simp only [NotRaced, not_true_eq_false, iff_false]
      split <;> decide
  | callPop k =>
      obtain ⟨c, hc, rfl⟩ := Option.map_eq_some_iff.mp hstep
      obtain ⟨hget, hphase⟩ := callIn_eq_some hc
      have hset := panicked_set_iff hget (by rw [hphase]; decide)
      simp only [NotRaced, not_not]
      unfold callPop
      rcases s.queue.Pop_cases with ⟨hempty, hnone⟩ | ⟨front, item, hlast, hsome⟩
      · rw [hnone]
        refine (hset _).trans (or_congr Iff.rfl ?_)
        exact iff_of_true rfl hempty
      · rw [hsome]
        refine (hset _).trans (or_congr Iff.rfl ?_)
        exact iff_of_false nofun (Deque.not_empty_of_concat hlast)

/-! ### Exactly one call returns an entry -/

/-- What the calls are to do: none panics, each entry that was stored is in
the log of one call or still in the queue, and the log of a call is in the
order of receipt. -/
structure DrainsOnce (s : LogRun) : Prop where
  noPanic : ∀ c ∈ s.calls, c.phase ≠ .panicked
  once : s.stored.Perm (s.calls.flatMap LogCall.log ++ s.queue.container)
  inOrder : ∀ c ∈ s.calls, c.log.Sublist s.stored

/-- What the first `n` calls have popped. -/
theorem takenBelow_perm (taken : List (ℕ × VehicleLog)) (n : ℕ) :
    (taken.filter fun t => t.1 < n).Perm
      ((List.range n).flatMap fun k => taken.filter fun t => t.1 = k) := by
  induction n with
  | zero => simp
  | succ n ih =>
      rw [List.range_succ, List.flatMap_append, List.flatMap_singleton]
      have hsplit := List.filter_append_perm (fun t => decide (t.1 < n))
        (taken.filter fun t => t.1 < n + 1)
      rw [List.filter_filter, List.filter_filter] at hsplit
      have hbelow : (fun t : ℕ × VehicleLog =>
          decide (t.1 < n) && decide (t.1 < n + 1)) =
            fun t => decide (t.1 < n) := by
        funext t
        grind
      have hlast : (fun t : ℕ × VehicleLog =>
          !decide (t.1 < n) && decide (t.1 < n + 1)) =
            fun t => decide (t.1 = n) := by
        funext t
        grind
      rw [hbelow, hlast] at hsplit
      exact hsplit.symm.trans (ih.append_right _)

theorem Accounts.calls_log {s : LogRun} (hs : s.Accounts) :
    s.calls.map LogCall.log =
      (List.range s.calls.length).map fun k =>
        (s.taken.filter fun t => t.1 = k).map Prod.snd := by
  refine List.ext_getElem (by simp) ?_
  intro k hk _
  rw [List.length_map] at hk
  rw [List.getElem_map, List.getElem_map, List.getElem_range]
  exact hs.logs k _ (List.getElem?_eq_getElem hk)

theorem Accounts.once {s : LogRun} (hs : s.Accounts) :
    s.stored.Perm (s.calls.flatMap LogCall.log ++ s.queue.container) := by
  have hall : (s.taken.filter fun t => t.1 < s.calls.length) = s.taken :=
    List.filter_eq_self.mpr fun t ht => decide_eq_true (hs.owners t ht)
  have hperm := takenBelow_perm s.taken s.calls.length
  rw [hall] at hperm
  rw [hs.order, List.flatMap_def, hs.calls_log, ← List.flatMap_def]
  refine List.Perm.append ?_ (List.reverse_perm _)
  rw [← List.map_flatMap]
  exact hperm.map _

theorem Accounts.inOrder {s : LogRun} (hs : s.Accounts) :
    ∀ c ∈ s.calls, c.log.Sublist s.stored := by
  intro c hc
  obtain ⟨k, hk⟩ := List.mem_iff_getElem?.mp hc
  rw [hs.logs k c hk, hs.order]
  exact (List.filter_sublist.map _).trans (List.sublist_append_left _ _)

theorem drainsOnce_iff {writer : Encoder} {now : Time}
    {events : List LogEvent} {s : LogRun}
    (hrun : Run step (initial writer now) events s) :
    s.DrainsOnce ↔ ¬ s.Panicked := by
  have hs := accounts_of_run hrun
  constructor
  · rintro ⟨hnone, -, -⟩ ⟨c, hc, hpanicked⟩
    exact hnone c hc hpanicked
  · intro hnone
    exact ⟨fun c hc hpanicked => hnone ⟨c, hc, hpanicked⟩, hs.once, hs.inOrder⟩

/-- A call that has not returned has a step to take, so no call waits for
another. -/
theorem call_enabled {s : LogRun} {k : ℕ} {c : LogCall}
    (hc : s.calls[k]? = some c)
    (hphase : c.phase = .testing ∨ c.phase = .popping) :
    (s.step (.callEmpty k)).isSome ∨ (s.step (.callPop k)).isSome := by
  rcases hphase with htesting | hpopping
  · exact Or.inl (by simp [step, callIn, hc, htesting])
  · exact Or.inr (by simp [step, callIn, hc, hpopping])

theorem run_drainsOnce_iff {writer : Encoder} {now : Time}
    {events : List LogEvent} {s : LogRun}
    (hrun : Run step (initial writer now) events s) :
    GuardedRun step NotRaced (initial writer now) events s ↔
      s.DrainsOnce := by
  have hkeep : ∀ (state : LogRun) (event : LogEvent) (next : LogRun),
      step state event = some next →
        (¬ next.Panicked ↔ ¬ state.Panicked ∧ state.NotRaced event) := by
    intro state event next hstep
    rw [panicked_step_iff hstep, not_or, not_not]
  have hstart : ¬ (initial writer now).Panicked := by
    rintro ⟨c, hc, -⟩
    cases hc
  rw [drainsOnce_iff hrun]
  exact GuardedRun.iff_holds hkeep hstart hrun

/-- A message with the text "A". -/
def statustextA : Packet :=
  ⟨0, 1, 1, MSG_ID_STATUSTEXT, 6 :: 65 :: List.replicate 49 0, 0⟩

theorem run_drainsOnce_iff_single :
    ∃ s, GuardedRun step NotRaced (initial (NewEncoder none) 0)
        [.packet statustextA 7, .GetSysLog, .callEmpty 0, .callPop 0,
          .callEmpty 0] s ∧
      s.DrainsOnce := by
  have hexec : (exec step NotRaced (initial (NewEncoder none) 0)
      [.packet statustextA 7, .GetSysLog, .callEmpty 0, .callPop 0,
        .callEmpty 0]).isSome := by
    decide
  obtain ⟨s, hrun⟩ := GuardedRun.of_exec_isSome hexec
  exact ⟨s, hrun, (run_drainsOnce_iff hrun.run).mp hrun⟩

/-- Both calls find the only entry before either pops it. -/
theorem second_drain_panics :
    ¬ ∀ writer now events s, Run step (initial writer now) events s →
      s.DrainsOnce := by
  intro hall
  let events : List LogEvent :=
    [.packet statustextA 7, .GetSysLog, .GetSysLog, .callEmpty 0,
      .callEmpty 1, .callPop 0, .callPop 1]
  have hexec : (exec step (fun _ _ => True) (initial (NewEncoder none) 0)
      events).map (fun s => s.calls.map LogCall.phase) =
        some [.testing, .panicked] := by
    decide
  obtain ⟨s, hrun, hphases⟩ := GuardedRun.of_exec_map hexec
  have hpanicked : DrainPhase.panicked ∈ s.calls.map LogCall.phase := by
    rw [hphases]
    decide
  obtain ⟨c, hc, hphase⟩ := List.mem_map.mp hpanicked
  exact (hall _ _ events s hrun).noPanic c hc hphase

end LogRun

end DronesmithEngine
