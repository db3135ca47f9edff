import DronesmithEngine.CloudLink
import DronesmithEngine.LabelledRuns
import Mathlib.Tactic

/-!
# The two goroutines that drive the syncer

`sendStatus` runs on the timer's goroutine and `handleMessage` on the read
thread.  Each asks whether the syncer is running before it stops or starts
it, and a `Stop` hands over to a listener at the end.  A step here is a block
under the lock, an assignment, a handoff, or the upload of one file.
-/

namespace DronesmithEngine.Cloudlink

open LabelledRuns

/-- What `Stop` does next. -/
inductive StopPhase
  | clearDroneId
  | clearUserId
  | clearRunning
  | quit
  deriving DecidableEq

/-- An assignment of `Stop`, and what comes after it. -/
def StopPhase.assign (fs : Syncer) : StopPhase → Option (Syncer × StopPhase)
  | .clearDroneId =>
      some ({ fs with DroneId := "" }, .clearUserId)
  | .clearUserId => some ({ fs with UserId := "" }, .clearRunning)
  | .clearRunning => some ({ fs with isRunning := false }, .quit)
  | .quit => none

/-- Where the timer's goroutine is in `sendStatus`. -/
inductive StatusPhase
  | idle
  | askRunning
  | stopping (phase : StopPhase)
  | sending

/-- Where the read thread is in `handleMessage`, with the ids of the status
message. -/
inductive MessagePhase
  | idle
  | askRunning (ids : FlightSyncer)
  | compare (ids : FlightSyncer)
  | stopping (phase : StopPhase) (ids : FlightSyncer)
  | askStopped (ids : FlightSyncer)
  | startCheck (ids : FlightSyncer)
  | startLocked (ids : FlightSyncer)
  | startGo

/-- A listener waits for its timer or for `quit`, or has files left. -/
inductive Listener
  | waiting
  | scanning (files : ℕ)
  deriving DecidableEq

structure SyncerRun where
  sessionId : UInt32
  fs : Syncer
  timer : StatusPhase
  read : MessagePhase
  listeners : List Listener

inductive Caller
  | timer
  | read

inductive SyncerEvent
  | receive (session : UInt32) (ids : Option FlightSyncer)
  | readFailed
  | timer
  | checkOnline (timedOut : Bool)
  | read
  | handoff (caller : Caller) (i : ℕ)
  | scan (i : ℕ) (files : ℕ)
  | upload (i : ℕ)

namespace SyncerRun

def initial : SyncerRun where
  sessionId := 0
  fs := NewFlightSyncer
  timer := .idle
  read := .idle
  listeners := []

def timerStep (s : SyncerRun) : Option SyncerRun :=
  match s.timer with
  | .idle =>
      some
        { s with timer := if s.sessionId = 0 then .askRunning else .sending }
  | .askRunning =>
      some
        { s with
          timer :=
            if s.fs.isRunning then .stopping .clearDroneId else .sending }
  | .stopping phase =>
      (phase.assign s.fs).map fun (fs, next) =>
        { s with fs := fs, timer := .stopping next }
  | .sending => none

def readStep (s : SyncerRun) : Option SyncerRun :=
  match s.read with
  | .idle => none
  | .askRunning ids =>
      some
        { s with
          read := if s.fs.isRunning then .compare ids else .askStopped ids }
  | .compare ids =>
      some
        { s with
          read :=
            if s.fs.UserId ≠ ids.UserId ∨ s.fs.DroneId ≠ ids.DroneId then
              .stopping .clearDroneId ids
            else .askStopped ids }
  | .stopping phase ids =>
      (phase.assign s.fs).map fun (fs, next) =>
        { s with fs := fs, read := .stopping next ids }
  | .askStopped ids =>
      some
        { s with
          read := if s.fs.isRunning then .idle else .startCheck ids }
  | .startCheck ids =>
      some
        { s with
          read :=
            if ids.DroneId = "" ∨ s.fs.isRunning then .idle
            else .startLocked ids }
  | .startLocked ids =>
      some { s with fs := ⟨ids, true⟩, read := .startGo }
  | .startGo =>
      some
        { s with
          read := .idle, listeners := s.listeners ++ [.waiting] }

/-- The call goes on after its `quit` was received. -/
def resume (s : SyncerRun) : Caller → Option SyncerRun
  | .timer =>
      match s.timer with
      | .stopping .quit => some { s with timer := .sending }
      | _ => none
  | .read =>
      match s.read with
      | .stopping .quit ids => some { s with read := .askStopped ids }
      | _ => none

def step (s : SyncerRun) : SyncerEvent → Option SyncerRun
  | .receive session ids =>
      match s.read with
      | .idle =>
          some
            { s with
              sessionId := session
              read := ids.elim .idle .askRunning }
      | _ => none
  | .readFailed =>
      match s.read with
      | .idle => some { s with sessionId := 0 }
      | _ => none
  | .timer => s.timerStep
  | .checkOnline timedOut =>
      match s.timer with
      | .sending =>
          some
            { s with
              sessionId := if timedOut then 0 else s.sessionId
              timer := .idle }
      | _ => none
  | .read => s.readStep
  | .handoff caller i =>
      match s.listeners[i]? with
      | some .waiting =>
          ({ s with listeners := s.listeners.eraseIdx i }).resume caller
      | _ => none
  | .scan i files =>
      match s.listeners[i]? with
      | some .waiting =>
          some { s with listeners := s.listeners.set i (.scanning files) }
      | _ => none
  | .upload i =>
      match s.listeners[i]? with
      | some (.scanning (files + 1)) =>
          some { s with listeners := s.listeners.set i (.scanning files) }
      | some (.scanning 0) =>
          some { s with listeners := s.listeners.set i .waiting }
      | _ => none

/-! ### Without anything in between -/

section

variable {cl : CloudLink} {read : MessagePhase} {timer : StatusPhase}
  {listeners : List Listener}

/-- The timer's steps do what `stopOffline` does, with a listener that waits
for the `quit`. -/
theorem uninterrupted_stopOffline
    (hwaiting : cl.syncer.isRunning → listeners[0]? = some .waiting) :
    Reaches step
      (fun t => t.timer = .sending ∧ t.fs = cl.stopOffline.syncer)
      ⟨cl.sessionId, cl.syncer, .idle, read, listeners⟩ := by
  refine .after .timer rfl ?_
  by_cases hsession : cl.sessionId = 0
  · rw [if_pos hsession]
    refine .after .timer rfl ?_
    cases hrunning : cl.syncer.isRunning with
    | true =>
        have hstops : cl.stopOffline = cl.stopSyncer :=
          if_pos ⟨hsession, hrunning⟩
        have hresumes : ∀ fs : Syncer, step
            ⟨cl.sessionId, fs, .stopping .quit, read, listeners⟩
              (.handoff .timer 0) =
            some ⟨cl.sessionId, fs, .sending, read,
              listeners.eraseIdx 0⟩ := by
          intro fs
          simp only [step, hwaiting hrunning, resume]
        rw [hstops]
        exact .after .timer rfl (.after .timer rfl (.after .timer rfl
          (.after (.handoff .timer 0) (hresumes _) (.now ⟨rfl, rfl⟩))))
    | false =>
        have hkeeps : cl.stopOffline = cl :=
          if_neg fun h => Bool.false_ne_true (hrunning.symm.trans h.2)
        rw [hkeeps]
        exact .now ⟨rfl, rfl⟩
  · have hkeeps : cl.stopOffline = cl := if_neg fun h => hsession h.1
    rw [if_neg hsession, hkeeps]
    exact .now ⟨rfl, rfl⟩

theorem uninterrupted_stopOther {session : UInt32} {ids : FlightSyncer}
    {P : SyncerRun → Prop}
    (hwaiting : cl.syncer.isRunning → listeners[0]? = some .waiting)
    (hnext : ∀ left, Reaches step P
      ⟨session, (cl.stopOther ids.UserId ids.DroneId).syncer, timer,
        .askStopped ids, left⟩) :
    Reaches step P
      ⟨session, cl.syncer, timer, .askRunning ids, listeners⟩ := by
  refine .after .read rfl ?_
  cases hrunning : cl.syncer.isRunning with
  | true =>
      refine .after .read rfl ?_
      by_cases hother : cl.syncer.UserId ≠ ids.UserId ∨
          cl.syncer.DroneId ≠ ids.DroneId
      · have hstops : cl.stopOther ids.UserId ids.DroneId = cl.stopSyncer :=
          if_pos ⟨hrunning, hother⟩
        have hresumes : ∀ fs : Syncer, step
            ⟨session, fs, timer, .stopping .quit ids, listeners⟩
              (.handoff .read 0) =
            some ⟨session, fs, timer, .askStopped ids,
              listeners.eraseIdx 0⟩ := by
          intro fs
          simp only [step, hwaiting hrunning, resume]
        rw [hstops] at hnext
        rw [if_pos hother]
        exact .after .read rfl (.after .read rfl (.after .read rfl
          (.after (.handoff .read 0) (hresumes _) (hnext _))))
      · have hkeeps : cl.stopOther ids.UserId ids.DroneId = cl :=
          if_neg fun h => hother h.2
        rw [hkeeps] at hnext
        rw [if_neg hother]
        exact hnext _
  | false =>
      have hkeeps : cl.stopOther ids.UserId ids.DroneId = cl :=
        if_neg fun h => Bool.false_ne_true (hrunning.symm.trans h.1)
      rw [hkeeps] at hnext
      exact hnext _

theorem uninterrupted_startStopped {session : UInt32} {ids : FlightSyncer} :
    Reaches step
      (fun t => t.read = .idle ∧
        t.fs = (cl.startStopped ids.UserId ids.DroneId).syncer)
      ⟨session, cl.syncer, timer, .askStopped ids, listeners⟩ := by
  refine .after .read rfl ?_
  cases hrunning : cl.syncer.isRunning with
  | true =>
      have hkeeps : cl.startStopped ids.UserId ids.DroneId = cl :=
        if_pos hrunning
      rw [hkeeps]
      exact .now ⟨rfl, rfl⟩
  | false =>
      refine .after .read rfl ?_
      have hstarts : cl.startStopped ids.UserId ids.DroneId =
          cl.startSyncer ids.UserId ids.DroneId :=
        if_neg (ne_true_of_eq_false hrunning)
      rw [hstarts, CloudLink.startSyncer, Syncer.Start]
      by_cases hrefused : ids.DroneId = "" ∨ cl.syncer.isRunning
      · simp only [if_pos hrefused]
        exact .now ⟨rfl, rfl⟩
      · simp only [if_neg hrefused]
        exact .after .read rfl (.after .read rfl (.now ⟨rfl, rfl⟩))

/-- The read thread's steps do to the syncer what a status message does. -/
theorem uninterrupted_status (session : UInt32) (ids : FlightSyncer)
    (hwaiting : cl.syncer.isRunning → listeners[0]? = some .waiting) :
    Reaches step
      (fun t => t.read = .idle ∧
        t.fs = ((cl.stopOther ids.UserId ids.DroneId).startStopped ids.UserId
          ids.DroneId).syncer)
      ⟨cl.sessionId, cl.syncer, timer, .idle, listeners⟩ := by
  refine .after (.receive session (some ids)) rfl ?_
  exact uninterrupted_stopOther hwaiting fun _ => uninterrupted_startStopped

end

end SyncerRun

/-! ## Calls of `Stop` -/

/-- The call of `Stop` that the goroutine is in. -/
def StatusPhase.stop : StatusPhase → Option StopPhase
  | .stopping phase => some phase
  | _ => none

def MessagePhase.stop : MessagePhase → Option StopPhase
  | .stopping phase _ => some phase
  | _ => none

def MessagePhase.isStarting : MessagePhase → Bool
  | .startLocked _ => true
  | _ => false

/-- The call is between its first assignment and the last one. -/
def Clearing (call : Option StopPhase) : Prop :=
  call = some .clearUserId ∨ call = some .clearRunning

def Quitting (call : Option StopPhase) : Prop := call = some .quit

/-- The call has begun and not returned. -/
def Stopping (call : Option StopPhase) : Prop := Clearing call ∨ Quitting call

instance (call : Option StopPhase) : Decidable (Clearing call) :=
  inferInstanceAs (Decidable (_ ∨ _))

instance (call : Option StopPhase) : Decidable (Quitting call) :=
  inferInstanceAs (Decidable (_ = _))

instance (call : Option StopPhase) : Decidable (Stopping call) :=
  inferInstanceAs (Decidable (_ ∨ _))

namespace SyncerRun

def pendingQuits (s : SyncerRun) : ℕ :=
  (if Quitting s.timer.stop then 1 else 0) +
    if Quitting s.read.stop then 1 else 0

/-- The listeners, with one that `Start` is about to start. -/
def receivers (s : SyncerRun) : ℕ :=
  s.listeners.length +
    match s.read with
    | .startGo => 1
    | _ => 0

/-- One listener at most can upload, and every pending `quit` has a listener
to receive it. -/
structure Sound (s : SyncerRun) : Prop where
  listeners : s.listeners.length ≤ 1
  pending : s.pendingQuits ≤ s.receivers

/-- `Stop` begins on a running syncer only, and it begins, like `Start`, only
while the other goroutine is not in a `Stop`. -/
def Orderly (s : SyncerRun) : SyncerEvent → Prop
  | .timer =>
      s.timer.stop = some .clearDroneId →
        s.fs.isRunning ∧ ¬ Stopping s.read.stop
  | .read =>
      (s.read.stop = some .clearDroneId →
        s.fs.isRunning ∧ ¬ Stopping s.timer.stop) ∧
      (s.read.isStarting → ¬ Stopping s.timer.stop)
  | _ => True

instance (s : SyncerRun) : DecidablePred s.Orderly
  | .timer => inferInstanceAs (Decidable (_ → _))
  | .read => inferInstanceAs (Decidable (_ ∧ _))
  | .receive _ _ | .readFailed | .checkOnline _ | .handoff _ _ | .scan _ _
  | .upload _ => .isTrue trivial

end SyncerRun

/-! ## What holds while the calls are orderly -/

theorem not_stopping_none : ¬ Stopping none := by decide

theorem not_stopping_clearDroneId : ¬ Stopping (some .clearDroneId) := by
  decide

/-- How many listeners there are to receive a `quit`, by the flag and by where
the two goroutines are in `Stop`. -/
structure Balanced (running : Bool) (call other : Option StopPhase)
    (receivers : ℕ) : Prop where
  alone : ¬ (Stopping call ∧ Stopping other)
  clearing : Clearing call ∨ Clearing other → running
  quitting : Quitting call ∨ Quitting other → ¬ running
  receivers : receivers =
    if running ∨ Quitting call ∨ Quitting other then 1 else 0

namespace Balanced

variable {running : Bool} {call call' other : Option StopPhase} {n : ℕ}

theorem symm (hbalanced : Balanced running call other n) :
    Balanced running other call n where
  alone := fun h => hbalanced.alone h.symm
  clearing := fun h => hbalanced.clearing h.symm
  quitting := fun h => hbalanced.quitting h.symm
  receivers := by
    rw [hbalanced.receivers]
    simp only [or_comm (a := Quitting other)]

/-- Moving on without getting into or out of an assignment or a `quit`. -/
theorem moved (hbalanced : Balanced running call other n)
    (hclearing : Clearing call' ↔ Clearing call)
    (hquitting : Quitting call' ↔ Quitting call) :
    Balanced running call' other n := by
  obtain ⟨halone, hclear, hquit, hreceivers⟩ := hbalanced
  constructor
  · simpa only [Stopping, hclearing, hquitting] using halone
  · simpa only [hclearing] using hclear
  · simpa only [hquitting] using hquit
  · simpa only [hquitting] using hreceivers

theorem outside (hbalanced : Balanced running call other n)
    (hcall : ¬ Stopping call) (hcall' : ¬ Stopping call') :
    Balanced running call' other n := by
  simp only [Stopping, not_or] at hcall hcall'
  exact hbalanced.moved (iff_of_false hcall'.1 hcall.1)
    (iff_of_false hcall'.2 hcall.2)

theorem begun (hbalanced : Balanced true call other n)
    (hother : ¬ Stopping other) :
    Balanced true (some .clearUserId) other n := by
  have hquiet : ¬ Quitting other := fun h => hother (Or.inr h)
  refine ⟨fun h => hother h.2, fun _ => rfl, ?_, ?_⟩
  · rintro (h | h)
    · cases h
    · exact absurd h hquiet
  · simpa using hbalanced.receivers

theorem clearedUserId
    (hbalanced : Balanced running (some .clearUserId) other n) :
    Balanced running (some .clearRunning) other n :=
  hbalanced.moved (by decide) (by decide)

theorem cleared (hbalanced : Balanced running (some .clearRunning) other n) :
    Balanced false (some .quit) other n := by
  obtain ⟨halone, hclear, hquit, hreceivers⟩ := hbalanced
  have hother : ¬ Stopping other := fun h => halone ⟨by decide, h⟩
  have hrunning : running = true := hclear (Or.inl (by decide))
  refine ⟨fun h => hother h.2, ?_, fun _ => Bool.false_ne_true, ?_⟩
  · rintro (h | h)
    · exact absurd h (by decide)
    · exact absurd (Or.inl h) hother
  · simpa [hrunning, Quitting] using hreceivers

theorem received
    (hbalanced : Balanced running (some .quit) other (n + 1)) :
    Balanced running none other n := by
  obtain ⟨halone, hclear, hquit, hreceivers⟩ := hbalanced
  have hother : ¬ Stopping other := fun h => halone ⟨by decide, h⟩
  have hrunning : ¬ running := hquit (Or.inl (by decide))
  refine ⟨fun h => hother h.2, ?_, fun _ => hrunning, ?_⟩
  · rintro (h | h)
    · exact absurd h (by decide)
    · exact absurd (Or.inl h) hother
  · have hquiet : ¬ Quitting other := fun h => hother (Or.inr h)
    have hcall : Quitting (some .quit) := rfl
    have hnone : ¬ Quitting none := by decide
    simp only [hcall, true_or, or_true, if_true] at hreceivers
    rw [if_neg (by simp [hrunning, hquiet, hnone])]
    omega

theorem started (hbalanced : Balanced false call other n)
    (hcall : ¬ Stopping call) (hother : ¬ Stopping other) :
    Balanced true call other (n + 1) := by
  simp only [Stopping, not_or] at hcall hother
  have hreceivers := hbalanced.receivers
  refine ⟨hbalanced.alone, fun _ => rfl, ?_, ?_⟩
  · rintro (h | h)
    · exact absurd h hcall.2
    · exact absurd h hother.2
  · simpa [hcall.2, hother.2] using hreceivers

end Balanced

namespace SyncerRun

structure Ordered (s : SyncerRun) : Prop where
  balanced : Balanced s.fs.isRunning s.timer.stop s.read.stop s.receivers
  starting : ∀ ids, s.read = .startLocked ids → ¬ s.fs.isRunning

theorem Ordered.sound {s : SyncerRun} (hordered : s.Ordered) : s.Sound := by
  obtain ⟨halone, -, -, hreceivers⟩ := hordered.balanced
  simp only [Stopping] at halone
  constructor
  · have hle : s.receivers ≤ 1 := by
      rw [hreceivers]
      split <;> omega
    exact (Nat.le_add_right _ _).trans hle
  · unfold pendingQuits
    rw [hreceivers]
    by_cases htimer : Quitting s.timer.stop
    · by_cases hread : Quitting s.read.stop
      · exact absurd ⟨Or.inr htimer, Or.inr hread⟩ halone
      · simp [htimer, hread]
    · by_cases hread : Quitting s.read.stop
      · simp [htimer, hread]
      · simp [htimer, hread]

theorem initial_ordered : initial.Ordered where
  balanced := by constructor <;> decide
  starting := nofun

variable {s t : SyncerRun}

theorem Ordered.timerStep (hordered : s.Ordered)
    (hguard : s.Orderly .timer) (hstep : s.timerStep = some t) :
    t.Ordered := by
  obtain ⟨hbalanced, hstarting⟩ := hordered
  unfold SyncerRun.timerStep at hstep
  cases htimer : s.timer with
  | idle =>
      rw [htimer] at hbalanced hstep
      cases hstep
      refine ⟨hbalanced.outside not_stopping_none ?_, hstarting⟩
      split
      · exact not_stopping_none
      · exact not_stopping_none
  | askRunning =>
      rw [htimer] at hbalanced hstep
      cases hstep
      refine ⟨hbalanced.outside not_stopping_none ?_, hstarting⟩
      split
      · exact not_stopping_clearDroneId
      · exact not_stopping_none
  | stopping phase =>
      rw [htimer] at hbalanced hstep
      cases phase with
      | clearDroneId =>
          obtain ⟨hrunning, hread⟩ := hguard (by rw [htimer]; rfl)
          rw [hrunning] at hbalanced
          cases hstep
          refine ⟨?_, hstarting⟩
          rw [hrunning]
          exact hbalanced.begun hread
      | clearUserId =>
          cases hstep
          exact ⟨hbalanced.clearedUserId, hstarting⟩
      | clearRunning =>
          cases hstep
          exact ⟨hbalanced.cleared, fun _ _ => Bool.false_ne_true⟩
      | quit => cases hstep
  | sending =>
      rw [htimer] at hstep
      cases hstep

theorem Ordered.readStep (hordered : s.Ordered)
    (hguard : s.Orderly .read) (hstep : s.readStep = some t) :
    t.Ordered := by
  obtain ⟨hbalanced, hstarting⟩ := hordered
  have hswapped := hbalanced.symm
  unfold SyncerRun.readStep at hstep
  unfold receivers at hswapped
  simp only [Orderly] at hguard
  cases hread : s.read with
  | idle =>
      rw [hread] at hstep
      cases hstep
  | askRunning ids =>
      rw [hread] at hswapped hstep
      cases hstep
      by_cases hrunning : s.fs.isRunning
      · simp only [if_pos hrunning]
        exact ⟨hswapped.symm, nofun⟩
      · simp only [if_neg hrunning]
        exact ⟨hswapped.symm, nofun⟩
  | compare ids =>
      rw [hread] at hswapped hstep
      cases hstep
      by_cases hother : s.fs.UserId ≠ ids.UserId ∨ s.fs.DroneId ≠ ids.DroneId
      · simp only [if_pos hother]
        exact ⟨(hswapped.outside not_stopping_none
          not_stopping_clearDroneId).symm, nofun⟩
      · simp only [if_neg hother]
        exact ⟨hswapped.symm, nofun⟩
  | stopping phase ids =>
      rw [hread] at hswapped hstep hguard
      cases phase with
      | clearDroneId =>
          obtain ⟨hrunning, htimer⟩ := hguard.1 rfl
          rw [hrunning] at hswapped
          cases hstep
          refine ⟨?_, nofun⟩
          rw [hrunning]
          exact (hswapped.begun htimer).symm
      | clearUserId =>
          cases hstep
          exact ⟨hswapped.clearedUserId.symm, nofun⟩
      | clearRunning =>
          cases hstep
          exact ⟨hswapped.cleared.symm, nofun⟩
      | quit => cases hstep
  | askStopped ids =>
      rw [hread] at hswapped hstep
      cases hstep
      by_cases hrunning : s.fs.isRunning
      · simp only [if_pos hrunning]
        exact ⟨hswapped.symm, nofun⟩
      · simp only [if_neg hrunning]
        exact ⟨hswapped.symm, nofun⟩
  | startCheck ids =>
      rw [hread] at hswapped hstep
      cases hstep
      by_cases hrefused : ids.DroneId = "" ∨ s.fs.isRunning
      · simp only [if_pos hrefused]
        exact ⟨hswapped.symm, nofun⟩
      · simp only [if_neg hrefused]
        exact ⟨hswapped.symm, fun _ _ hrunning => hrefused (Or.inr hrunning)⟩
  | startLocked ids =>
      have hstopped := hstarting ids hread
      rw [hread] at hswapped hstep hguard
      rw [Bool.eq_false_of_not_eq_true hstopped] at hswapped
      cases hstep
      exact ⟨(hswapped.started not_stopping_none (hguard.2 rfl)).symm, nofun⟩
  | startGo =>
      rw [hread] at hswapped hstep
      cases hstep
      refine ⟨?_, nofun⟩
      have hlen : (s.listeners ++ [Listener.waiting]).length =
          s.listeners.length + 1 := by simp
      rw [receivers, hlen]
      exact hswapped.symm

/-- The listener that receives a `quit` is gone, and the call goes on. -/
theorem Ordered.resume {caller : Caller} {left : List Listener}
    (hordered : s.Ordered) (hlen : s.listeners.length = left.length + 1)
    (hstep : ({ s with listeners := left } : SyncerRun).resume caller =
      some t) : t.Ordered := by
  obtain ⟨hbalanced, hstarting⟩ := hordered
  have hreceivers : s.receivers =
      ({ s with listeners := left } : SyncerRun).receivers + 1 := by
    unfold receivers
    rw [hlen, Nat.add_right_comm]
  rw [hreceivers] at hbalanced
  cases caller with
  | timer =>
      simp only [SyncerRun.resume] at hstep
      split at hstep
      next htimer =>
        cases hstep
        rw [htimer] at hbalanced
        exact ⟨hbalanced.received, hstarting⟩
      next => cases hstep
  | read =>
      simp only [SyncerRun.resume] at hstep
      split at hstep
      next ids hread =>
        cases hstep
        have hswapped := hbalanced.symm
        unfold receivers at hswapped
        rw [hread] at hswapped
        exact ⟨hswapped.received.symm, nofun⟩
      next => cases hstep

/-- A listener that moves on is still there. -/
theorem Ordered.set (hordered : s.Ordered) (i : ℕ) (listener : Listener) :
    ({ s with listeners := s.listeners.set i listener } : SyncerRun).Ordered := by
  obtain ⟨hbalanced, hstarting⟩ := hordered
  refine ⟨?_, hstarting⟩
  unfold receivers at hbalanced ⊢
  rw [List.length_set]
  exact hbalanced

theorem Ordered.step {event : SyncerEvent} (hordered : s.Ordered)
    (hguard : s.Orderly event) (hstep : s.step event = some t) :
    t.Ordered := by
  cases event with
  | receive session ids =>
      obtain ⟨hbalanced, -⟩ := hordered
      have hswapped := hbalanced.symm
      unfold receivers at hswapped
      simp only [SyncerRun.step] at hstep
      split at hstep
      next hread =>
        cases hstep
        rw [hread] at hswapped
        cases ids with
        | none => exact ⟨hswapped.symm, nofun⟩
        | some ids => exact ⟨hswapped.symm, nofun⟩
      next => cases hstep
  | readFailed =>
      simp only [SyncerRun.step] at hstep
      split at hstep
      next =>
        cases hstep
        exact ⟨hordered.balanced, hordered.starting⟩
      next => cases hstep
  | timer => exact hordered.timerStep hguard hstep
  | checkOnline timedOut =>
      simp only [SyncerRun.step] at hstep
      split at hstep
      next htimer =>
        cases hstep
        have hbalanced := hordered.balanced
        rw [htimer] at hbalanced
        exact ⟨hbalanced, hordered.starting⟩
      next => cases hstep
  | read => exact hordered.readStep hguard hstep
  | handoff caller i =>
      simp only [SyncerRun.step] at hstep
      split at hstep
      next hwaiting =>
        obtain ⟨hi, -⟩ := List.getElem?_eq_some_iff.mp hwaiting
        have hlen : s.listeners.length =
            (s.listeners.eraseIdx i).length + 1 := by
          rw [List.length_eraseIdx_of_lt hi]
          omega
        exact hordered.resume hlen hstep
      next => cases hstep
  | scan i files =>
      simp only [SyncerRun.step] at hstep
      split at hstep
      next =>
        cases hstep
        exact hordered.set i _
      next => cases hstep
  | upload i =>
      simp only [SyncerRun.step] at hstep
      split at hstep
      next =>
        cases hstep
        exact hordered.set i _
      next =>
        cases hstep
        exact hordered.set i _
      next => cases hstep

theorem run_ordered {events : List SyncerEvent}
    (hrun : GuardedRun step Orderly initial events s) : s.Ordered :=
  hrun.invariant (fun _ _ _ hordered hguard hstep =>
    hordered.step hguard hstep) initial_ordered

/-! ## Steps that are not orderly -/

section

variable {P : SyncerRun → Prop}

/-- The timer's goroutine gets to the `quit` of its call by itself. -/
theorem reaches_timer_quit (hstopping : Stopping s.timer.stop)
    (hquit : ∀ u : SyncerRun, u.timer = .stopping .quit → u.read = s.read →
      u.listeners = s.listeners → Reaches step P u) :
    Reaches step P s := by
  obtain ⟨sessionId, fs, timer, read, listeners⟩ := s
  rcases timer with _ | _ | phase | _
  · exact absurd hstopping not_stopping_none
  · exact absurd hstopping not_stopping_none
  · cases phase with
    | clearDroneId => exact absurd hstopping not_stopping_clearDroneId
    | clearUserId =>
        exact .after .timer rfl (.after .timer rfl (hquit _ rfl rfl rfl))
    | clearRunning => exact .after .timer rfl (hquit _ rfl rfl rfl)
    | quit => exact hquit _ rfl rfl rfl
  · exact absurd hstopping not_stopping_none

theorem reaches_read_quit (hstopping : Stopping s.read.stop)
    (hquit : ∀ (u : SyncerRun) (ids : FlightSyncer),
      u.read = .stopping .quit ids → u.timer = s.timer →
        u.listeners = s.listeners → Reaches step P u) :
    Reaches step P s := by
  obtain ⟨sessionId, fs, timer, read, listeners⟩ := s
  rcases read with _ | _ | _ | ⟨phase, ids⟩ | _ | _ | _ | _
  case stopping =>
    cases phase with
    | clearDroneId => exact absurd hstopping not_stopping_clearDroneId
    | clearUserId =>
        exact .after .read rfl (.after .read rfl (hquit _ ids rfl rfl rfl))
    | clearRunning => exact .after .read rfl (hquit _ ids rfl rfl rfl)
    | quit => exact hquit _ ids rfl rfl rfl
  all_goals exact absurd hstopping not_stopping_none

end

theorem not_sound_of_pending (hpending : s.receivers < s.pendingQuits) :
    ¬ s.Sound := fun hsound => absurd hsound.pending (Nat.not_le.mpr hpending)

theorem reaches_two_quits (htimer : Stopping s.timer.stop)
    (hread : Stopping s.read.stop) (hreceivers : s.receivers ≤ 1) :
    Reaches step (fun u => ¬ u.Sound) s := by
  have hlen : s.listeners.length ≤ 1 :=
    (Nat.le_add_right _ _).trans hreceivers
  apply reaches_timer_quit htimer
  intro u htimer' hread' hlisteners
  rw [← hread'] at hread
  apply reaches_read_quit hread
  intro w ids hread'' htimer'' hlisteners'
  apply Reaches.now
  apply not_sound_of_pending
  rw [receivers, pendingQuits, hread'', htimer'', htimer', hlisteners',
    hlisteners]
  simp only [StatusPhase.stop, MessagePhase.stop, Quitting, if_true]
  omega

theorem reaches_timer_stuck (htimer : Stopping s.timer.stop)
    (hreceivers : s.receivers = 0) :
    Reaches step (fun u => ¬ u.Sound) s := by
  apply reaches_timer_quit htimer
  intro u htimer' hread hlisteners
  apply Reaches.now
  apply not_sound_of_pending
  have hsame : u.receivers = s.receivers := by
    rw [receivers, hread, hlisteners]
    rfl
  rw [hsame, hreceivers, pendingQuits, htimer']
  simp only [StatusPhase.stop, Quitting, if_true]
  omega

theorem reaches_read_stuck (hread : Stopping s.read.stop)
    (hreceivers : s.receivers = 0) :
    Reaches step (fun u => ¬ u.Sound) s := by
  apply reaches_read_quit hread
  intro u ids hread' htimer hlisteners
  apply Reaches.now
  apply not_sound_of_pending
  have hle : u.receivers ≤ s.receivers := by
    rw [receivers, receivers, hread', hlisteners]
    exact Nat.add_le_add_left (Nat.zero_le _) _
  rw [hreceivers] at hle
  rw [pendingQuits, hread']
  simp only [MessagePhase.stop, Quitting, if_true]
  omega

end SyncerRun

theorem Balanced.none_left {running : Bool} {call other : Option StopPhase}
    {n : ℕ} (hbalanced : Balanced running call other n)
    (hrunning : ¬ running) (hcall : ¬ Stopping call)
    (hother : ¬ Stopping other) : n = 0 := by
  simp only [Stopping, not_or] at hcall hother
  rw [hbalanced.receivers, if_neg]
  simp [hrunning, hcall.2, hother.2]

namespace SyncerRun

variable {s t : SyncerRun}

theorem Ordered.receivers_le (hordered : s.Ordered) : s.receivers ≤ 1 := by
  rw [hordered.balanced.receivers]
  split <;> omega

/-- After the first step that is not orderly there is a run to a state with
two listeners, or with a `quit` that nobody receives. -/
theorem Ordered.reaches_not_sound {event : SyncerEvent}
    (hordered : s.Ordered) (hstep : s.step event = some t)
    (hguard : ¬ s.Orderly event) :
    Reaches SyncerRun.step (fun u => ¬ u.Sound) t := by
  have hle := hordered.receivers_le
  have hbalanced := hordered.balanced
  obtain ⟨sessionId, fs, timer, read, listeners⟩ := s
  cases event with
  | timer =>
      simp only [Orderly, Classical.not_imp] at hguard
      obtain ⟨hbegins, hguard⟩ := hguard
      obtain rfl : timer = .stopping .clearDroneId := by
        cases timer with
        | stopping phase =>
            rw [StatusPhase.stop, Option.some.injEq] at hbegins
            rw [hbegins]
        | _ => cases hbegins
      cases hstep
      by_cases hread : Stopping read.stop
      · exact reaches_two_quits (Or.inl (Or.inl rfl)) hread hle
      · have hrunning : ¬ fs.isRunning := fun h => hguard ⟨h, hread⟩
        exact reaches_timer_stuck (Or.inl (Or.inl rfl))
          (hbalanced.none_left hrunning not_stopping_clearDroneId hread)
  | read =>
      cases read with
      | stopping phase ids =>
          cases phase with
          | clearDroneId =>
              cases hstep
              by_cases htimer : Stopping timer.stop
              · exact reaches_two_quits htimer (Or.inl (Or.inl rfl)) hle
              · have hrunning : ¬ fs.isRunning := fun h =>
                  hguard ⟨fun _ => ⟨h, htimer⟩, nofun⟩
                exact reaches_read_stuck (Or.inl (Or.inl rfl))
                  (hbalanced.none_left hrunning htimer
                    not_stopping_clearDroneId)
          | _ => exact absurd ⟨nofun, nofun⟩ hguard
      | startLocked ids =>
          have htimer : Stopping timer.stop := by
            by_contra hnot
            exact hguard ⟨nofun, fun _ => hnot⟩
          have hstopped := hordered.starting ids rfl
          have hquitting : Quitting timer.stop :=
            htimer.resolve_left fun h => hstopped (hbalanced.clearing (Or.inl h))
          have hone := hbalanced.receivers
          rw [if_pos (Or.inr (Or.inl hquitting))] at hone
          cases hstep
          refine .after .read rfl (.now fun hsound => ?_)
          have hlisteners := hsound.listeners
          rw [List.length_append] at hlisteners
          simp only [receivers, List.length_singleton] at hone hlisteners
          omega
      | _ => exact absurd ⟨nofun, nofun⟩ hguard
  | _ => exact absurd trivial hguard

/-- While every step is orderly, at most one listener can upload and every
`Stop` has a listener that will receive its `quit`; and the first step that is
not orderly leads to a state where this fails. -/
theorem sound_while_orderly {events : List SyncerEvent}
    (hrun : GuardedRun step Orderly initial events s) :
    s.Sound ∧
      ∀ event t, s.step event = some t → ¬ s.Orderly event →
        ∃ later u, Run step t later u ∧ ¬ u.Sound := by
  have hordered := run_ordered hrun
  exact ⟨hordered.sound, fun event t hstep hguard =>
    hordered.reaches_not_sound hstep hguard⟩

/-- A status message starts a listener, and another one replaces it. -/
theorem sound_while_orderly_replaced :
    ∃ s, Run step initial
        [.receive 7 (some ⟨"d", "u"⟩), .read, .read, .read, .read, .read,
          .receive 7 (some ⟨"d", "v"⟩), .read, .read, .read, .read, .read,
          .handoff .read 0, .read, .read, .read, .read] s ∧
      s.Sound := by
  have hexec : (exec step Orderly initial
      [.receive 7 (some ⟨"d", "u"⟩), .read, .read, .read, .read, .read,
        .receive 7 (some ⟨"d", "v"⟩), .read, .read, .read, .read, .read,
        .handoff .read 0, .read, .read, .read, .read]).isSome := by
    decide
  obtain ⟨s, hrun⟩ := GuardedRun.of_exec_isSome hexec
  exact ⟨s, hrun.run, (sound_while_orderly hrun).1⟩

/-- While a listener goes through its files, the timer's goroutine waits for
it in `Stop`, and the read thread starts another one. -/
theorem two_listeners :
    ¬ ∀ events s, Run step initial events s → s.Sound := by
  intro hall
  have hexec : (exec step (fun _ _ => True) initial
      [.receive 7 (some ⟨"d", "u"⟩), .read, .read, .read, .read, .read,
        .scan 0 2, .readFailed, .timer, .timer, .timer, .timer, .timer,
        .receive 8 (some ⟨"e", "v"⟩), .read, .read, .read, .read, .read,
        .scan 1 2]).map (fun s => (s.fs.DroneId, s.listeners)) =
          some ("e", [.scanning 2, .scanning 2]) := by
    decide
  obtain ⟨s, hrun, heq⟩ := GuardedRun.of_exec_map hexec
  have hlisteners := (hall _ s hrun).listeners
  rw [(Prod.mk.inj heq).2] at hlisteners
  exact absurd hlisteners (by decide)

end SyncerRun

end DronesmithEngine.Cloudlink
