import DronesmithEngine.LabelledRuns
import Mathlib.Tactic

/-!
# Opening and closing the tunnel

`TermLauncher` of `cloudlink/processlauncher.go`, and the status messages that
start its `Open` and `Close` in goroutines of their own.  Both use the one
field for the current command.  A step is an assignment, the start of a
process, a call of `Wait` or its return, a kill, or a look at the command's
state.  Goroutines have numbers, and one that returned gives its number free.
-/

namespace DronesmithEngine.Cloudlink

open LabelledRuns

/-- The two commands of `Open`. -/
inductive Command
  | authtoken
  | tunnel
  deriving DecidableEq

/-- The process of a command.  One that ended was successful or not, and
exited or was killed; its state is known after it was waited for. -/
inductive Process
  | notStarted
  | running
  | ended (success exited : Bool)
  | reaped (exited : Bool)
  deriving DecidableEq

structure Cmd where
  command : Command
  process : Process
  waitCalled : Bool

inductive OpenPhase
  | assign (command : Command)
  | start (command : Command)
  | getInfo
  | wait (command : Command)
  | waiting (command : Command) (c : ℕ)
  | returned
  deriving DecidableEq

inductive ClosePhase
  | checkState
  | checkExited
  | kill
  | succeeded
  | returned
  deriving DecidableEq

structure TunnelRun where
  terminalOnline : Bool
  cmds : ℕ → Cmd
  created : ℕ
  cmd : Option ℕ
  opens : ℕ → OpenPhase
  closes : ℕ → ClosePhase
  /-- A `Close` used a command or a process that is not there. -/
  panicked : Bool

inductive TunnelEvent
  | status (terminal : Bool) (i : ℕ)
  | openStep (i : ℕ) (succeeds : Bool)
  | closeStep (i : ℕ) (succeeds : Bool)
  | ends (c : ℕ) (success exited : Bool)

namespace TunnelRun

def initial : TunnelRun where
  terminalOnline := false
  cmds := fun _ => ⟨.authtoken, .notStarted, false⟩
  created := 0
  cmd := none
  opens := fun _ => .returned
  closes := fun _ => .returned
  panicked := false

def setOpen (s : TunnelRun) (i : ℕ) (phase : OpenPhase) : TunnelRun :=
  { s with opens := Function.update s.opens i phase }

def setClose (s : TunnelRun) (i : ℕ) (phase : ClosePhase) : TunnelRun :=
  { s with closes := Function.update s.closes i phase }

def setProcess (s : TunnelRun) (c : ℕ) (process : Process) : TunnelRun :=
  { s with
    cmds := Function.update s.cmds c
      { s.cmds c with process := process } }

/-- `tl.cmd = exec.Command(...)`. -/
def assignCmd (s : TunnelRun) (command : Command) : TunnelRun :=
  { s with
    cmds := Function.update s.cmds s.created ⟨command, .notStarted, false⟩
    created := s.created + 1
    cmd := some s.created }

/-- What `handleMessage` does about the terminal. -/
def status (s : TunnelRun) (terminal : Bool) (i : ℕ) : Option TunnelRun :=
  if terminal then
    if s.terminalOnline then some s
    else if s.opens i = .returned then
      some ({ s with terminalOnline := true }.setOpen i (.assign .authtoken))
    else none
  else if s.terminalOnline then
    if s.closes i = .returned then some (s.setClose i .checkState) else none
  else some s

def afterStart : Command → OpenPhase
  | .authtoken => .wait .authtoken
  | .tunnel => .getInfo

/-- `tl.cmd.Start()`; a command cannot be started twice. -/
def openStart (s : TunnelRun) (i : ℕ) (command : Command)
    (succeeds : Bool) : Option TunnelRun :=
  match s.cmd with
  | some c =>
      if (s.cmds c).process = .notStarted ∧ succeeds then
        some ((s.setProcess c .running).setOpen i (afterStart command))
      else some (s.setOpen i .returned)
  | none => none

/-- The call of `tl.cmd.Wait()`, on the command that is current then; a
command that is not started or was waited for already is an error. -/
def openWait (s : TunnelRun) (i : ℕ) (command : Command) : Option TunnelRun :=
  match s.cmd with
  | some c =>
      if (s.cmds c).process = .notStarted ∨ (s.cmds c).waitCalled then
        some (s.setOpen i .returned)
      else
        some
          ({ s with
              cmds := Function.update s.cmds c
                { s.cmds c with waitCalled := true } }.setOpen i
            (.waiting command c))
  | none => none

def afterWait (command : Command) (success : Bool) : OpenPhase :=
  match command with
  | .authtoken => if success then .assign .tunnel else .returned
  | .tunnel => .returned

/-- The return of `Wait`, which can also fail before the process has
ended. -/
def openWaited (s : TunnelRun) (i : ℕ) (command : Command) (c : ℕ)
    (succeeds : Bool) : Option TunnelRun :=
  match succeeds, (s.cmds c).process with
  | false, _ => some (s.setOpen i .returned)
  | true, .ended success exited =>
      some ((s.setProcess c (.reaped exited)).setOpen i
        (afterWait command success))
  | true, _ => none

def openStep (s : TunnelRun) (i : ℕ) (succeeds : Bool) : Option TunnelRun :=
  match s.opens i with
  | .assign command => some ((s.assignCmd command).setOpen i (.start command))
  | .start command => s.openStart i command succeeds
  | .getInfo => some (if succeeds then s.setOpen i (.wait .tunnel) else s)
  | .wait command => s.openWait i command
  | .waiting command c => s.openWaited i command c succeeds
  | .returned => none

def panic (s : TunnelRun) : TunnelRun := { s with panicked := true }

/-- `tl.cmd.Process.Kill()`.  It kills a process that is running, and can be
called on one that has ended until it was waited for. -/
def closeKill (s : TunnelRun) (i : ℕ) (succeeds : Bool) : TunnelRun :=
  match s.cmd with
  | none => s.panic
  | some c =>
      match (s.cmds c).process with
      | .notStarted => s.panic
      | .running =>
          if succeeds then
            (s.setProcess c (.ended false false)).setClose i .succeeded
          else s.setClose i .returned
      | .ended _ _ =>
          s.setClose i (if succeeds then .succeeded else .returned)
      | .reaped _ => s.setClose i .returned

def closeStep (s : TunnelRun) (i : ℕ) (succeeds : Bool) : Option TunnelRun :=
  match s.closes i with
  | .checkState =>
      match s.cmd with
      | none => some s.panic
      | some c =>
          match (s.cmds c).process with
          | .reaped _ => some (s.setClose i .checkExited)
          | _ => some (s.setClose i .kill)
  | .checkExited =>
      match s.cmd with
      | none => some s.panic
      | some c =>
          match (s.cmds c).process with
          | .reaped exited =>
              some (s.setClose i (if exited then .succeeded else .kill))
          | _ => some s.panic
  | .kill => some (s.closeKill i succeeds)
  | .succeeded =>
      some ({ s with terminalOnline := false }.setClose i .returned)
  | .returned => none

/-- A panic ends the program. -/
def step (s : TunnelRun) (event : TunnelEvent) : Option TunnelRun :=
  if s.panicked then none
  else
    match event with
    | .status terminal i => s.status terminal i
    | .openStep i succeeds => s.openStep i succeeds
    | .closeStep i succeeds => s.closeStep i succeeds
    | .ends c success exited =>
        if (s.cmds c).process = .running then
          some (s.setProcess c (.ended success exited))
        else none

/-! ## What is to hold -/

def TunnelRuns (s : TunnelRun) (c : ℕ) : Prop :=
  (s.cmds c).command = .tunnel ∧ (s.cmds c).process = .running

/-- The goroutine of an `Open` has returned, or waits for its tunnel. -/
def Settled : OpenPhase → Prop
  | .returned => True
  | .waiting .tunnel _ => True
  | _ => False

/-- No `Close` used what is not there, and a tunnel that was shut does not
run. -/
structure Sound (s : TunnelRun) : Prop where
  panicked : s.panicked = false
  shut : s.terminalOnline = false → (∀ i, s.closes i = .returned) →
    (∀ i, Settled (s.opens i)) → ∀ c, ¬ s.TunnelRuns c

/-! ## Opens that may still start a tunnel -/

/-- `Wait` will not return without an error. -/
def Dead : Process → Bool
  | .ended success _ => !success
  | .reaped _ => true
  | _ => false

def aheadIn (cmds : ℕ → Cmd) : OpenPhase → Bool
  | .assign _ => true
  | .start _ => true
  | .wait .authtoken => true
  | .waiting .authtoken c => !Dead (cmds c).process
  | _ => false

def ahead (s : TunnelRun) (i : ℕ) : Bool := aheadIn s.cmds (s.opens i)

/-- A `Close` looks at a command that is there and kills a process that was
started.  It succeeds when no `Open` may still start a tunnel, but for one
that waits for the running process that it kills.  And no `Open` is started
between the success of a `Close` and the assignment after it. -/
def Timely (s : TunnelRun) : TunnelEvent → Prop
  | .status terminal _ =>
      terminal → ¬ s.terminalOnline → ∀ j, s.closes j ≠ .succeeded
  | .closeStep i succeeds =>
      match s.closes i with
      | .checkState => s.cmd ≠ none
      | .checkExited =>
          ∃ c exited, s.cmd = some c ∧ (s.cmds c).process = .reaped exited ∧
            (exited → ∀ j, ¬ s.ahead j)
      | .kill =>
          ∃ c, s.cmd = some c ∧ (s.cmds c).process ≠ .notStarted ∧
            (succeeds → (∀ exited, (s.cmds c).process ≠ .reaped exited) →
              ∀ j, s.ahead j → s.opens j = .waiting .authtoken c ∧
                (s.cmds c).process = .running)
      | _ => True
  | _ => True

/-- The terminal is off, or a `Close` is about to turn it off. -/
def Shut (s : TunnelRun) : Prop :=
  s.terminalOnline = false ∨ ∃ j, s.closes j = .succeeded

/-- What holds while the calls of `Close` are timely: one `Open` at most may
still start a tunnel, and only the current command can be a tunnel that
runs. -/
structure Exclusive (s : TunnelRun) : Prop where
  panicked : s.panicked = false
  one : ∀ i j, s.ahead i → s.ahead j → i = j
  idle : ∀ i, s.ahead i → ∀ c, ¬ s.TunnelRuns c
  current : ∀ c, s.TunnelRuns c → s.cmd = some c
  auth : ∀ i, s.opens i = .start .authtoken → ∀ c, s.cmd = some c →
    (s.cmds c).command = .authtoken
  shut : s.Shut → (∀ i, ¬ s.ahead i) ∧ ∀ c, ¬ s.TunnelRuns c
  bound : ∀ c, s.cmd = some c → c < s.created
  fresh : ∀ c, s.created ≤ c → (s.cmds c).process = .notStarted

theorem Exclusive.sound {s : TunnelRun} (hs : s.Exclusive) : s.Sound where
  panicked := hs.panicked
  shut := fun hoff _ _ => (hs.shut (Or.inl hoff)).2

theorem initial_exclusive : initial.Exclusive := by
  have hahead : ∀ i, ¬ initial.ahead i := fun _ => Bool.false_ne_true
  have hruns : ∀ c, ¬ initial.TunnelRuns c := by
    rintro c ⟨-, hrunning⟩
    cases hrunning
  refine ⟨rfl, ?_, ?_, ?_, ?_, ?_, ?_, ?_⟩
  · exact fun i _ hi => absurd hi (hahead i)
  · exact fun i hi => absurd hi (hahead i)
  · exact fun c hc => absurd hc (hruns c)
  · exact fun i hi => by cases hi
  · exact fun _ => ⟨hahead, hruns⟩
  · exact fun c hc => by cases hc
  · exact fun c _ => rfl

variable {s t : TunnelRun}

/-! ## Parts of a step -/

theorem setOpen_ahead (s : TunnelRun) (i j : ℕ) (phase : OpenPhase) :
    (s.setOpen i phase).ahead j =
      if j = i then aheadIn s.cmds phase else s.ahead j := by
  unfold setOpen ahead
  by_cases hj : j = i
  · subst hj
    simp
  · simp [hj]

/-- A phase that is ahead only if the one before was. -/
theorem Exclusive.setOpen {i : ℕ} {phase : OpenPhase} (hs : s.Exclusive)
    (hahead : aheadIn s.cmds phase → s.ahead i)
    (hphase : phase ≠ .start .authtoken) :
    (s.setOpen i phase).Exclusive := by
  have hless : ∀ j, (s.setOpen i phase).ahead j → s.ahead j := by
    intro j hj
    rw [setOpen_ahead] at hj
    split at hj
    next heq => exact heq ▸ hahead hj
    next => exact hj
  refine ⟨hs.panicked, ?_, ?_, hs.current, ?_, ?_, hs.bound, hs.fresh⟩
  · exact fun j k hj hk => hs.one j k (hless j hj) (hless k hk)
  · exact fun j hj => hs.idle j (hless j hj)
  · intro j hj
    by_cases heq : j = i
    · subst heq
      simp only [TunnelRun.setOpen, Function.update_self] at hj
      exact absurd hj hphase
    · simp only [TunnelRun.setOpen, Function.update_of_ne heq] at hj
      exact hs.auth j hj
  · intro hshut
    obtain ⟨hnone, hruns⟩ := hs.shut hshut
    exact ⟨fun j hj => hnone j (hless j hj), hruns⟩

theorem Exclusive.setClose {i : ℕ} {phase : ClosePhase} (hs : s.Exclusive)
    (hphase : phase = .succeeded →
      (∀ j, ¬ s.ahead j) ∧ ∀ c, ¬ s.TunnelRuns c) :
    (s.setClose i phase).Exclusive := by
  refine ⟨hs.panicked, hs.one, hs.idle, hs.current, hs.auth, ?_, hs.bound,
    hs.fresh⟩
  rintro (hoff | ⟨j, hj⟩)
  · exact hs.shut (Or.inl hoff)
  · by_cases heq : j = i
    · subst heq
      simp only [TunnelRun.setClose, Function.update_self] at hj
      exact hphase hj
    · simp only [TunnelRun.setClose, Function.update_of_ne heq] at hj
      exact hs.shut (Or.inr ⟨j, hj⟩)

theorem aheadIn_mono {cmds cmds' : ℕ → Cmd}
    (hdead : ∀ c, Dead (cmds c).process → Dead (cmds' c).process)
    {phase : OpenPhase} (hahead : aheadIn cmds' phase) :
    aheadIn cmds phase := by
  cases phase with
  | waiting command c =>
      cases command with
      | authtoken =>
          simp only [aheadIn, Bool.not_eq_eq_eq_not, Bool.not_true] at hahead ⊢
          by_contra hnot
          rw [Bool.not_eq_false] at hnot
          rw [hdead c hnot] at hahead
          cases hahead
      | tunnel => exact hahead
  | wait command =>
      cases command with
      | authtoken => rfl
      | tunnel => exact hahead
  | _ => exact hahead

/-- Processes that move on without a tunnel being started. -/
theorem Exclusive.setCmds {cmds : ℕ → Cmd} (hs : s.Exclusive)
    (hcommand : ∀ c, (cmds c).command = (s.cmds c).command)
    (hdead : ∀ c, Dead (s.cmds c).process → Dead (cmds c).process)
    (hruns : ∀ c, (cmds c).command = .tunnel →
      (cmds c).process = .running → (s.cmds c).process = .running)
    (hfresh : ∀ c, s.created ≤ c → (cmds c).process = .notStarted) :
    ({ s with cmds := cmds } : TunnelRun).Exclusive := by
  have hahead : ∀ i, ({ s with cmds := cmds } : TunnelRun).ahead i →
      s.ahead i := fun i hi => aheadIn_mono hdead hi
  have hrunning : ∀ c, ({ s with cmds := cmds } : TunnelRun).TunnelRuns c →
      s.TunnelRuns c := by
    rintro c ⟨htunnel, hproc⟩
    exact ⟨(hcommand c).symm.trans htunnel, hruns c htunnel hproc⟩
  refine ⟨hs.panicked, ?_, ?_, ?_, ?_, ?_, hs.bound, hfresh⟩
  · exact fun i j hi hj => hs.one i j (hahead i hi) (hahead j hj)
  · exact fun i hi c hc => hs.idle i (hahead i hi) c (hrunning c hc)
  · exact fun c hc => hs.current c (hrunning c hc)
  · exact fun i hi c hc => (hcommand c).trans (hs.auth i hi c hc)
  · intro hshut
    obtain ⟨hnone, hidle⟩ := hs.shut hshut
    exact ⟨fun i hi => hnone i (hahead i hi),
      fun c hc => hidle c (hrunning c hc)⟩

theorem Exclusive.setProcess {c : ℕ} {process : Process} (hs : s.Exclusive)
    (hdead : Dead (s.cmds c).process → Dead process)
    (hruns : (s.cmds c).command = .tunnel → process ≠ .running)
    (hbound : c < s.created) : (s.setProcess c process).Exclusive := by
  refine hs.setCmds ?_ ?_ ?_ ?_
  · intro c'
    by_cases heq : c' = c
    · subst heq
      simp
    · simp [heq]
  · intro c'
    by_cases heq : c' = c
    · subst heq
      simpa using hdead
    · simp [heq]
  · intro c'
    by_cases heq : c' = c
    · subst heq
      simp only [Function.update_self]
      exact fun htunnel hrunning => absurd hrunning (hruns htunnel)
    · simp [heq]
  · intro c' hc'
    have heq : c' ≠ c := by omega
    simp only [Function.update_of_ne heq]
    exact hs.fresh c' hc'

theorem Exclusive.created_of_ne {c : ℕ} (hs : s.Exclusive)
    (hstarted : (s.cmds c).process ≠ .notStarted) : c < s.created := by
  by_contra hge
  exact hstarted (hs.fresh c (Nat.not_lt.mp hge))

/-- A process that ends, or is waited for after it has ended. -/
theorem Exclusive.endProcess {c : ℕ} {process : Process} (hs : s.Exclusive)
    (hdead : Dead (s.cmds c).process → Dead process)
    (hstarted : (s.cmds c).process ≠ .notStarted)
    (hprocess : process ≠ .running) : (s.setProcess c process).Exclusive :=
  hs.setProcess hdead (fun _ => hprocess) (hs.created_of_ne hstarted)

theorem Exclusive.callWait {c : ℕ} (hs : s.Exclusive) :
    ({ s with
      cmds := Function.update s.cmds c
        { s.cmds c with waitCalled := true } } : TunnelRun).Exclusive := by
  refine hs.setCmds ?_ ?_ ?_ ?_
  all_goals
    intro c'
    by_cases heq : c' = c
  · subst heq
    simp
  · simp [heq]
  · subst heq
    simp
  · simp [heq]
  · subst heq
    simp
  · simp [heq]
  · subst heq
    simpa using hs.fresh c'
  · simpa [heq] using hs.fresh c'

/-! ## The steps of an `Open` that is ahead -/

/-- An `Open` that is ahead is the only one, and nothing is shut. -/
theorem Exclusive.not_shut {i : ℕ} (hs : s.Exclusive) (hi : s.ahead i) :
    ¬ s.Shut := fun hshut => (hs.shut hshut).1 i hi

theorem Exclusive.assign {i : ℕ} {command : Command} (hs : s.Exclusive)
    (hopen : s.opens i = .assign command) :
    ((s.assignCmd command).setOpen i (.start command)).Exclusive := by
  have hi : s.ahead i := by
    rw [ahead, hopen]
    rfl
  have hfresh := hs.fresh s.created le_rfl
  have hcmds : ∀ c, c ≠ s.created →
      (s.assignCmd command).cmds c = s.cmds c :=
    fun c hc => Function.update_of_ne hc _ _
  have hnew : (s.assignCmd command).cmds s.created =
      ⟨command, .notStarted, false⟩ := Function.update_self _ _ _
  have hahead : ∀ j, ((s.assignCmd command).setOpen i (.start command)).ahead
      j → s.ahead j := by
    intro j hj
    rw [setOpen_ahead] at hj
    split at hj
    next heq => exact heq ▸ hi
    next =>
      refine aheadIn_mono (fun c hdead => ?_) hj
      by_cases hc : c = s.created
      · rw [hc, hfresh] at hdead
        cases hdead
      · rw [hcmds c hc]
        exact hdead
  have hruns : ∀ c, ¬ (s.assignCmd command).TunnelRuns c := by
    rintro c ⟨htunnel, hrunning⟩
    by_cases hc : c = s.created
    · rw [hc, hnew] at hrunning
      cases hrunning
    · rw [hcmds c hc] at htunnel hrunning
      exact hs.idle i hi c ⟨htunnel, hrunning⟩
  refine ⟨hs.panicked, ?_, fun _ _ => hruns, ?_, ?_, ?_, ?_, ?_⟩
  · exact fun j k hj hk => hs.one j k (hahead j hj) (hahead k hk)
  · exact fun c hc => absurd hc (hruns c)
  · intro j hj c hc
    obtain rfl : s.created = c := Option.some.inj hc
    have hone : j = i := by
      apply hs.one j i (hahead j ?_) hi
      rw [ahead, hj]
      rfl
    subst hone
    simp only [TunnelRun.setOpen, Function.update_self,
      OpenPhase.start.injEq] at hj
    subst hj
    exact congrArg Cmd.command hnew
  · exact fun hshut => absurd hshut (hs.not_shut hi)
  · rintro c hc
    obtain rfl : s.created = c := Option.some.inj hc
    exact Nat.lt_succ_self _
  · intro c hc
    have hne : c ≠ s.created := Nat.ne_of_gt hc
    exact (congrArg Cmd.process (hcmds c hne)).trans
      (hs.fresh c (Nat.le_of_succ_le hc))

theorem Exclusive.startTunnel {i c : ℕ} (hs : s.Exclusive)
    (hopen : s.opens i = .start .tunnel) (hcmd : s.cmd = some c)
    (hproc : (s.cmds c).process = .notStarted) :
    ((s.setProcess c .running).setOpen i .getInfo).Exclusive := by
  have hi : s.ahead i := by
    rw [ahead, hopen]
    rfl
  have hnone : ∀ j, ¬ ((s.setProcess c .running).setOpen i .getInfo).ahead
      j := by
    intro j hj
    rw [setOpen_ahead] at hj
    split at hj
    next => cases hj
    next hne =>
      refine hne (hs.one j i (aheadIn_mono (fun c' hdead => ?_) hj) hi)
      by_cases hc : c' = c
      · rw [hc, hproc] at hdead
        cases hdead
      · simpa [TunnelRun.setProcess, hc] using hdead
  have hruns : ∀ c', (s.setProcess c .running).TunnelRuns c' → c' = c := by
    rintro c' ⟨htunnel, hrunning⟩
    by_contra hne
    simp only [TunnelRun.setProcess, Function.update_of_ne hne]
      at htunnel hrunning
    exact hs.idle i hi c' ⟨htunnel, hrunning⟩
  refine ⟨hs.panicked, ?_, ?_, ?_, ?_, ?_, hs.bound, ?_⟩
  · exact fun j _ hj => absurd hj (hnone j)
  · exact fun j hj => absurd hj (hnone j)
  · exact fun c' hc' => hruns c' hc' ▸ hcmd
  · intro j hj
    have hahead : ((s.setProcess c .running).setOpen i .getInfo).ahead j := by
      rw [ahead, hj]
      rfl
    exact absurd hahead (hnone j)
  · exact fun hshut => absurd hshut (hs.not_shut hi)
  · intro c' hc'
    have hne : c' ≠ c := by
      have hlt := hs.bound c hcmd
      have hge : s.created ≤ c' := hc'
      omega
    simp only [TunnelRun.setOpen, TunnelRun.setProcess,
      Function.update_of_ne hne]
    exact hs.fresh c' hc'

/-! ## Steps -/

theorem Exclusive.returned {i : ℕ} (hs : s.Exclusive) :
    (s.setOpen i .returned).Exclusive :=
  hs.setOpen (fun h => by cases h) nofun

theorem Exclusive.openStart {i : ℕ} {command : Command} {succeeds : Bool}
    (hs : s.Exclusive) (hopen : s.opens i = .start command)
    (hstep : s.openStart i command succeeds = some t) : t.Exclusive := by
  unfold TunnelRun.openStart at hstep
  split at hstep
  next c hcmd =>
    split at hstep
    next hstarts =>
      cases hstep
      cases command with
      | authtoken =>
          have hopened : (s.setOpen i (.wait .authtoken)).Exclusive :=
            hs.setOpen (fun _ => by rw [ahead, hopen]; rfl) nofun
          refine hopened.setProcess ?_ ?_ (hs.bound c hcmd)
          · intro hdead
            rw [show (s.setOpen i (.wait .authtoken)).cmds = s.cmds from rfl,
              hstarts.1] at hdead
            cases hdead
          · intro htunnel
            have hauth := hs.auth i hopen c hcmd
            exact absurd (hauth.symm.trans htunnel) (by decide)
      | tunnel => exact hs.startTunnel hopen hcmd hstarts.1
    next =>
      cases hstep
      exact hs.returned
  next => cases hstep

theorem Exclusive.openWait {i : ℕ} {command : Command} (hs : s.Exclusive)
    (hopen : s.opens i = .wait command)
    (hstep : s.openWait i command = some t) : t.Exclusive := by
  unfold TunnelRun.openWait at hstep
  split at hstep
  next c hcmd =>
    split at hstep
    next =>
      cases hstep
      exact hs.returned
    next =>
      cases hstep
      have hopened : (s.setOpen i (.waiting command c)).Exclusive := by
        refine hs.setOpen (fun hahead => ?_) nofun
        rw [ahead, hopen]
        cases command with
        | authtoken => rfl
        | tunnel => cases hahead
      exact hopened.callWait
  next => cases hstep

theorem Exclusive.openWaited {i c : ℕ} {command : Command} {succeeds : Bool}
    (hs : s.Exclusive) (hopen : s.opens i = .waiting command c)
    (hstep : s.openWaited i command c succeeds = some t) :
    t.Exclusive := by
  unfold TunnelRun.openWaited at hstep
  split at hstep
  next =>
    cases hstep
    exact hs.returned
  next success exited hproc =>
    cases hstep
    have hopened : (s.setOpen i (afterWait command success)).Exclusive := by
      refine hs.setOpen (fun hahead => ?_) ?_
      · rw [ahead, hopen]
        cases command with
        | authtoken =>
            cases success with
            | true => simp [aheadIn, hproc, Dead]
            | false => cases hahead
        | tunnel => cases hahead
      · cases command <;> cases success <;> exact nofun
    refine hopened.endProcess (fun _ => rfl) ?_ nofun
    rw [show (s.setOpen i (afterWait command success)).cmds = s.cmds from rfl,
      hproc]
    exact nofun
  next => cases hstep

theorem Exclusive.openStep {i : ℕ} {succeeds : Bool} (hs : s.Exclusive)
    (hstep : s.openStep i succeeds = some t) : t.Exclusive := by
  unfold TunnelRun.openStep at hstep
  split at hstep
  next command hopen =>
    cases hstep
    exact hs.assign hopen
  next command hopen => exact hs.openStart hopen hstep
  next hopen =>
    cases hstep
    split
    next => exact hs.setOpen (fun h => by cases h) nofun
    next => exact hs
  next command hopen => exact hs.openWait hopen hstep
  next command c hopen => exact hs.openWaited hopen hstep
  next => cases hstep

/-- Nothing runs when the current command does not. -/
theorem Exclusive.none_runs {c : ℕ} (hs : s.Exclusive)
    (hcmd : s.cmd = some c) (hproc : (s.cmds c).process ≠ .running) :
    ∀ c', ¬ s.TunnelRuns c' := by
  intro c' hruns
  have hsame := hs.current c' hruns
  rw [hcmd, Option.some.injEq] at hsame
  rw [hsame] at hproc
  exact hproc hruns.2

theorem Exclusive.closeKill {i : ℕ} {succeeds : Bool} (hs : s.Exclusive)
    (hclose : s.closes i = .kill)
    (htimely : s.Timely (.closeStep i succeeds)) :
    (s.closeKill i succeeds).Exclusive := by
  simp only [Timely, hclose] at htimely
  obtain ⟨c, hcmd, hstarted, hahead⟩ := htimely
  have hfails : (s.setClose i .returned).Exclusive := hs.setClose nofun
  unfold TunnelRun.closeKill
  rw [hcmd]
  dsimp only
  split
  next hproc => exact absurd hproc hstarted
  next hproc =>
    cases succeeds with
    | false => exact hfails
    | true =>
        have hkilled : (s.setProcess c (.ended false false)).Exclusive :=
          hs.endProcess (fun _ => rfl) hstarted nofun
        refine hkilled.setClose (fun _ => ⟨?_, ?_⟩)
        · intro j hj
          have hless : s.ahead j := by
            refine aheadIn_mono (fun c' hdead => ?_) hj
            by_cases hc : c' = c
            · rw [hc, hproc] at hdead
              cases hdead
            · simpa [TunnelRun.setProcess, hc] using hdead
          have hwaits := (hahead rfl (by simp [hproc]) j hless).1
          rw [ahead, show (s.setProcess c (.ended false false)).opens =
            s.opens from rfl, hwaits] at hj
          simp [aheadIn, TunnelRun.setProcess, Dead] at hj
        · apply hkilled.none_runs (c := c) hcmd
          simp [TunnelRun.setProcess]
  next success exited hproc =>
    cases succeeds with
    | false => exact hfails
    | true =>
        refine hs.setClose (fun _ => ⟨?_, ?_⟩)
        · intro j hj
          have hruns := (hahead rfl (by simp [hproc]) j hj).2
          rw [hproc] at hruns
          cases hruns
        · exact hs.none_runs hcmd (by simp [hproc])
  next => exact hfails

theorem Exclusive.closeStep {i : ℕ} {succeeds : Bool} (hs : s.Exclusive)
    (htimely : s.Timely (.closeStep i succeeds))
    (hstep : s.closeStep i succeeds = some t) : t.Exclusive := by
  unfold TunnelRun.closeStep at hstep
  split at hstep
  next hclose =>
    simp only [Timely, hclose] at htimely
    split at hstep
    next hcmd => exact absurd hcmd htimely
    next c hcmd =>
      split at hstep
      next =>
        cases hstep
        exact hs.setClose nofun
      next =>
        cases hstep
        exact hs.setClose nofun
  next hclose =>
    simp only [Timely, hclose] at htimely
    obtain ⟨c, exited, hcmd, hproc, hnone⟩ := htimely
    rw [hcmd] at hstep
    simp only [hproc] at hstep
    cases hstep
    refine hs.setClose (fun hphase => ?_)
    cases exited with
    | false => cases hphase
    | true => exact ⟨hnone rfl, hs.none_runs hcmd (by simp [hproc])⟩
  next hclose =>
    cases hstep
    exact hs.closeKill hclose htimely
  next hclose =>
    cases hstep
    have hshut := hs.shut (Or.inr ⟨i, hclose⟩)
    have hoff : ({ s with terminalOnline := false } : TunnelRun).Exclusive :=
      ⟨hs.panicked, hs.one, hs.idle, hs.current, hs.auth, fun _ => hshut,
        hs.bound, hs.fresh⟩
    exact hoff.setClose nofun
  next => cases hstep

theorem Exclusive.status {terminal : Bool} {i : ℕ} (hs : s.Exclusive)
    (htimely : s.Timely (.status terminal i))
    (hstep : s.status terminal i = some t) : t.Exclusive := by
  unfold TunnelRun.status at hstep
  split at hstep
  next hterminal =>
    split at hstep
    next =>
      cases hstep
      exact hs
    next hoff =>
      split at hstep
      next =>
        cases hstep
        obtain ⟨hnone, hruns⟩ :=
          hs.shut (Or.inl (Bool.eq_false_of_not_eq_true hoff))
        have honly : ∀ j, ({ s with terminalOnline := true }.setOpen i
            (.assign .authtoken)).ahead j → j = i := by
          intro j hj
          rw [setOpen_ahead] at hj
          split at hj
          next heq => exact heq
          next => exact absurd hj (hnone j)
        refine ⟨hs.panicked, ?_, fun _ _ => hruns, ?_, ?_, ?_, hs.bound,
          hs.fresh⟩
        · exact fun j k hj hk => (honly j hj).trans (honly k hk).symm
        · exact fun c hc => absurd hc (hruns c)
        · intro j hj
          have heq := honly j (by rw [ahead, hj]; rfl)
          subst heq
          simp [TunnelRun.setOpen] at hj
        · rintro (hoff' | ⟨j, hj⟩)
          · cases hoff'
          · exact absurd hj (htimely hterminal hoff j)
      next => cases hstep
  next =>
    split at hstep
    next =>
      split at hstep
      next =>
        cases hstep
        exact hs.setClose nofun
      next => cases hstep
    next =>
      cases hstep
      exact hs

theorem Exclusive.step {event : TunnelEvent} (hs : s.Exclusive)
    (htimely : s.Timely event) (hstep : s.step event = some t) :
    t.Exclusive := by
  unfold TunnelRun.step at hstep
  rw [if_neg (by simp [hs.panicked])] at hstep
  cases event with
  | status terminal i => exact hs.status htimely hstep
  | openStep i succeeds => exact hs.openStep hstep
  | closeStep i succeeds => exact hs.closeStep htimely hstep
  | ends c success exited =>
      simp only at hstep
      split at hstep
      next hproc =>
        cases hstep
        refine hs.endProcess (fun hdead => ?_) (by simp [hproc]) nofun
        rw [hproc] at hdead
        cases hdead
      next => cases hstep

/-- While the calls of `Close` are timely, none of them uses a command or a
process that is missing, and a tunnel that was shut does not run. -/
theorem sound_while_timely {events : List TunnelEvent}
    (hrun : GuardedRun TunnelRun.step Timely initial events s) : s.Sound := by
  have hs : s.Exclusive :=
    hrun.invariant (fun _ _ _ hs htimely hstep => hs.step htimely hstep)
      initial_exclusive
  exact hs.sound

/-- The first command of an `Open` is killed while it is waited for. -/
theorem sound_while_timely_killed :
    ∃ s, Run TunnelRun.step initial
        [.status true 0, .openStep 0 true, .openStep 0 true, .openStep 0 true,
          .status false 0, .closeStep 0 true, .closeStep 0 true,
          .closeStep 0 true, .openStep 0 true] s ∧
      s.terminalOnline = false ∧ s.opens 0 = .returned ∧ s.Sound := by
  have h0 : GuardedRun TunnelRun.step Timely initial [] initial := .nil
  have h1 := h0.snoc
    (show Timely _ (.status true 0) from
      fun _ _ _ h => ClosePhase.noConfusion h) rfl
  have h2 := h1.snoc (show Timely _ (.openStep 0 true) from trivial) rfl
  have h3 := h2.snoc (show Timely _ (.openStep 0 true) from trivial) rfl
  have h4 := h3.snoc (show Timely _ (.openStep 0 true) from trivial) rfl
  have h5 := h4.snoc
    (show Timely _ (.status false 0) from
      fun h => absurd h Bool.false_ne_true) rfl
  have h6 := h5.snoc
    (show Timely _ (.closeStep 0 true) from Option.some_ne_none 0) rfl
  have h7 := h6.snoc
    (show Timely _ (.closeStep 0 true) from by
      have hstarted : Process.running ≠ .notStarted := by decide
      refine ⟨0, rfl, hstarted, fun _ _ j hj => ?_⟩
      match j with
      | 0 => exact ⟨rfl, rfl⟩
      | j + 1 => exact absurd hj Bool.false_ne_true) rfl
  have h8 := h7.snoc (show Timely _ (.closeStep 0 true) from trivial) rfl
  have h9 := h8.snoc (show Timely _ (.openStep 0 true) from trivial) rfl
  exact ⟨_, h9.run, rfl, rfl, sound_while_timely h9⟩

/-- `Close` finds that the first command has exited, and the `Open` goes on
to start the tunnel. -/
theorem tunnel_left_open :
    ¬ ∀ events s, Run TunnelRun.step initial events s → s.Sound := by
  intro hall
  have h0 : Run TunnelRun.step initial [] initial := .nil
  have h1 := h0.snoc trivial (show step _ (.status true 0) = _ from rfl)
  have h2 := h1.snoc trivial (show step _ (.openStep 0 true) = _ from rfl)
  have h3 := h2.snoc trivial (show step _ (.openStep 0 true) = _ from rfl)
  have h4 := h3.snoc trivial (show step _ (.openStep 0 true) = _ from rfl)
  have h5 := h4.snoc trivial (show step _ (.ends 0 true true) = _ from rfl)
  have h6 := h5.snoc trivial (show step _ (.openStep 0 true) = _ from rfl)
  have h7 := h6.snoc trivial (show step _ (.status false 0) = _ from rfl)
  have h8 := h7.snoc trivial (show step _ (.closeStep 0 true) = _ from rfl)
  have h9 := h8.snoc trivial (show step _ (.closeStep 0 true) = _ from rfl)
  have h10 := h9.snoc trivial (show step _ (.closeStep 0 true) = _ from rfl)
  have h11 := h10.snoc trivial (show step _ (.openStep 0 true) = _ from rfl)
  have h12 := h11.snoc trivial (show step _ (.openStep 0 true) = _ from rfl)
  have h13 := h12.snoc trivial (show step _ (.openStep 0 true) = _ from rfl)
  have h14 := h13.snoc trivial (show step _ (.openStep 0 true) = _ from rfl)
  have hsound := hall _ _ h14
  refine hsound.shut rfl ?_ ?_ 1 ⟨rfl, rfl⟩
  · intro i
    match i with
    | 0 => rfl
    | i + 1 => rfl
  · intro i
    match i with
    | 0 => trivial
    | i + 1 => trivial

end TunnelRun

end DronesmithEngine.Cloudlink
