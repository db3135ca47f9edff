import DronesmithEngine.FlightSyncer
import DronesmithEngine.LabelledRuns
import Mathlib.Tactic

/-!
# Saving flights while they are synced

`fmulink/flightsaver.go` and the heartbeats of `fmulink/fmulink.go` that start
and end a log, among the scans of the syncer's listeners.  The saver and the
syncer join a name to the same directory, so that a file goes by its name
here.  A check and what `upload` does after it are one step, as are creating
a file, a change of the lock, and every write.
-/

namespace DronesmithEngine.Cloudlink

open Go LabelledRuns

/-! ## What an upload does to the file -/

def Action.isPost : Action → Bool
  | .post _ _ _ => true
  | _ => false

def Action.isRemove : Action → Bool
  | .remove => true
  | _ => false

def uploads (fs : FlightSyncer) (env : Environment) : Bool :=
  (actions fs env).any Action.isPost

def removes (fs : FlightSyncer) (env : Environment) : Bool :=
  (actions fs env).any Action.isRemove

/-- There is no drone, or the file cannot be opened or read, or it is empty
and cannot be removed. -/
def leavesAlone (fs : FlightSyncer) (env : Environment) : Bool :=
  fs.DroneId = "" || !env.opens ||
    match env.read with
    | .failed => true
    | .eof _ => !env.removes
    | .bytes _ _ _ _ => false

theorem uploads_of_chunk {fs : FlightSyncer} {env : Environment} {n : ℕ}
    (hchunk : Chunk fs env n) : uploads fs env := by
  obtain ⟨url, ctype, hpost⟩ :=
    (hchunk.records.post (env.content.take n)).mpr (List.mem_singleton_self _)
  exact List.any_eq_true.mpr ⟨_, hpost, rfl⟩

/-- A file is uploaded or removed unless it is left alone. -/
theorem uploads_or_removes_iff (fs : FlightSyncer) (env : Environment) :
    uploads fs env ∨ removes fs env ↔ ¬ leavesAlone fs env := by
  have hquiet : actions fs env = [] → ¬ (uploads fs env ∨ removes fs env) := by
    intro hnil
    simp [uploads, removes, hnil]
  by_cases hid : fs.DroneId = ""
  · apply iff_of_false
    · apply hquiet
      rw [actions, upload, if_pos hid]
      rfl
    · simp [leavesAlone, hid]
  by_cases hopens : ¬ env.opens
  · apply iff_of_false
    · apply hquiet
      rw [actions, upload, if_neg hid, if_pos hopens]
      rfl
    · simp [leavesAlone, hopens]
  have hupload : upload fs env =
      match env.read with
      | .failed => pure false
      | .eof _ => do
          let _ ← Remove env
          pure false
      | .bytes n _ _ _ => send fs env (env.content.take n) := by
    rw [upload, if_neg hid]
    exact if_neg hopens
  rw [not_not] at hopens
  cases hread : env.read with
  | failed =>
      rw [hread] at hupload
      apply iff_of_false
      · apply hquiet
        rw [actions, hupload]
        rfl
      · simp [leavesAlone, hread]
  | eof hempty =>
      rw [hread] at hupload
      have hactions : actions fs env =
          if env.removes then [.remove] else [] := by
        rw [actions, hupload]
        exact (remove_adds env).discard false []
      by_cases hremoves : env.removes
      · apply iff_of_true
        · right
          rw [removes, hactions, if_pos hremoves]
          rfl
        · simp [leavesAlone, hid, hopens, hread, hremoves]
      · apply iff_of_false
        · apply hquiet
          rw [hactions, if_neg hremoves]
        · simp [leavesAlone, hread, hremoves]
  | bytes n hpos hn hcap =>
      have hchunk : Chunk fs env n := ⟨hid, hopens, hpos, hn, hcap, hread⟩
      apply iff_of_true
      · exact Or.inl (uploads_of_chunk hchunk)
      · simp [leavesAlone, hid, hopens, hread]

/-! ## The saver and the scans -/

/-- Where the goroutine of the saver is: with no log, between `Start` and
`SendSyncLock`, with a log and what is still to be written of a packet, or
between `End` and `SendSyncUnlock`. -/
inductive SaverPhase
  | idle
  | started (name : String) (created : Bool)
  | logging (name : String) (chunks : List (List UInt8))
  | ended

/-- The file that is being written, from its creation until it is closed. -/
def SaverPhase.openFile : SaverPhase → Option String
  | .started name true => some name
  | .logging name _ => some name
  | _ => none

/-- A file that was created and is not locked yet. -/
def SaverPhase.newFile : SaverPhase → Option String
  | .started name true => some name
  | _ => none

structure LogRun where
  files : GoMap String (List UInt8)
  phase : SaverPhase
  msgSet : Finset UInt8
  lockname : Option String
  /-- The files that are left in every scan. -/
  scans : List (List String)
  /-- The files that were uploaded or removed while they were open. -/
  disturbed : List String

inductive LogEvent
  | Start (name : String) (created : Bool)
  | SendSyncLock
  | Persist (hdr : UInt8) (time data : List UInt8)
  | write (written : Bool)
  | throttle
  | End
  | SendSyncUnlock
  | glob (names : List String)
  | check (i : ℕ) (fs : FlightSyncer) (env : Environment)

namespace LogRun

def initial (files : GoMap String (List UInt8)) : LogRun where
  files := files
  phase := .idle
  msgSet := ∅
  lockname := none
  scans := []
  disturbed := []

def append (s : LogRun) (name : String) (chunk : List UInt8) :
    GoMap String (List UInt8) :=
  match s.files.lookup name with
  | some content => s.files.insert name (content ++ chunk)
  -- The file was removed, and nobody sees what is written.
  | none => s.files

/-- What an upload of a file leaves. -/
def uploaded (s : LogRun) (f : String) (fs : FlightSyncer)
    (env : Environment) : LogRun :=
  { s with
    files := if removes fs env then s.files.erase f else s.files
    disturbed :=
      if s.phase.openFile = some f ∧ (uploads fs env ∨ removes fs env) then
        s.disturbed ++ [f]
      else s.disturbed }

def step (s : LogRun) : LogEvent → Option LogRun
  | .Start name created =>
      match s.phase with
      | .idle =>
          some
            { s with
              files := if created then s.files.insert name [] else s.files
              phase := .started name created
              msgSet := ∅ }
      | _ => none
  -- The error of `Start` is ignored.
  | .SendSyncLock =>
      match s.phase with
      | .started name created =>
          some
            { s with
              lockname := some name
              phase := if created then .logging name [] else .idle }
      | _ => none
  | .Persist hdr time data =>
      match s.phase with
      | .logging name [] =>
          if hdr ∈ s.msgSet then some s
          else
            some
              { s with
                msgSet := insert hdr s.msgSet
                phase := .logging name [time, data] }
      | _ => none
  | .write written =>
      match s.phase with
      | .logging name (chunk :: chunks) =>
          if written then
            some
              { s with
                files := s.append name chunk
                phase := .logging name chunks }
          else some { s with phase := .logging name [] }
      | _ => none
  | .throttle => some { s with msgSet := ∅ }
  | .End =>
      match s.phase with
      | .logging _ [] => some { s with phase := .ended }
      | _ => none
  | .SendSyncUnlock =>
      match s.phase with
      | .ended => some { s with lockname := none, phase := .idle }
      | _ => none
  | .glob names =>
      if ∀ name ∈ names, name ∈ s.files then
        some { s with scans := s.scans ++ [names] }
      else none
  | .check i fs env =>
      match s.scans[i]? with
      | some (f :: rest) =>
          let next := { s with scans := s.scans.set i rest }
          if s.lockname = some f then some next
          else if env.opens ∧ s.files.lookup f ≠ some env.content then none
          else some (next.uploaded f fs env)
      | _ => none

def nextFile (s : LogRun) (i : ℕ) : Option String :=
  s.scans[i]?.bind List.head?

/-- A file that was created and not locked yet is left alone. -/
def Undisturbed (s : LogRun) : LogEvent → Prop
  | .check i fs env =>
      ∀ name ∈ s.phase.newFile, s.nextFile i = some name →
        s.lockname ≠ some name → leavesAlone fs env
  | _ => True

instance (s : LogRun) : DecidablePred s.Undisturbed
  | .check i fs env =>
      inferInstanceAs (Decidable (∀ name ∈ s.phase.newFile,
        s.nextFile i = some name → s.lockname ≠ some name →
          leavesAlone fs env))
  | .Start _ _ | .SendSyncLock | .Persist _ _ _ | .write _ | .throttle | .End
  | .SendSyncUnlock | .glob _ => .isTrue trivial

/-- No file was disturbed, and a log that is being written is locked. -/
structure Locked (s : LogRun) : Prop where
  disturbed : s.disturbed = []
  locked : ∀ name chunks, s.phase = .logging name chunks →
    s.lockname = some name

theorem initial_locked (files : GoMap String (List UInt8)) :
    (initial files).Locked := ⟨rfl, nofun⟩

variable {s t : LogRun}

theorem uploaded_disturbed_iff {f : String} {fs : FlightSyncer}
    {env : Environment} (hclean : s.disturbed = []) :
    (s.uploaded f fs env).disturbed = [] ↔
      (s.phase.openFile = some f → leavesAlone fs env) := by
  unfold uploaded
  dsimp only
  by_cases hopen : s.phase.openFile = some f
  · by_cases htouched : uploads fs env ∨ removes fs env
    · have hnot := (uploads_or_removes_iff fs env).mp htouched
      simp [hopen, htouched, hnot]
    · rw [uploads_or_removes_iff, not_not] at htouched
      simp [hopen, hclean, uploads_or_removes_iff, htouched]
  · simp [hopen, hclean]

/-- A log that is being written can only be disturbed before it is locked. -/
theorem Locked.uploaded_iff {f : String} {fs : FlightSyncer}
    {env : Environment} (hlocked : s.Locked) (hf : s.lockname ≠ some f) :
    (s.uploaded f fs env).disturbed = [] ↔
      (s.phase.newFile = some f → leavesAlone fs env) := by
  rw [uploaded_disturbed_iff hlocked.disturbed]
  have hopen : s.phase.openFile = some f ↔ s.phase.newFile = some f := by
    cases hphase : s.phase with
    | idle => exact Iff.rfl
    | started name created => cases created <;> exact Iff.rfl
    | logging name chunks =>
        have hname := hlocked.locked name chunks hphase
        rw [hname, ne_eq, Option.some.injEq] at hf
        simp [SaverPhase.openFile, SaverPhase.newFile, hf]
    | ended => exact Iff.rfl
  rw [hopen]

theorem Locked.check {i : ℕ} {fs : FlightSyncer} {env : Environment}
    (hlocked : s.Locked) (hstep : s.step (.check i fs env) = some t) :
    t.phase = s.phase ∧ t.lockname = s.lockname ∧
      (t.disturbed = [] ↔ s.Undisturbed (.check i fs env)) := by
  simp only [step] at hstep
  split at hstep
  next f rest hscan =>
    split at hstep
    next hf =>
      cases hstep
      refine ⟨rfl, rfl, iff_of_true hlocked.disturbed ?_⟩
      intro name _ hnext hname
      rw [nextFile, hscan] at hnext
      cases hnext
      exact absurd hf hname
    next hf =>
      split at hstep
      next => cases hstep
      next =>
        cases hstep
        refine ⟨rfl, rfl, ?_⟩
        have hnext : ({ s with scans := s.scans.set i rest } :
            LogRun).Locked := ⟨hlocked.disturbed, hlocked.locked⟩
        rw [hnext.uploaded_iff hf]
        constructor
        · intro hleft name hphase hnext _
          rw [nextFile, hscan] at hnext
          cases hnext
          exact hleft hphase
        · intro hguard hphase
          exact hguard f hphase (by rw [nextFile, hscan]; rfl) hf
  next => cases hstep

/-- The log that is being written stays the one that is locked. -/
theorem Locked.keepsLog {name : String} {chunks : List (List UInt8)}
    (hlocked : s.Locked) (hphase : s.phase = .logging name chunks)
    (files : GoMap String (List UInt8)) (msgSet : Finset UInt8)
    (left : List (List UInt8)) :
    ({ s with files := files, msgSet := msgSet, phase := .logging name left } :
      LogRun).Locked := by
  refine ⟨hlocked.disturbed, ?_⟩
  rintro _ _ ⟨⟩
  exact hlocked.locked name chunks hphase

theorem Locked.step {event : LogEvent} (hlocked : s.Locked)
    (hguard : s.Undisturbed event) (hstep : s.step event = some t) :
    t.Locked := by
  obtain ⟨hclean, hlock⟩ := hlocked
  cases event with
  | check i fs env =>
      obtain ⟨hphase, hname, hdisturbed⟩ :=
        Locked.check ⟨hclean, hlock⟩ hstep
      refine ⟨hdisturbed.mpr hguard, ?_⟩
      rw [hphase, hname]
      exact hlock
  | throttle =>
      cases hstep
      exact ⟨hclean, hlock⟩
  | glob names =>
      simp only [LogRun.step] at hstep
      split at hstep
      next =>
        cases hstep
        exact ⟨hclean, hlock⟩
      next => cases hstep
  | Start name created =>
      simp only [LogRun.step] at hstep
      split at hstep
      next =>
        cases hstep
        exact ⟨hclean, nofun⟩
      next => cases hstep
  | SendSyncLock =>
      simp only [LogRun.step] at hstep
      split at hstep
      next name created hphase =>
        cases hstep
        refine ⟨hclean, ?_⟩
        intro locked chunks hlogging
        cases created with
        | true =>
            cases hlogging
            rfl
        | false => cases hlogging
      next => cases hstep
  | Persist hdr time data =>
      simp only [LogRun.step] at hstep
      split at hstep
      next name hphase =>
        split at hstep
        next =>
          cases hstep
          exact ⟨hclean, hlock⟩
        next =>
          cases hstep
          exact Locked.keepsLog ⟨hclean, hlock⟩ hphase s.files _ _
      next => cases hstep
  | write written =>
      simp only [LogRun.step] at hstep
      split at hstep
      next name chunk chunks hphase =>
        split at hstep
        next =>
          cases hstep
          exact Locked.keepsLog ⟨hclean, hlock⟩ hphase _ s.msgSet chunks
        next =>
          cases hstep
          exact Locked.keepsLog ⟨hclean, hlock⟩ hphase s.files s.msgSet []
      next => cases hstep
  | End =>
      simp only [LogRun.step] at hstep
      split at hstep
      next =>
        cases hstep
        exact ⟨hclean, nofun⟩
      next => cases hstep
  | SendSyncUnlock =>
      simp only [LogRun.step] at hstep
      split at hstep
      next =>
        cases hstep
        exact ⟨hclean, nofun⟩
      next => cases hstep

/-- As long as no file is uploaded or removed between its creation and
`SendSyncLock`, none is while it is being written; and the first one that is
uploaded or removed then was open. -/
theorem undisturbed_while_open {files : GoMap String (List UInt8)}
    {events : List LogEvent}
    (hrun : GuardedRun step Undisturbed (initial files) events s) :
    s.disturbed = [] ∧
      ∀ event t, s.step event = some t → ¬ s.Undisturbed event →
        t.disturbed ≠ [] := by
  have hlocked : s.Locked :=
    hrun.invariant (fun _ _ _ hlocked hguard hstep =>
      hlocked.step hguard hstep) (initial_locked files)
  refine ⟨hlocked.disturbed, ?_⟩
  intro event t hstep hguard
  cases event with
  | check i fs env =>
      exact fun hclean => hguard ((hlocked.check hstep).2.2.mp hclean)
  | _ => exact absurd trivial hguard

/-- The syncer's answer for a file that is empty: it is garbage. -/
def emptyFile : Environment where
  DSCHttp := ""
  content := []
  opens := true
  read := .eof rfl
  post := .failed
  validURL := fun _ => true
  put := .failed
  removes := true

/-- The check of a new file comes after it was locked. -/
theorem undisturbed_while_open_locked :
    ∃ s, Run step (initial ∅)
        [.Start "Flight 1" true, .glob ["Flight 1"], .SendSyncLock,
          .check 0 ⟨"d", "u"⟩ emptyFile] s ∧
      s.disturbed = [] := by
  have hexec : (exec step Undisturbed (initial ∅)
      [.Start "Flight 1" true, .glob ["Flight 1"], .SendSyncLock,
        .check 0 ⟨"d", "u"⟩ emptyFile]).isSome := by
    decide
  obtain ⟨s, hrun⟩ := GuardedRun.of_exec_isSome hexec
  exact ⟨s, hrun.run, (undisturbed_while_open hrun).1⟩

/-- The check comes between the creation and the lock: the file is still
empty, and is removed. -/
theorem removed_before_lock :
    ¬ ∀ files events s, Run step (initial files) events s →
      s.disturbed = [] := by
  intro hall
  have hexec : (exec step (fun _ _ => True) (initial ∅)
      [.Start "Flight 1" true, .glob ["Flight 1"],
        .check 0 ⟨"d", "u"⟩ emptyFile]).map LogRun.disturbed =
          some ["Flight 1"] := by
    decide
  obtain ⟨s, hrun, hdisturbed⟩ := GuardedRun.of_exec_map hexec
  rw [hall _ _ s hrun] at hdisturbed
  cases hdisturbed

end LogRun

end DronesmithEngine.Cloudlink
