import DronesmithEngine.Goroutines
import DronesmithEngine.LabelledRuns
import DronesmithEngine.UploadHandles

/-!
# Scans of the flight directory

One round of `listener` in `cloudlink/flightsyncer.go`, from the file names
that `Glob` found until the timer is set again.  The uploads run one after the
other on the listener's own goroutine, which is the only one at the channel
`filesDone`.  The lock name and the ids can be others at each file.
-/

namespace DronesmithEngine.Cloudlink

open Go LabelledRuns

def TICKER_INTERVAL : ℕ := 15

/-- A file that was found, the lock name when the loop comes to it, and what
its upload meets. -/
structure Flight where
  f : String
  lockname : String
  fs : FlightSyncer
  env : Environment

structure Scan (capacity : ℕ) where
  filesDone : Chan Bool capacity
  /-- The values that were sent over the channel, each with its file. -/
  sent : List (String × Bool)
  received : List Bool
  /-- The seconds that the timer was set to, after it had fired. -/
  checker : Option ℕ

namespace Scan

variable {capacity : ℕ}

def initial (capacity : ℕ) : Scan capacity where
  filesDone := Chan.make Bool capacity
  sent := []
  received := []
  checker := none

/-- `filesDone <- synced`. -/
def sendDone (f : String) (synced : Bool) :
    Goroutine (Scan capacity) Unit :=
  Goroutine.act fun s =>
    (s.filesDone.send synced).map fun filesDone =>
      ((), { s with filesDone := filesDone, sent := s.sent ++ [(f, synced)] })

/-- `<- filesDone`. -/
def receiveDone : Goroutine (Scan capacity) Unit :=
  Goroutine.act fun s =>
    s.filesDone.receive.map fun (synced, filesDone) =>
      ((),
        { s with
          filesDone := filesDone, received := s.received ++ [synced] })

def closeDone : Goroutine (Scan capacity) Unit :=
  Goroutine.act fun s =>
    s.filesDone.close.map fun filesDone =>
      ((), { s with filesDone := filesDone })

def resetChecker : Goroutine (Scan capacity) Unit :=
  Goroutine.act fun s => .ok ((), { s with checker := some TICKER_INTERVAL })

/-- Of what an upload does, the channel sees the values. -/
def observe (f : String) : UploadEvent → Goroutine (Scan capacity) Unit
  | .done synced => sendDone f synced
  | _ => pure ()

/-- The upload, whose values go over the channel as it comes to them. -/
def uploadFile (flight : Flight) : Goroutine (Scan capacity) Unit := do
  forM (trace flight.fs flight.env) (observe flight.f)
  match (traceUpload flight.fs flight.env []).1 with
  | .ok _ => pure ()
  | .error panic => throw (.panicked panic)

def checkFile (flight : Flight) : Goroutine (Scan capacity) Unit :=
  if flight.lockname ≠ flight.f then uploadFile flight
  else sendDone flight.f true

/-- The case of `listener` for a timer that fired. -/
def scan (files : List Flight) : Goroutine (Scan capacity) Unit := do
  forM files checkFile
  forM files fun _ => receiveDone
  closeDone
  resetChecker

end Scan

/-- How the scan of these files ends, and what it leaves. -/
def listen (files : List Flight) : Except Halt Unit × Scan files.length :=
  (Scan.scan files).run.run (Scan.initial files.length)

/-- The value for a file is the result of its upload, and that for a locked
file is `true`. -/
structure Flight.Reports (flight : Flight) (value : String × Bool) :
    Prop where
  f : value.1 = flight.f
  unlocked : flight.lockname ≠ flight.f →
    (upload flight.fs flight.env []).1 = .ok value.2
  locked : flight.lockname = flight.f → value.2 = true

/-- One value was sent for each file, all were received, and the next scan is
due. -/
structure Scan.Finished {capacity : ℕ} (files : List Flight)
    (s : Scan capacity) : Prop where
  sent : List.Forall₂ Flight.Reports files s.sent
  received : s.received = s.sent.map Prod.snd
  count : s.received.length = files.length
  drained : s.filesDone.buffer = []
  scheduled : s.checker = some TICKER_INTERVAL

/-- The scan comes to its end, so that nothing in it blocks or panics. -/
structure Completes (files : List Flight) : Prop where
  returns : (listen files).1 = .ok ()
  finished : (listen files).2.Finished files

/-- The file is locked, or its upload gets to no PUT, or there is a URL for
that. -/
def Flight.Passes (flight : Flight) : Prop :=
  flight.lockname ≠ flight.f → (∃ n, Chunk flight.fs flight.env n) →
    ¬ NilRequest flight.env

/-! ## Steps -/

namespace Scan

variable {capacity : ℕ}

/-- One value was sent for each of the files `checked`, and what was sent was
received or waits in the channel. -/
structure Accounted (checked : List Flight) (rounds : ℕ)
    (s : Scan capacity) : Prop where
  closed : s.filesDone.closed = false
  sent : List.Forall₂ Flight.Reports checked s.sent
  conserved : s.received ++ s.filesDone.buffer = s.sent.map Prod.snd
  received : s.received.length = rounds

theorem accounted_initial (capacity : ℕ) :
    (initial capacity).Accounted [] 0 :=
  ⟨rfl, .nil, rfl, rfl⟩

variable {checked : List Flight} {rounds : ℕ} {s : Scan capacity}

theorem Accounted.length (hs : s.Accounted checked rounds) :
    rounds + s.filesDone.buffer.length = checked.length := by
  have hconserved := congrArg List.length hs.conserved
  rw [List.length_append, List.length_map, hs.received] at hconserved
  rw [hconserved]
  exact hs.sent.length_eq.symm

theorem sendDone_returns {flight : Flight} {synced : Bool}
    (hroom : checked.length < capacity)
    (hreports : flight.Reports (flight.f, synced)) :
    Goroutine.Returns (Accounted checked 0)
      (sendDone flight.f synced : Goroutine (Scan capacity) Unit)
      fun _ => Accounted (checked ++ [flight]) 0 := by
  apply Goroutine.Returns.act
  intro s hs
  have hlength := hs.length
  obtain ⟨next, hsend, hopen, hbuffer⟩ :=
    Chan.Holds.send ⟨hs.closed, rfl⟩ (by omega) synced
  rw [hsend]
  refine ⟨(), _, rfl, hopen, ?_, ?_, hs.received⟩
  · exact List.rel_append hs.sent (.cons hreports .nil)
  · rw [hbuffer, List.map_append, ← hs.conserved, List.append_assoc]
    rfl

theorem receiveDone_returns (hwaiting : rounds < checked.length) :
    Goroutine.Returns (Accounted checked rounds)
      (receiveDone : Goroutine (Scan capacity) Unit)
      fun _ => Accounted checked (rounds + 1) := by
  apply Goroutine.Returns.act
  intro s hs
  have hlength := hs.length
  cases hbuffer : s.filesDone.buffer with
  | nil =>
      rw [hbuffer, List.length_nil] at hlength
      omega
  | cons synced rest =>
      obtain ⟨next, hreceive, hopen, hrest⟩ :=
        Chan.Holds.receive ⟨hs.closed, hbuffer⟩
      rw [hreceive]
      refine ⟨(), _, rfl, hopen, hs.sent, ?_, ?_⟩
      · rw [hrest, ← hs.conserved, hbuffer, List.append_assoc]
        rfl
      · rw [List.length_append, hs.received]
        rfl

/-! ## Uploads -/

/-- An upload is to the channel what the values are that it sends. -/
theorem observe_all (f : String) (events : List UploadEvent) :
    (forM events (observe f) : Goroutine (Scan capacity) Unit) =
      forM (Cloudlink.sent events) (sendDone f) := by
  induction events with
  | nil => rfl
  | cons event events ih =>
      rw [List.forM_cons, ih]
      cases event with
      | done synced => rfl
      | opened handle => rfl
      | closed handle => rfl

theorem checkFile_returns {flight : Flight} (hpasses : flight.Passes)
    (hroom : checked.length < capacity) :
    Goroutine.Returns (Accounted checked 0)
      (checkFile flight : Goroutine (Scan capacity) Unit)
      fun _ => Accounted (checked ++ [flight]) 0 := by
  unfold checkFile
  by_cases hlock : flight.lockname ≠ flight.f
  · rw [if_pos hlock]
    obtain ⟨synced, hends⟩ :=
      traceUpload_ends flight.fs flight.env fun ⟨hchunk, hnil⟩ =>
        hpasses hlock hchunk hnil
    obtain ⟨hresult, hsent⟩ := hends.trace
    have hreports : flight.Reports (flight.f, synced) :=
      ⟨rfl, fun _ => upload_of_sent hsent, fun heq => absurd heq hlock⟩
    unfold uploadFile
    rw [observe_all, hsent, hresult, List.forM_cons, List.forM_nil]
    apply Goroutine.Returns.bind
      (Q := fun _ => Accounted (checked ++ [flight]) 0)
    · apply (sendDone_returns hroom hreports).bind
      exact fun _ => .pure fun _ hs => hs
    · exact fun _ => .pure fun _ hs => hs
  · rw [if_neg hlock]
    rw [ne_eq, not_not] at hlock
    exact sendDone_returns hroom
      ⟨rfl, fun hne => absurd hlock hne, fun _ => rfl⟩

theorem checkFile_stops {flight : Flight} (hpasses : ¬ flight.Passes) :
    Goroutine.Stops (Accounted checked 0)
      (checkFile flight : Goroutine (Scan capacity) Unit)
      (.panicked .nilDereference) := by
  simp only [Flight.Passes, Classical.not_imp, not_not] at hpasses
  obtain ⟨hlock, ⟨n, hchunk⟩, hnil⟩ := hpasses
  obtain ⟨hresult, hsent⟩ := (hchunk.traceUpload_panics hnil).trace
  unfold checkFile uploadFile
  rw [if_pos hlock, observe_all, hsent, hresult, List.forM_nil]
  exact .throw

/-! ## The scan -/

theorem checkFiles_returns {files : List Flight}
    (hpasses : ∀ flight ∈ files, flight.Passes) :
    Goroutine.Returns (Accounted [] 0)
      (forM files checkFile : Goroutine (Scan files.length) Unit)
      fun _ => Accounted files 0 := by
  apply Goroutine.Returns.loop (I := fun before => Accounted before 0)
  intro before flight after hfiles
  apply checkFile_returns
  · apply hpasses
    rw [hfiles]
    exact List.mem_append_right before List.mem_cons_self
  · exact Goroutine.length_before hfiles

theorem receiveAll_returns (files : List Flight) :
    Goroutine.Returns (Accounted files 0)
      (forM files fun _ => receiveDone : Goroutine (Scan capacity) Unit)
      fun _ => Accounted files files.length := by
  apply Goroutine.Returns.loop
    (I := fun before => Accounted files before.length)
  intro before flight after hfiles
  rw [List.length_append]
  exact receiveDone_returns (Goroutine.length_before hfiles)

/-- With as many values received as there are files, none is left. -/
theorem finish_returns (files : List Flight) :
    Goroutine.Returns (Accounted files files.length)
      (closeDone >>= fun _ => resetChecker : Goroutine (Scan capacity) Unit)
      fun _ => Finished files := by
  intro s hs
  have hlength := hs.length
  have hempty : s.filesDone.buffer = [] :=
    List.length_eq_zero_iff.mp (by omega)
  obtain ⟨next, hclose, hbuffer⟩ :=
    Chan.Holds.close ⟨hs.closed, hempty⟩
  have hrun : closeDone.run.run s =
      (.ok (), { s with filesDone := next }) := by
    apply Goroutine.run_act_of_ok
    rw [hclose]
    rfl
  refine ⟨(), _, Goroutine.run_bind_of_ok hrun, hs.sent, ?_, hs.received,
    hbuffer, rfl⟩
  rw [← hs.conserved, hempty, List.append_nil]

theorem scan_returns {files : List Flight}
    (hpasses : ∀ flight ∈ files, flight.Passes) :
    Goroutine.Returns (Accounted [] 0)
      (scan files : Goroutine (Scan files.length) Unit)
      fun _ => Finished files := by
  apply (checkFiles_returns hpasses).bind
  intro _
  apply (receiveAll_returns files).bind
  intro _
  exact finish_returns files

theorem scan_stops {files : List Flight}
    (hpasses : ¬ ∀ flight ∈ files, flight.Passes) :
    Goroutine.Stops (Accounted [] 0)
      (scan files : Goroutine (Scan files.length) Unit)
      (.panicked .nilDereference) := by
  apply Goroutine.Stops.bind_left
  apply Goroutine.Stops.loop (p := Flight.Passes)
    (I := fun before => Accounted before 0)
  · intro before flight after hfiles hgood
    exact checkFile_returns hgood (Goroutine.length_before hfiles)
  · exact fun before flight hbad => checkFile_stops hbad
  · simpa only [not_forall, exists_prop] using hpasses

end Scan

/-! ## Results -/

theorem completes_of_passes {files : List Flight}
    (hpasses : ∀ flight ∈ files, flight.Passes) : Completes files := by
  obtain ⟨_, s, hrun, hfinished⟩ :=
    Scan.scan_returns hpasses _ (Scan.accounted_initial files.length)
  have hlisten : listen files = (.ok (), s) := hrun
  constructor
  · rw [hlisten]
  · rw [hlisten]
    exact hfinished

theorem listen_panics {files : List Flight}
    (hpasses : ¬ ∀ flight ∈ files, flight.Passes) :
    (listen files).1 = .error (.panicked .nilDereference) := by
  obtain ⟨s, hrun⟩ :=
    Scan.scan_stops hpasses _ (Scan.accounted_initial files.length)
  exact congrArg Prod.fst hrun

/-- The channel has room for every value that is sent, and every receive finds
one, whatever comes of the uploads. -/
theorem listen_never_blocks (files : List Flight) :
    (listen files).1 ≠ .error .blocked := by
  by_cases hpasses : ∀ flight ∈ files, flight.Passes
  · rw [(completes_of_passes hpasses).returns]
    nofun
  · rw [listen_panics hpasses]
    nofun

/-- A scan completes exactly when no upload in it comes to a PUT for which
there is no request. -/
theorem scan_completes_iff (files : List Flight) :
    Completes files ↔ ∀ flight ∈ files, flight.Passes := by
  constructor
  · intro hcompletes
    by_contra hpasses
    have hpanics := listen_panics hpasses
    rw [hcompletes.returns] at hpanics
    cases hpanics
  · exact completes_of_passes

/-- The id in the answer to the POST is no part of a URL. -/
theorem malformed_id_ends_scans : ¬ ∀ files, Completes files := by
  intro hall
  let answer : Body :=
    .json (.object [("status", .string "OK"), ("id", .string "%zz")])
  let env : Environment :=
    { DSCHttp := "http://127.0.0.1:4000"
      content := [1, 2, 3]
      opens := true
      read := .bytes 3 (by decide) (by decide) (by decide)
      post := .response answer
      validURL := fun url =>
        url ≠ "http://127.0.0.1:4000/rt/mission/%zz/associate"
      put := .failed
      removes := true }
  let flight : Flight :=
    { f := "flights/Flight 1"
      lockname := ""
      fs := ⟨"drone", "user"⟩
      env := env }
  have hchunk : Chunk flight.fs env 3 := by
    refine ⟨?_, rfl, ⟨_, _, _, rfl⟩⟩
    decide
  have hpost : PostOK env (Unmarshal ∅ answer).2 :=
    ⟨⟨answer, rfl, rfl⟩, by decide⟩
  have hnil : NilRequest env := ⟨_, hpost, by decide⟩
  have hfails : ¬ ∀ found ∈ ([flight] : List Flight), found.Passes :=
    fun hpasses =>
      hpasses flight List.mem_cons_self (by decide) ⟨3, hchunk⟩ hnil
  have hpanics := listen_panics hfails
  rw [(hall [flight]).returns] at hpanics
  cases hpanics

/-! ## Scan after scan -/

/-- The listener waits in its `select`, has returned, or went down in a
scan. -/
inductive ListenerLoop
  | waiting (checker : Option ℕ)
  | returned
  | halted (halt : Halt)

inductive ListenerEvent
  | quit
  | tick (files : List Flight)

namespace ListenerLoop

def initial : ListenerLoop := .waiting (some TICKER_INTERVAL)

/-- A timer that was not set again never fires. -/
def step : ListenerLoop → ListenerEvent → Option ListenerLoop
  | .waiting _, .quit => some .returned
  | .waiting (some _), .tick files =>
      match listen files with
      | (.ok _, s) => some (.waiting s.checker)
      | (.error halt, _) => some (.halted halt)
  | _, _ => none

def Passes : ListenerLoop → ListenerEvent → Prop
  | _, .quit => True
  | _, .tick files => ∀ flight ∈ files, flight.Passes

/-- The next scan is due, unless the listener was told to quit. -/
def Due (s : ListenerLoop) : Prop :=
  s = .waiting (some TICKER_INTERVAL) ∨ s = .returned

theorem due_step {s next : ListenerLoop} {event : ListenerEvent}
    (hdue : s.Due) (hpasses : s.Passes event)
    (hstep : step s event = some next) : next.Due := by
  rcases hdue with rfl | rfl
  · cases event with
    | quit =>
        cases hstep
        exact Or.inr rfl
    | tick files =>
        obtain ⟨hreturns, hfinished⟩ := completes_of_passes hpasses
        rcases hlisten : listen files with ⟨result, final⟩
        rw [hlisten] at hreturns hfinished
        have hresult : result = .ok () := hreturns
        subst hresult
        simp only [step, hlisten] at hstep
        cases hstep
        left
        rw [hfinished.scheduled]
  · cases hstep

theorem due_while_passing {events : List ListenerEvent} {s : ListenerLoop}
    (hrun : GuardedRun step Passes initial events s) : s.Due :=
  hrun.invariant (fun _ _ _ => due_step) (Or.inl rfl)

end ListenerLoop

end DronesmithEngine.Cloudlink
