import DronesmithEngine.CloudLink
import DronesmithEngine.LabelledRuns
import Mathlib.Tactic

/-!
# For whom flights are uploaded

Every call of the read thread and of the status timer is one step, and
uploads begin between them.  An upload copies the ids of the syncer when it
begins; one that begins without a listener only adds runs.
-/

namespace DronesmithEngine.Cloudlink

open Go Apiservice LabelledRuns

/-! ## The association of an upload -/

def sendMap (fs : FlightSyncer) : StringMap :=
  ((∅ : StringMap).insert "user" fs.UserId).insert "drone" fs.DroneId

/-- Every association in the list names the ids of the syncer. -/
def AssociatesWith (fs : FlightSyncer) (rest : List Action) : Prop :=
  ∀ url ctype data, .put url ctype data ∈ rest → data = sendMap fs

theorem associate_associates (fs : FlightSyncer) (env : Environment)
    (resMap : StringMap) :
    ∃ rest, Adds (associate fs env resMap) rest ∧
      AssociatesWith fs rest := by
  by_cases hurl : env.validURL (associateURL env resMap)
  · rw [associate_of_valid fs env resMap hurl]
    by_cases hassociates : Associates env resMap
    · rw [associated_eq_remove env resMap hassociates]
      refine ⟨_, (remove_adds env).perform _, ?_⟩
      intro url ctype data hput
      split at hput <;> simp [associateAction] at hput <;> exact hput.2.2
    · rw [associated_eq_pure env resMap hurl hassociates]
      refine ⟨_, (adds_nil false).perform _, ?_⟩
      intro url ctype data hput
      simp only [associateAction, List.mem_singleton, Action.put.injEq]
        at hput
      exact hput.2.2
  · refine ⟨[], associate_of_invalid fs env resMap hurl, ?_⟩
    rintro url ctype data ⟨⟩

theorem send_associates (fs : FlightSyncer) (env : Environment)
    (chunk : List UInt8) :
    ∃ rest, Adds (send fs env chunk) rest ∧ AssociatesWith fs rest := by
  rw [send_eq]
  obtain ⟨rest, hadds, hrest⟩ :
      ∃ rest, Adds (answered fs env) rest ∧ AssociatesWith fs rest := by
    by_cases hpost : ∃ resMap, PostOK env resMap
    · obtain ⟨resMap, hpost⟩ := hpost
      rw [answered_eq_associate fs hpost]
      exact associate_associates fs env resMap
    · rw [answered_eq_pure fs (not_exists.mp hpost)]
      exact ⟨[], adds_nil false, by rintro url ctype data ⟨⟩⟩
  refine ⟨_, hadds.perform _, ?_⟩
  intro url ctype data hput
  rcases List.mem_cons.mp hput with hput | hput
  · cases hput
  · exact hrest url ctype data hput

/-- An upload associates with the ids of the syncer, and only with a
drone. -/
theorem upload_associates {fs : FlightSyncer} {env : Environment}
    {url ctype : String} {data : StringMap}
    (hput : .put url ctype data ∈ actions fs env) :
    fs.DroneId ≠ "" ∧ data = sendMap fs := by
  unfold actions upload at hput
  split at hput
  next => cases hput
  next hid =>
    refine ⟨hid, ?_⟩
    split at hput
    next => cases hput
    next =>
      cases hread : env.read with
      | failed =>
          rw [hread] at hput
          cases hput
      | eof hempty =>
          rw [hread] at hput
          change _ ∈ ((Remove env >>= fun _ => (pure false : Syncing Bool))
            []).2 at hput
          rw [(remove_adds env).discard false] at hput
          split at hput <;> simp at hput
      | bytes n hpos hn hcap =>
          rw [hread] at hput
          obtain ⟨rest, hadds, hrest⟩ :=
            send_associates fs env (env.content.take n)
          change _ ∈ (send fs env (env.content.take n) []).2 at hput
          rw [hadds] at hput
          exact hrest url ctype data hput

/-! ## Runs -/

/-- An upload, the ids it copied, and those of the status message that was
handled last before it began. -/
structure Upload where
  fs : FlightSyncer
  env : Environment
  latest : Option FlightSyncer

structure CloudRun where
  cl : CloudLink
  latest : Option FlightSyncer
  uploads : List Upload

inductive CloudEvent
  | handleMessage (decoded : Msg)
  | sendStatus
  | checkOnline
  | readFailed
  | Serve
  | Logout (left : StringMap)
  | setIdentity (uid : String) (store : StringMap)
  | upload (env : Environment)

/-- The user and the drone that a status message names. -/
def named (decoded : Msg) : Option FlightSyncer :=
  match decoded.Op == OP_STATUS, decoded.Data with
  | true, .status statusMsg =>
      match Apiservice.get statusMsg.Drone "_id" with
      | .string droneId => some ⟨droneId, statusMsg.User⟩
      | _ => none
  | _, _ => none

/-- The state after a call; a panic ends the program. -/
def after (x : Effect CloudLink Unit) (cl : CloudLink) : Option CloudLink :=
  match x cl with
  | (.ok _, cl) => some cl
  | (.error _, _) => none

section

variable {ε : Type} (Marshal : Outgoing StatusMsg → Except ε (List UInt8))

namespace CloudRun

def step (s : CloudRun) : CloudEvent → Option CloudRun
  | .handleMessage decoded =>
      (after (CloudLink.handleMessage decoded) s.cl).map fun cl =>
        { s with cl := cl, latest := (named decoded).or s.latest }
  | .sendStatus =>
      (after (CloudLink.sendStatus Marshal) s.cl).map fun cl =>
        { s with cl := cl }
  | .checkOnline => some { s with cl := s.cl.checkOnline }
  | .readFailed => some { s with cl := s.cl.readFailed }
  | .Serve => some { s with cl := s.cl.Serve }
  | .Logout left => some { s with cl := s.cl.Logout left }
  | .setIdentity uid store =>
      some { s with cl := { s.cl with uid := uid, store := store } }
  | .upload env =>
      some
        { s with
          uploads :=
            s.uploads ++ [⟨s.cl.syncer.toFlightSyncer, env, s.latest⟩] }

def initial (cl : CloudLink) : CloudRun where
  cl := { cl with syncer := NewFlightSyncer }
  latest := none
  uploads := []

end CloudRun

end

/-! ## Whom the syncer names -/

/-- A running syncer names the drone and the user of the last status message,
and a stopped one names no drone. -/
structure Syncer.Follows (fs : Syncer) (latest : Option FlightSyncer) :
    Prop where
  running : fs.isRunning → fs.DroneId ≠ "" ∧ latest = some fs.toFlightSyncer
  stopped : ¬ fs.isRunning → fs.DroneId = ""

theorem NewFlightSyncer_follows (latest : Option FlightSyncer) :
    NewFlightSyncer.Follows latest where
  running hrunning := absurd hrunning Bool.false_ne_true
  stopped _ := rfl

namespace CloudLink

variable {cl cl' : CloudLink} {latest : Option FlightSyncer}

@[simp] theorem record_syncer (action : CloudAction) (cl : CloudLink) :
    (cl.record action).syncer = cl.syncer := rfl

@[simp] theorem stopSyncer_syncer (cl : CloudLink) :
    cl.stopSyncer.syncer = NewFlightSyncer := rfl

@[simp] theorem handleTerminal_syncer (terminal : Bool) (cl : CloudLink) :
    (cl.handleTerminal terminal).syncer = cl.syncer := by
  unfold handleTerminal
  split <;> split <;> rfl

@[simp] theorem checkOnline_syncer (cl : CloudLink) :
    cl.checkOnline.syncer = cl.syncer := by
  unfold checkOnline
  split <;> rfl

theorem stopOther_cases (userId droneId : String) (cl : CloudLink) :
    (cl.stopOther userId droneId).syncer = NewFlightSyncer ∨
      (cl.stopOther userId droneId).syncer = cl.syncer ∧
        (cl.syncer.isRunning →
          cl.syncer.toFlightSyncer = ⟨droneId, userId⟩) := by
  unfold stopOther
  split
  next => exact Or.inl rfl
  next hsame =>
    refine Or.inr ⟨rfl, fun hrunning => ?_⟩
    simp only [hrunning, true_and, not_or, not_not] at hsame
    obtain ⟨rfl, rfl⟩ := hsame
    rfl

theorem startStopped_follows {userId droneId : String}
    (hfollows : cl.syncer.Follows (some ⟨droneId, userId⟩)) :
    (cl.startStopped userId droneId).syncer.Follows
      (some ⟨droneId, userId⟩) := by
  unfold startStopped
  split
  next => exact hfollows
  next hstopped =>
    unfold startSyncer Syncer.Start
    by_cases hid : droneId = ""
    · rw [if_pos (Or.inl hid)]
      exact hfollows
    · rw [if_neg (by simp [hid, hstopped])]
      exact ⟨fun _ => ⟨hid, rfl⟩, fun hnot => absurd rfl hnot⟩

theorem handleStatus_follows (statusMsg : StatusMsg) (droneId : String)
    (hfollows : cl.syncer.Follows latest) :
    (cl.handleStatus statusMsg droneId).syncer.Follows
      (some ⟨droneId, statusMsg.User⟩) := by
  rw [handleStatus, handleTerminal_syncer]
  apply startStopped_follows
  rcases stopOther_cases statusMsg.User droneId cl with hnew | ⟨hold, hsame⟩
  · rw [hnew]
    exact NewFlightSyncer_follows _
  · rw [hold]
    exact
      { running := fun hrunning =>
          ⟨(hfollows.running hrunning).1, congrArg some (hsame hrunning).symm⟩
        stopped := hfollows.stopped }

/-- A message that is handled names nobody and changes at most the command
for the flight controller, or is a status message. -/
theorem handleMessage_cases {decoded : Msg}
    (hhandled : after (handleMessage decoded) cl = some cl') :
    (named decoded = none ∧ ∃ chunk,
      cl' = { cl.heard decoded.Session with rawFmuCmd := chunk }) ∨
      ∃ statusMsg droneId,
        named decoded = some ⟨droneId, statusMsg.User⟩ ∧
          cl' = (cl.heard decoded.Session).handleStatus statusMsg droneId := by
  obtain ⟨op, session, data⟩ := decoded
  by_cases hbinary : op = OP_MAVLINK_BIN
  · left
    subst hbinary
    cases data with
    | bytes chunk =>
        cases hhandled
        exact ⟨rfl, some chunk, rfl⟩
    | _ => cases hhandled
  · by_cases hstatus : op = OP_STATUS
    · right
      subst hstatus
      cases data with
      | status statusMsg =>
          unfold after handleMessage at hhandled
          simp only [if_neg hbinary, if_true, Effect.modify_bind] at hhandled
          cases hid : Apiservice.get statusMsg.Drone "_id" with
          | string droneId =>
              rw [hid] at hhandled
              cases hhandled
              refine ⟨statusMsg, droneId, ?_, rfl⟩
              simp only [named, beq_self_eq_true, hid]
          | _ =>
              rw [hid] at hhandled
              cases hhandled
      | _ => cases hhandled
    · left
      unfold after handleMessage at hhandled
      simp only [if_neg hbinary, if_neg hstatus, Effect.modify_bind]
        at hhandled
      cases hhandled
      refine ⟨?_, cl.rawFmuCmd, rfl⟩
      simp only [named, beq_eq_false_iff_ne.mpr hstatus]

theorem handleMessage_follows {decoded : Msg}
    (hhandled : after (handleMessage decoded) cl = some cl')
    (hfollows : cl.syncer.Follows latest) :
    cl'.syncer.Follows ((named decoded).or latest) := by
  rcases handleMessage_cases hhandled with
    ⟨hnone, chunk, rfl⟩ | ⟨statusMsg, droneId, hnamed, rfl⟩
  · rw [hnone]
    exact hfollows
  · rw [hnamed]
    have hheard : (cl.heard decoded.Session).syncer.Follows latest := hfollows
    exact handleStatus_follows statusMsg droneId hheard

/-- A status message is left out when it cannot be generated. -/
theorem sendStatus_cases {ε : Type}
    {Marshal : Outgoing StatusMsg → Except ε (List UInt8)}
    (hsent : after (sendStatus Marshal) cl = some cl') :
    cl' = cl.stopOffline.checkOnline ∨
      ∃ ddpdata, cl' =
        (cl.stopOffline.record (.write ddpdata)).checkOnline := by
  unfold after sendStatus at hsent
  simp only [Effect.modify_bind, Effect.read_bind] at hsent
  generalize GenerateMsg Marshal OP_STATUS _ _ = generated at hsent
  rcases generated with e | e | ddpdata
  · cases hsent
  · cases hsent
    exact Or.inl rfl
  · cases hsent
    exact Or.inr ⟨ddpdata, rfl⟩

theorem sendStatus_follows {ε : Type}
    {Marshal : Outgoing StatusMsg → Except ε (List UInt8)}
    (hsent : after (sendStatus Marshal) cl = some cl')
    (hfollows : cl.syncer.Follows latest) : cl'.syncer.Follows latest := by
  have hoffline : cl.stopOffline.syncer.Follows latest := by
    unfold stopOffline
    split
    · exact NewFlightSyncer_follows latest
    · exact hfollows
  rcases sendStatus_cases hsent with rfl | ⟨ddpdata, rfl⟩
  · simpa using hoffline
  · simpa using hoffline

end CloudLink

namespace CloudRun

variable {ε : Type} {Marshal : Outgoing StatusMsg → Except ε (List UInt8)}
  {s t : CloudRun}

/-- The syncer follows the last status message, and so did every upload when
it began. -/
structure Follows (s : CloudRun) : Prop where
  syncer : s.cl.syncer.Follows s.latest
  uploads : ∀ u ∈ s.uploads, u.fs.DroneId ≠ "" → u.latest = some u.fs

theorem initial_follows (cl : CloudLink) : (initial cl).Follows where
  syncer := NewFlightSyncer_follows none
  uploads _ hu := absurd hu List.not_mem_nil

theorem Follows.step {event : CloudEvent} (hfollows : s.Follows)
    (hstep : step Marshal s event = some t) : t.Follows := by
  obtain ⟨hsyncer, huploads⟩ := hfollows
  cases event with
  | handleMessage decoded =>
      obtain ⟨cl, hhandled, rfl⟩ := Option.map_eq_some_iff.mp hstep
      exact ⟨CloudLink.handleMessage_follows hhandled hsyncer, huploads⟩
  | sendStatus =>
      obtain ⟨cl, hsent, rfl⟩ := Option.map_eq_some_iff.mp hstep
      exact ⟨CloudLink.sendStatus_follows hsent hsyncer, huploads⟩
  | checkOnline =>
      cases hstep
      refine ⟨?_, huploads⟩
      rw [CloudLink.checkOnline_syncer]
      exact hsyncer
  | readFailed | Serve | Logout left | setIdentity uid store =>
      cases hstep
      exact ⟨hsyncer, huploads⟩
  | upload env =>
      cases hstep
      refine ⟨hsyncer, ?_⟩
      intro u hu hid
      rcases List.mem_append.mp hu with hold | hnew
      · exact huploads u hold hid
      · rw [List.mem_singleton] at hnew
        subst hnew
        by_cases hrunning : s.cl.syncer.isRunning
        · exact (hsyncer.running hrunning).2
        · exact absurd (hsyncer.stopped hrunning) hid

theorem run_follows {cl : CloudLink} {events : List CloudEvent}
    (hrun : Run (step Marshal) (initial cl) events s) : s.Follows :=
  hrun.invariant (fun _ _ _ hfollows _ hstep => hfollows.step hstep)
    (initial_follows cl)

/-- A running syncer has the ids of the last status message, with a drone, and
every association that an upload sends has those of the last one before the
upload. -/
theorem associates_latest {cl : CloudLink} {events : List CloudEvent}
    (hrun : Run (step Marshal) (initial cl) events s) :
    (s.cl.syncer.isRunning →
      s.cl.syncer.DroneId ≠ "" ∧
        s.latest = some s.cl.syncer.toFlightSyncer) ∧
    ∀ u ∈ s.uploads, ∀ url ctype data,
      .put url ctype data ∈ actions u.fs u.env →
        ∃ ids, u.latest = some ids ∧ data = sendMap ids := by
  have hfollows := run_follows hrun
  refine ⟨hfollows.syncer.running, ?_⟩
  intro u hu url ctype data hput
  obtain ⟨hid, hdata⟩ := upload_associates hput
  exact ⟨u.fs, hfollows.uploads u hu hid, hdata⟩

/-- A drone is named, a flight is uploaded for it, and both requests are
answered. -/
theorem associates_latest_named :
    ∃ (cl : CloudLink) (events : List CloudEvent) (s : CloudRun),
      Run (step fun _ => (.error () : Except Unit (List UInt8))) (initial cl)
        events s ∧
      s.cl.syncer.toFlightSyncer = ⟨"d", "u"⟩ ∧
      (∃ u ∈ s.uploads, ∃ url ctype data,
        .put url ctype data ∈ actions u.fs u.env) ∧
      s.cl.syncer.DroneId ≠ "" ∧
      ∀ u ∈ s.uploads, ∀ url ctype data,
        .put url ctype data ∈ actions u.fs u.env →
          ∃ ids, u.latest = some ids ∧ data = sendMap ids := by
  let cl : CloudLink :=
    { sessionId := 0, messageCnt := TIME_OUT_CNT, terminalOnline := false
      uid := "", SimId := "", syncer := NewFlightSyncer, store := ∅
      rawFmuCmd := none, recorded := [] }
  let statusMsg : StatusMsg :=
    { Op := "status", Serial := "", SimId := "", Email := "", Password := ""
      Drone := (∅ : GoMap String Json).insert "_id" (.string "d")
      User := "u", Terminal := false }
  let answer : Body := .json (.object [("status", .string "OK")])
  let env : Environment :=
    { DSCHttp := "", content := [1], opens := true
      read := .bytes 1 (by decide) (by decide) (by decide)
      post := .response answer, validURL := fun _ => true
      put := .response answer, removes := true }
  let s : CloudRun :=
    { cl := (cl.heard 7).handleStatus statusMsg "d"
      latest := some ⟨"d", "u"⟩
      uploads := [⟨⟨"d", "u"⟩, env, some ⟨"d", "u"⟩⟩] }
  have hrun : Run (step fun _ => (.error () : Except Unit (List UInt8)))
      (initial cl)
      ([] ++ [.handleMessage ⟨OP_STATUS, 7, .status statusMsg⟩] ++
        [.upload env]) s :=
    .snoc (.snoc .nil trivial rfl) trivial rfl
  have hfollows := associates_latest hrun
  refine ⟨cl, _, s, hrun, rfl, ?_, (hfollows.1 rfl).1, hfollows.2⟩
  exact ⟨_, List.mem_singleton_self _, _, _, _,
    List.mem_cons_of_mem _ List.mem_cons_self⟩

end CloudRun

end DronesmithEngine.Cloudlink
