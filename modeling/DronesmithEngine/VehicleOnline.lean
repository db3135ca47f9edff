import DronesmithEngine.VehicleTelemetry
import DronesmithEngine.Watchdogs
import Mathlib.Tactic

/-!
# Whether a vehicle is online

The flag of a vehicle and the flags of its subsystems are watchdogs of five
seconds.  Only a heartbeat sets the flag of the vehicle, and most of the other
messages keep it; a subsystem has no messages that keep its flag but do not
set it.
-/

namespace DronesmithEngine

open Go Mavlink Utils Api EventHistories Watchdogs

/-- The limit of both checks. -/
def patience : ℕ := 5 * second

/-- What a message is to the watchdog of the vehicle. -/
def messageSignal : Message → Option Signal
  | .heartbeat _ => some .feed
  | .distanceSensor _ => none
  | .opticalFlowRad _ => none
  | .commandAck _ => none
  | .statustext _ => none
  | _ => some .refresh

def linkSignal : Time × VehicleEvent → Option (ℕ × Signal)
  | (now, .init (.packet p)) =>
      ((wholeMessage p).bind messageSignal).map fun signal => (now, signal)
  | (now, .init .checkSysOnline) => some (now, .check)
  | _ => none

/-- The subsystem that a message shows to be there. -/
def subSystemOf : Message → Option String
  | .gpsRawInt _ => some "GPS"
  | .attitude _ => some "Estimator"
  | .localPositionNed _ => some "Estimator"
  | .globalPositionInt _ => some "Estimator"
  | .servoOutputRaw _ => some "Motors"
  | .rcChannels _ => some "RadioControl"
  | .highresImu _ => some "IMU"
  | .attitudeTarget _ => some "Controller"
  | .positionTargetLocalNed _ => some "Controller"
  | .positionTargetGlobalInt _ => some "Controller"
  | .distanceSensor _ => some "RangeFinder"
  | .opticalFlowRad _ => some "OpticalFlow"
  | _ => none

def subSystemSignal (name : String) :
    Time × VehicleEvent → Option (ℕ × Signal)
  | (now, .init (.packet p)) =>
      if (wholeMessage p).bind subSystemOf = some name then some (now, .feed)
      else none
  | (now, .checkSubSystem checked) =>
      if checked = name then some (now, .check) else none
  | _ => none

/-! ## The flag of the vehicle -/

def Observed.link (o : Observed) : Watchdog where
  online := o.status.Online
  last := o.info.LastUpdate

namespace Api.VehicleApi

def link (v : VehicleApi) : Watchdog where
  online := v.SysOnline
  last := v.info.LastUpdate

theorem link_CheckSysOnline (v : VehicleApi) (now : Time) :
    (v.CheckSysOnline now).link = step patience v.link (now, .check) := by
  rw [step_check]
  unfold CheckSysOnline
  change (if v.link.online ∧ patience < now - v.link.last then
    { v with status := { v.status with Online := false } } else v).link = _
  split <;> rfl

@[simp] theorem link_UpdateSubSystem (v : VehicleApi) (name : String)
    (now : Time) : (v.UpdateSubSystem name now).link = v.link := by
  unfold UpdateSubSystem
  cases v.subSystems.lookup name with
  | none => rfl
  | some _ => rfl

@[simp] theorem link_CheckSubSystem (v : VehicleApi) (name : String)
    (now : Time) : (v.CheckSubSystem name now).link = v.link := by
  unfold CheckSubSystem
  split
  · rfl
  · split <;> rfl

end Api.VehicleApi

theorem Vehicle.link_applyMessage (v : Vehicle) (now : Time) (m : Message) :
    (v.applyMessage now m).api.link =
      (messageSignal m).elim v.api.link
        fun signal => step patience v.api.link (now, signal) := by
  cases m with
  | commandAck m =>
      simp only [applyMessage, know, UpdateFromAck_api]
      rfl
  | heartbeat m => rfl
  | sysStatus m => rfl
  | paramValue m => rfl
  | vfrHud m => rfl
  | autopilotVersion m => rfl
  | homePosition m => rfl
  | extendedSysState m => rfl
  | statustext m => rfl
  | _ => exact VehicleApi.link_UpdateSubSystem _ _ _

/-- An event steps the watchdog of the vehicle by its signal. -/
theorem InitVehicle.link_happen (v : InitVehicle)
    (event : Time × VehicleEvent) :
    (v.happen event).api.link =
      (linkSignal event).elim v.api.link (step patience v.api.link) := by
  obtain ⟨now, event⟩ := event
  by_cases hinternal : event.Internal
  · have hnone : linkSignal (now, event) = none := by
      unfold linkSignal
      split
      next heq =>
        cases heq
        exact hinternal.elim
      next heq =>
        cases heq
        exact hinternal.elim
      next => rfl
    rw [hnone]
    exact congrArg Observed.link
      (v.observed_happen_of_internal now hinternal)
  · cases event with
    | init event =>
        cases event with
        | packet p =>
            have hadopt : (v.vehicle.adoptSystem p).api.link = v.api.link :=
              congrArg Observed.link (v.vehicle.observed_adoptSystem p)
            rw [(v.happen_packet now p).1, linkSignal]
            cases wholeMessage p with
            | none => exact hadopt
            | some m =>
                rw [Option.elim_some, Option.bind_some,
                  Vehicle.link_applyMessage, hadopt]
                cases messageSignal m <;> rfl
        | checkSysOnline => exact v.api.link_CheckSysOnline now
        | _ => exact absurd trivial hinternal
    | checkSubSystem name => exact v.api.link_CheckSubSystem name now
    | _ => exact absurd trivial hinternal

/-! ## The flags of the subsystems -/

namespace Api.VehicleApi

def watchdog (v : VehicleApi) (name : String) : Option Watchdog :=
  (v.subSystems.lookup name).map fun s => ⟨s.Online, s.Updated⟩

theorem watchdog_CheckSubSystem (v : VehicleApi) (checked name : String)
    (now : Time) :
    (v.CheckSubSystem checked now).watchdog name =
      if checked = name then
        (v.watchdog name).map fun w => step patience w (now, .check)
      else v.watchdog name := by
  unfold watchdog
  cases hlookup : v.subSystems.lookup checked with
  | none =>
      have hsame : v.CheckSubSystem checked now = v := by
        rw [CheckSubSystem, hlookup]
      rw [hsame]
      split
      next hname =>
        rw [← hname, hlookup]
        rfl
      next => rfl
  | some s =>
      by_cases hname : checked = name
      · subst hname
        by_cases hlate : s.Online ∧ 5 * second < now - s.Updated
        · simp [CheckSubSystem, hlookup, hlate, step_check, patience]
        · simp [CheckSubSystem, hlookup, hlate, step_check, patience]
      · rw [if_neg hname]
        simp only [CheckSubSystem, hlookup]
        split
        · simp only [Finmap.lookup_insert_of_ne _ (Ne.symm hname)]
        · rfl

theorem watchdog_UpdateSubSystem (v : VehicleApi) (updated name : String)
    (now : Time) :
    (v.UpdateSubSystem updated now).watchdog name =
      if updated = name then
        (v.watchdog name).map fun w => step patience w (now, .feed)
      else v.watchdog name := by
  unfold watchdog UpdateSubSystem
  by_cases hname : updated = name
  · subst hname
    cases hlookup : v.subSystems.lookup updated with
    | none => simp [hlookup]
    | some s => simp [step]
  · rw [if_neg hname]
    cases v.subSystems.lookup updated with
    | none => rfl
    | some s => simp [Finmap.lookup_insert_of_ne _ (Ne.symm hname)]

theorem watchdog_CheckSysOnline (v : VehicleApi) (now : Time)
    (name : String) :
    (v.CheckSysOnline now).watchdog name = v.watchdog name := by
  unfold CheckSysOnline
  split <;> rfl

end Api.VehicleApi

def Observed.watchdog (o : Observed) (name : String) : Option Watchdog :=
  (o.subSystems.lookup name).map fun s => ⟨s.Online, s.Updated⟩

theorem Vehicle.watchdog_applyMessage (v : Vehicle) (now : Time)
    (m : Message) (name : String) :
    (v.applyMessage now m).api.watchdog name =
      if subSystemOf m = some name then
        (v.api.watchdog name).map fun w => step patience w (now, .feed)
      else v.api.watchdog name := by
  cases m with
  | commandAck m =>
      simp only [applyMessage, know, UpdateFromAck_api]
      rfl
  | heartbeat m => rfl
  | sysStatus m => rfl
  | paramValue m => rfl
  | vfrHud m => rfl
  | autopilotVersion m => rfl
  | homePosition m => rfl
  | extendedSysState m => rfl
  | statustext m => rfl
  | _ =>
      simp only [subSystemOf, Option.some.injEq]
      exact VehicleApi.watchdog_UpdateSubSystem _ _ _ _

/-- An event steps the watchdog of each subsystem by its signal for it. -/
theorem InitVehicle.watchdog_happen (v : InitVehicle) (name : String)
    (event : Time × VehicleEvent) :
    (v.happen event).api.watchdog name =
      (subSystemSignal name event).elim (v.api.watchdog name) fun signal =>
        (v.api.watchdog name).map fun w => step patience w signal := by
  obtain ⟨now, event⟩ := event
  by_cases hinternal : event.Internal
  · have hnone : subSystemSignal name (now, event) = none := by
      unfold subSystemSignal
      split
      next heq =>
        cases heq
        exact hinternal.elim
      next heq =>
        cases heq
        exact hinternal.elim
      next => rfl
    rw [hnone]
    exact congrArg (fun o => o.watchdog name)
      (v.observed_happen_of_internal now hinternal)
  · cases event with
    | init event =>
        cases event with
        | packet p =>
            have hadopt : (v.vehicle.adoptSystem p).api.watchdog name =
                v.api.watchdog name :=
              congrArg (fun o => o.watchdog name)
                (v.vehicle.observed_adoptSystem p)
            rw [(v.happen_packet now p).1, subSystemSignal]
            cases wholeMessage p with
            | none => exact hadopt
            | some m =>
                rw [Option.elim_some, Option.bind_some,
                  Vehicle.watchdog_applyMessage, hadopt]
                split <;> rfl
        | checkSysOnline => exact v.api.watchdog_CheckSysOnline now name
        | _ => exact absurd trivial hinternal
    | checkSubSystem checked =>
        simp only [happen, withApi, api, subSystemSignal,
          VehicleApi.watchdog_CheckSubSystem]
        split <;> rfl
    | _ => exact absurd trivial hinternal

/-! ## Whole histories -/

/-- The flag of the vehicle itself, or of a subsystem under its name. -/
inductive Flag
  | link
  | subSystem (name : String)

namespace Flag

def watchdog (api : VehicleApi) : Flag → Option Watchdog
  | .link => some api.link
  | .subSystem name => api.watchdog name

def signal : Flag → Time × VehicleEvent → Option (ℕ × Signal)
  | .link => linkSignal
  | .subSystem name => subSystemSignal name

/-- The flags that a vehicle has. -/
def Valid : Flag → Prop
  | .link => True
  | .subSystem name => name ∈ Vehicle.subSystemNames

theorem watchdog_happen (f : Flag) (v : InitVehicle)
    (event : Time × VehicleEvent) :
    f.watchdog (v.happen event).api =
      (f.signal event).elim (f.watchdog v.api) fun signal =>
        (f.watchdog v.api).map fun w => step patience w signal := by
  cases f with
  | link =>
      simp only [watchdog, signal, v.link_happen event]
      cases linkSignal event <;> rfl
  | subSystem name => exact v.watchdog_happen name event

/-- A new vehicle has a flag that is off for each of its subsystems. -/
theorem watchdog_new (writer : Encoder) (start : Time) (f : Flag) :
    (f.Valid → ∃ last, f.watchdog (InitVehicle.NewVehicle writer start).api =
        some ⟨false, last⟩) ∧
      (¬ f.Valid →
        f.watchdog (InitVehicle.NewVehicle writer start).api = none) := by
  cases f with
  | link => exact ⟨fun _ => ⟨0, rfl⟩, fun hnot => absurd trivial hnot⟩
  | subSystem name =>
      simp only [Valid, watchdog, VehicleApi.watchdog, InitVehicle.NewVehicle,
        InitVehicle.api, Vehicle.NewVehicle, Vehicle.NullLastSuccessfulCmd,
        Vehicle.subSystemNames, List.foldl_cons, List.foldl_nil,
        VehicleApi.AddSubSystem]
      constructor
      · intro hname
        simp only [List.mem_cons, List.not_mem_nil, or_false] at hname
        rcases hname with rfl | rfl | rfl | rfl | rfl | rfl | rfl | rfl
        all_goals exact ⟨start, by simp⟩
      · intro hname
        simp only [List.mem_cons, List.not_mem_nil, or_false, not_or] at hname
        simp [hname]

theorem foldl_map_step (w : Option Watchdog) (signals : List (ℕ × Signal)) :
    signals.foldl (fun w signal => w.map fun w => step patience w signal) w =
      w.map fun w => signals.foldl (step patience) w := by
  induction signals generalizing w with
  | nil => cases w <;> rfl
  | cons signal signals ih =>
      rw [List.foldl_cons, ih, Option.map_map]
      rfl

theorem watchdog_after (f : Flag) (writer : Encoder) (start : Time)
    (events : List (Time × VehicleEvent)) :
    f.watchdog (InitVehicle.after writer start events).api =
      (f.watchdog (InitVehicle.NewVehicle writer start).api).map fun w =>
        (events.filterMap f.signal).foldl (step patience) w := by
  rw [← foldl_map_step]
  exact view_of_signals (fun v : InitVehicle => f.watchdog v.api)
    f.watchdog_happen (InitVehicle.NewVehicle writer start) events

theorem online_after (f : Flag) (writer : Encoder) (start : Time)
    (events : List (Time × VehicleEvent)) {w : Watchdog}
    (hw : f.watchdog (InitVehicle.after writer start events).api = some w) :
    f.Valid ∧ (w.online ↔ Alive patience (events.filterMap f.signal)) := by
  rw [f.watchdog_after, Option.map_eq_some_iff] at hw
  obtain ⟨w₀, hnew, rfl⟩ := hw
  by_cases hvalid : f.Valid
  · obtain ⟨last, hoff⟩ := (f.watchdog_new writer start).1 hvalid
    rw [hoff] at hnew
    cases hnew
    exact ⟨hvalid, online_iff rfl _⟩
  · rw [(f.watchdog_new writer start).2 hvalid] at hnew
    cases hnew

/-- A signal has the time of its event. -/
theorem signal_time {f : Flag} {event : Time × VehicleEvent} {now : Time}
    {signal : Signal} (hsignal : f.signal event = some (now, signal)) :
    now = event.1 := by
  obtain ⟨time, event⟩ := event
  cases f with
  | link =>
      cases event with
      | init event =>
          cases event with
          | packet p =>
              simp only [Flag.signal, linkSignal, Option.map_eq_some_iff,
                Prod.mk.injEq] at hsignal
              obtain ⟨_, -, htime, -⟩ := hsignal
              exact htime.symm
          | checkSysOnline =>
              cases hsignal
              rfl
          | _ => cases hsignal
      | _ => cases hsignal
  | subSystem name =>
      cases event with
      | init event =>
          cases event with
          | packet p =>
              simp only [Flag.signal, subSystemSignal,
                Option.ite_none_right_eq_some, Option.some.injEq,
                Prod.mk.injEq] at hsignal
              exact hsignal.2.1.symm
          | _ => cases hsignal
      | checkSubSystem checked =>
          simp only [Flag.signal, subSystemSignal,
            Option.ite_none_right_eq_some, Option.some.injEq,
            Prod.mk.injEq] at hsignal
          exact hsignal.2.1.symm
      | _ => cases hsignal

end Flag

/-- After any history a vehicle has the nine flags it was made with, and each
is on exactly when some message set it and every check after that message was
in time. -/
theorem flags_after (writer : Encoder) (start : Time)
    (events : List (Time × VehicleEvent)) (f : Flag) :
    ((f.watchdog (InitVehicle.after writer start events).api).isSome ↔
        f.Valid) ∧
      ∀ w ∈ f.watchdog (InitVehicle.after writer start events).api,
        (w.online ↔ Alive patience (events.filterMap f.signal)) := by
  constructor
  · rw [f.watchdog_after, Option.isSome_map]
    by_cases hvalid : f.Valid
    · obtain ⟨last, hnew⟩ := (f.watchdog_new writer start).1 hvalid
      rw [hnew]
      exact iff_of_true rfl hvalid
    · rw [(f.watchdog_new writer start).2 hvalid]
      exact iff_of_false Bool.false_ne_true hvalid
  · intro w hw
    exact (f.online_after writer start events hw).2

/-- A heartbeat sets the flag of a vehicle. -/
theorem flags_after_heartbeat :
    (InitVehicle.after (NewEncoder none) 0
        [(1, .init (.packet heartbeatPacket))]).api.link.online ↔
      Alive patience
        (([(1, .init (.packet heartbeatPacket))] :
          List (Time × VehicleEvent)).filterMap linkSignal) :=
  (flags_after (NewEncoder none) 0 [(1, .init (.packet heartbeatPacket))]
    .link).2 _ rfl

/-- Where the checks are at most a period apart, a flag is off from five
seconds and a period after the last message that counted for it. -/
theorem silence_is_noticed (writer : Encoder) (start : Time)
    {events : List (Time × VehicleEvent)} (f : Flag) (last now period : Time)
    (hsorted : events.Pairwise fun e e' => e.1 ≤ e'.1)
    (hseen : ∀ event ∈ events, ∀ signal, f.signal event = some signal →
      signal.2 ≠ .check → event.1 ≤ last)
    (hchecks : ∀ t, last ≤ t → t + period ≤ now →
      ∃ event ∈ events, t < event.1 ∧ event.1 ≤ t + period ∧
        f.signal event = some (event.1, .check))
    (hnow : last + patience + period ≤ now) :
    ∀ w ∈ f.watchdog (InitVehicle.after writer start events).api,
      w.online = false := by
  intro w hw
  obtain ⟨event, hmem, hlate, -, hcheck⟩ :=
    hchecks (last + patience) (Nat.le_add_right _ _) hnow
  obtain ⟨before, after, rfl⟩ := List.append_of_mem hmem
  have hsignals : (before ++ event :: after).filterMap f.signal =
      before.filterMap f.signal ++
        (event.1, .check) :: after.filterMap f.signal := by
    rw [List.filterMap_append, List.filterMap_cons_some hcheck]
  have hbefore : lastSeen 0 (before.filterMap f.signal) ≤ last := by
    refine lastSeen_le (Nat.zero_le _) ?_
    rintro ⟨time, signal⟩ hsignal hcounts
    obtain ⟨e, he, heq⟩ := List.mem_filterMap.mp hsignal
    rw [Flag.signal_time heq]
    exact hseen e (List.mem_append_left _ he) (time, signal) heq hcounts
  have hafter : ∀ signal ∈ after.filterMap f.signal, signal.2 ≠ .feed := by
    intro signal hsignal hfeed
    obtain ⟨e, he, heq⟩ := List.mem_filterMap.mp hsignal
    have hcounts : signal.2 ≠ .check := by
      rw [hfeed]
      exact Signal.noConfusion
    have hearly := hseen e
      (List.mem_append_right _ (List.mem_cons_of_mem _ he)) signal heq hcounts
    have horder : event.1 ≤ e.1 :=
      (List.pairwise_cons.mp (List.pairwise_append.mp hsorted).2.1).1 e he
    have hpast : event.1 ≤ last := horder.trans hearly
    exact absurd hlate (not_lt.mpr (hpast.trans (Nat.le_add_right _ _)))
  have hdead : ¬ Alive patience
      ((before ++ event :: after).filterMap f.signal) := by
    rw [hsignals]
    refine not_alive_of_late 0 (Nat.lt_sub_of_add_lt ?_) hafter
    calc patience + lastSeen 0 (before.filterMap f.signal)
        ≤ patience + last := Nat.add_le_add_left hbefore _
      _ = last + patience := Nat.add_comm _ _
      _ < event.1 := hlate
  have honline := (f.online_after writer start _ hw).2
  exact Bool.eq_false_iff.mpr fun h => hdead (honline.mp h)

/-- A heartbeat, and a check more than five seconds after it. -/
theorem silence_is_noticed_once :
    (InitVehicle.after (NewEncoder none) 0
      [(1, .init (.packet heartbeatPacket)),
        (5 * second + 2, .init .checkSysOnline)]).api.link.online = false := by
  refine silence_is_noticed (NewEncoder none) 0
    .link 1 (11 * second + 1) (6 * second) ?_ ?_ ?_ (by decide) _ rfl
  · simp [second]
  · intro event hmem signal hsignal hcounts
    simp only [List.mem_cons, List.not_mem_nil, or_false] at hmem
    rcases hmem with rfl | rfl
    · exact le_refl 1
    · cases hsignal
      exact absurd rfl hcounts
  · intro t hlast hnow
    refine ⟨(5 * second + 2, .init .checkSysOnline), by simp, ?_, ?_, rfl⟩
    · exact Nat.lt_of_add_lt_add_right (hnow.trans_lt (by decide))
    · exact (show 5 * second + 2 ≤ 1 + 6 * second by decide).trans
        (Nat.add_le_add_right hlast _)

end DronesmithEngine
