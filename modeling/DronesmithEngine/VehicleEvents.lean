import DronesmithEngine.EventHistories
import DronesmithEngine.VehicleInit
import Mathlib.Tactic

/-!
# Everything that happens to a vehicle

A vehicle is driven by the packets it is given, by its own goroutines and by
the calls of its users.  Every event comes with the time at which the code
reads its clock; an iteration of the loop over the subsystems is an event of
its own, as each reads the clock again.
-/

namespace DronesmithEngine

open Go Mavlink Utils Api EventHistories

namespace Api.VehicleApi

/-- An iteration of the loop of `CheckSubSystems`. -/
def CheckSubSystem (v : VehicleApi) (name : String) (now : Time) :
    VehicleApi :=
  match v.subSystems.lookup name with
  | none => v
  | some subsystem =>
      if subsystem.Online ∧ 5 * second < now - subsystem.Updated then
        { v with
          subSystems :=
            v.subSystems.insert name { subsystem with Online := false } }
      else v

inductive TelemValue
  | Info (val : Api.Info)
  | Status (val : Api.Status)
  | Mode (val : String)
  | Gps (val : Api.Gps)
  | Attitude (val : Api.Attitude)
  | Position (val : Api.Position)
  | Motors (val : Vector UInt16 8)
  | Input (val : Api.Input)
  | Rates (val : Api.Rate)
  | Target (val : Api.Target)
  | Sensors (val : Api.Sensors)
  | Home (val : Api.Home)

def GetVehicleTelem (v : VehicleApi) : GoMap String TelemValue :=
  let telem : GoMap String TelemValue := ∅
  let telem := telem.insert "Info" (.Info v.info)
  let telem := telem.insert "Status" (.Status v.status)
  let telem := telem.insert "Mode" (.Mode v.mode)
  let telem := telem.insert "Gps" (.Gps v.gps)
  let telem := telem.insert "Attitude" (.Attitude v.attitude)
  let telem := telem.insert "Position" (.Position v.position)
  let telem := telem.insert "Motors" (.Motors v.motors)
  let telem := telem.insert "Input" (.Input v.input)
  let telem := telem.insert "Rates" (.Rates v.rates)
  let telem := telem.insert "Target" (.Target v.target)
  let telem := telem.insert "Sensors" (.Sensors v.sensors)
  telem.insert "Home" (.Home v.home)

end Api.VehicleApi

inductive VehicleEvent
  | init (event : InitEvent)
  | checkSubSystem (name : String)
  | sendMAVLink (Pack : Packet → Packet)
  | SendRCOverride (vals : Vector UInt16 8) (enabled : Bool)
      (timestamp : UInt64)
  | popSysLog
  | NullLastSuccessfulCmd

namespace InitVehicle

def happen (v : InitVehicle) : Time × VehicleEvent → InitVehicle
  | (now, .init event) => v.apply now event
  | (now, .checkSubSystem name) => v.withApi (v.api.CheckSubSystem name now)
  | (_, .sendMAVLink Pack) => v.sendMAVLink Pack
  | (_, .SendRCOverride vals enabled timestamp) =>
      { v with vehicle := v.vehicle.SendRCOverride vals enabled timestamp }
  | (_, .popSysLog) =>
      { v with
        vehicle :=
          { v.vehicle with syslogQueue := v.vehicle.syslogQueue.Pop.2 } }
  | (_, .NullLastSuccessfulCmd) =>
      { v with vehicle := v.vehicle.NullLastSuccessfulCmd }

/-- A vehicle made at a time, after a history of events. -/
def after (writer : Encoder) (start : Time)
    (events : List (Time × VehicleEvent)) : InitVehicle :=
  events.foldl happen (NewVehicle writer start)

end InitVehicle

/-! ## What an event can change -/

/-- What packets and checks are the only events to change: the messages that
were received, and the api without its flags and parameters. -/
@[ext] structure Observed where
  knownMsgs : GoMap String Message
  unknownMsgs : GoMap UInt8 Packet
  subSystems : GoMap String SubSystem
  info : Info
  status : Status
  mode : String
  gps : Gps
  attitude : Api.Attitude
  position : Position
  motors : Vector UInt16 8
  input : Input
  rates : Rate
  target : Target
  sensors : Sensors
  home : Home

namespace Vehicle

def observed (v : Vehicle) : Observed where
  knownMsgs := v.knownMsgs
  unknownMsgs := v.unknownMsgs
  subSystems := v.api.subSystems
  info := v.api.info
  status := v.api.status
  mode := v.api.mode
  gps := v.api.gps
  attitude := v.api.attitude
  position := v.api.position
  motors := v.api.motors
  input := v.api.input
  rates := v.api.rates
  target := v.api.target
  sensors := v.api.sensors
  home := v.api.home

@[simp] theorem observed_adoptSystem (v : Vehicle) (p : Packet) :
    (v.adoptSystem p).observed = v.observed := by
  unfold adoptSystem
  split <;> rfl

@[simp] theorem observed_UpdateFromAck (v : Vehicle) (m : CommandAck) :
    (v.UpdateFromAck m).observed = v.observed := by
  unfold UpdateFromAck
  split
  · rfl
  · split <;> rfl

@[simp] theorem observed_sysOnlineHandler (v : Vehicle) :
    v.sysOnlineHandler.2.observed = v.observed := by
  unfold sysOnlineHandler
  split
  · rfl
  · simp only
    split <;> rfl

@[simp] theorem observed_SendRCOverride (v : Vehicle)
    (vals : Vector UInt16 8) (enabled : Bool) (timestamp : UInt64) :
    (v.SendRCOverride vals enabled timestamp).observed = v.observed := by
  unfold SendRCOverride
  simp only
  split <;> rfl

end Vehicle

namespace InitVehicle

@[simp] theorem observed_requestEach (v : InitVehicle) (missing : List ℕ) :
    (v.requestEach missing).vehicle.observed = v.vehicle.observed := by
  induction missing generalizing v with
  | nil => rfl
  | cons i missing ih =>
      exact ih (v.sendMAVLink (v.api.RequestParam (UInt64.ofNat i)).Pack)

theorem observed_stateHandler (v : InitVehicle) (now : Time) :
    (v.stateHandler now).2.vehicle.observed = v.vehicle.observed := by
  unfold stateHandler
  split
  · split
    · rfl
    · split
      · rfl
      · simp only
        split
        · exact v.vehicle.observed_sysOnlineHandler
        · split
          · exact observed_requestEach _ _
          · exact observed_requestEach _ _
  · rfl

end InitVehicle

/-- A packet does what its message does, if it has one. -/
theorem InitVehicle.happen_packet (v : InitVehicle) (now : Time)
    (p : Packet) :
    (v.happen (now, .init (.packet p))).api =
        (wholeMessage p).elim (v.vehicle.adoptSystem p).api
          (fun m => ((v.vehicle.adoptSystem p).applyMessage now m).api) ∧
      (v.happen (now, .init (.packet p))).vehicle.knownMsgs =
        (wholeMessage p).elim (v.vehicle.adoptSystem p).knownMsgs
          (fun m =>
            ((v.vehicle.adoptSystem p).applyMessage now m).knownMsgs) := by
  simp only [happen, apply, api, wholeMessage, Vehicle.processPacket_eq]
  cases readMessage p with
  | none => exact ⟨rfl, rfl⟩
  | some read => exact ⟨rfl, rfl⟩

/-- The events that packets and checks are not. -/
def VehicleEvent.Internal : VehicleEvent → Prop
  | .init (.packet _) => False
  | .init .checkSysOnline => False
  | .checkSubSystem _ => False
  | _ => True

theorem InitVehicle.observed_happen_of_internal (v : InitVehicle)
    (now : Time) {event : VehicleEvent} (hinternal : event.Internal) :
    (v.happen (now, event)).vehicle.observed = v.vehicle.observed := by
  cases event with
  | init event =>
      cases event with
      | stateHandler => exact v.observed_stateHandler now
      | packet p => exact hinternal.elim
      | checkSysOnline => exact hinternal.elim
      | _ => rfl
  | checkSubSystem name => exact hinternal.elim
  | SendRCOverride vals enabled timestamp =>
      exact v.vehicle.observed_SendRCOverride vals enabled timestamp
  | _ => rfl

end DronesmithEngine
