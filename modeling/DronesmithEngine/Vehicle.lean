import DronesmithEngine.CommandQueue
import DronesmithEngine.Dequeue
import DronesmithEngine.GoEffects
import DronesmithEngine.VehicleApi
import Mathlib.Tactic

/-!
# The vehicle

`vehicle/vehicle.go`.  Commands are mutable records behind the pointers that
the queue holds, so the state has a memory of commands next to the queue, and
a command keeps its place in it when it leaves the queue.
-/

namespace DronesmithEngine

open Go Mavlink Utils Api

structure RCInput where
  Enabled : Bool
  Timeout : UInt64
  Channels : Vector UInt16 8

@[ext] structure Vehicle where
  api : VehicleApi
  knownMsgs : GoMap String Message
  unknownMsgs : GoMap UInt8 Packet
  commandQueue : CommandQueue
  /-- The command behind each pointer; pointers from `nextCommand` on are not
  in use yet. -/
  commands : CmdRef → VehicleCommand
  nextCommand : CmdRef
  syslogQueue : Deque VehicleLog
  commandLast : ℤ
  commandLastInfo : ℤ
  /-- What the listener has received over the channel `rcInput`. -/
  rcInput : List RCInput
  mavlinkWriter : Encoder

namespace Vehicle

def subSystemNames : List String :=
  ["GPS", "Estimator", "Controller", "RadioControl", "Motors", "OpticalFlow",
    "RangeFinder", "IMU"]

def NullLastSuccessfulCmd (v : Vehicle) : Vehicle :=
  { v with commandLast := 10, commandLastInfo := -1 }

def NewVehicle (writer : Encoder) (now : Time) : Vehicle :=
  NullLastSuccessfulCmd
    { api :=
        subSystemNames.foldl (fun api name => api.AddSubSystem name now) {}
      knownMsgs := ∅
      unknownMsgs := ∅
      commandQueue := .new
      commands := fun _ => ⟨0, 0, {}⟩
      nextCommand := 0
      syslogQueue := .NewCappedDeque 200
      commandLast := 0
      commandLastInfo := 0
      rcInput := []
      mavlinkWriter := writer }

/-- Sending a message, given its `Pack`; an error is only logged. -/
def sendMAVLink (v : Vehicle) (Pack : Packet → Packet) : Vehicle :=
  { v with mavlinkWriter := (v.mavlinkWriter.Encode 0 0 Pack).2 }

/-! ## Queueing commands -/

/-- A fresh command under an op number.  Its status is none of the results a
vehicle answers with. -/
def pushCommand (v : Vehicle) (Command : CommandLong) (op : ℤ) : Vehicle :=
  { v with
    commands := Function.update v.commands v.nextCommand ⟨10, 0, Command⟩
    nextCommand := v.nextCommand + 1
    commandQueue := v.commandQueue.Push v.nextCommand op }

/-- The flags, main mode and sub mode of a flight mode. -/
def modeParams (mode : String) : ℕ × ℕ × ℕ :=
  let manual := MAV_MODE_FLAG_MANUAL_INPUT_ENABLED
  let stabilize := MAV_MODE_FLAG_STABILIZE_ENABLED
  let guided := MAV_MODE_FLAG_GUIDED_ENABLED
  let auto := MAV_MODE_FLAG_AUTO_ENABLED
  match mode with
  | "Manual" => (manual ||| stabilize, 1, 0)
  | "Stabilized" => (manual ||| stabilize, 7, 0)
  | "Acro" => (manual, 5, 0)
  | "RAttitude" => (manual ||| stabilize, 8, 0)
  | "Altitude" => (manual ||| stabilize ||| guided, 2, 0)
  | "Position" => (manual ||| stabilize ||| guided, 3, 0)
  | "Hold" => (auto ||| guided ||| stabilize, 4, 3)
  | "Follow" => (auto ||| guided ||| stabilize, 4, 8)
  | "RTL" => (auto ||| guided ||| stabilize, 4, 5)
  | "Auto" => (auto ||| guided ||| stabilize, 4, 1)
  | "Takeoff" => (auto ||| guided ||| stabilize, 4, 2)
  | "Land" => (auto ||| guided ||| stabilize, 4, 6)
  | "Mission" => (auto ||| guided ||| stabilize, 4, 4)
  | _ => (0, 0, 0)

def SetModeAndArm (v : Vehicle) (updateMode updateArm : Bool)
    (mode : String) (armed : Bool) : Vehicle :=
  let mainMode :=
    if v.api.IsArmed then
      MAV_MODE_FLAG_CUSTOM_MODE_ENABLED ||| MAV_MODE_FLAG_SAFETY_ARMED
    else MAV_MODE_FLAG_CUSTOM_MODE_ENABLED
  let mainMode :=
    if updateArm then
      if armed then mainMode ||| MAV_MODE_FLAG_SAFETY_ARMED
      else MAV_MODE_FLAG_CUSTOM_MODE_ENABLED
    else mainMode
  let tempMode := if updateMode then mode else v.api.Mode
  let (flags, manualMode, autoMode) := modeParams tempMode
  v.pushCommand
    (v.api.PackComandLong MAV_CMD_DO_SET_MODE
      #v[Float32.ofNat (mainMode ||| flags), Float32.ofNat manualMode,
        Float32.ofNat autoMode, 0, 0, 0, 0])
    MAV_CMD_DO_SET_MODE.toNat

def SetHome (v : Vehicle) (lat lon alt : Float32) (relative : Bool) :
    Vehicle :=
  let relParam : Float32 := if relative then 1 else 0
  v.pushCommand
    (v.api.PackComandLong MAV_CMD_DO_SET_HOME
      #v[relParam, 0, 0, 0, lat, lon, alt])
    MAV_CMD_DO_SET_HOME.toNat

def DoGenericCommand (v : Vehicle) (op : ℤ) (params : Vector Float32 7) :
    Vehicle :=
  v.pushCommand (v.api.PackComandLong (UInt16.ofInt op) params) op

/-! ## Handling the queue -/

/-- The command is up for removal: answered for good, or sent six times. -/
def finished (cmd : VehicleCommand) : Prop :=
  cmd.Status = MAV_RESULT_ACCEPTED ∨
    (cmd.Status = MAV_RESULT_DENIED ∨
      cmd.Status = MAV_RESULT_UNSUPPORTED ∨
      cmd.Status = MAV_RESULT_FAILED) ∨
    5 < cmd.TimesSent

instance (cmd : VehicleCommand) : Decidable (finished cmd) :=
  inferInstanceAs (Decidable (_ ∨ _))

def recordLast (v : Vehicle) (cmd : VehicleCommand) : Vehicle :=
  { v with
    commandLast := cmd.Command.Command.toNat
    commandLastInfo := cmd.Status }

/-- Transmitting a command counts as sending it, whether or not the
connection took it. -/
def sendCommand (v : Vehicle) (ref : CmdRef) : Vehicle :=
  let cmd := v.commands ref
  let v := v.sendMAVLink cmd.Command.Pack
  { v with
    commands := Function.update v.commands ref
      { cmd with TimesSent := cmd.TimesSent + 1 } }

inductive HandlerAction
  | idle
  | removed (ref : CmdRef)
  | sent (ref : CmdRef)
  deriving DecidableEq

def sysOnlineHandler (v : Vehicle) : HandlerAction × Vehicle :=
  match v.commandQueue.Head with
  | none => (.idle, v)
  | some x =>
      let cmd := v.commands x.value
      let v := v.recordLast cmd
      if finished cmd then
        (.removed x.value, { v with commandQueue := v.commandQueue.Pop.2 })
      else
        (.sent x.value, v.sendCommand x.value)

def setStatus (v : Vehicle) (ref : CmdRef) (status : ℕ) : Vehicle :=
  { v with
    commands := Function.update v.commands ref
      { v.commands ref with Status := status } }

/-- `UpdateFromAck`, on the commands behind the queue it is given. -/
def UpdateFromAck (v : Vehicle) (m : CommandAck) : Vehicle :=
  match v.commandQueue.Head with
  | none => v
  | some x =>
      if x.priority = m.Command.toNat then
        v.setStatus x.value m.Result.toNat
      else v

/-! ## Calls of the API -/

def GetLastSuccessfulCmd (v : Vehicle) : ℤ × String × ℤ :=
  let str :=
    match v.commandLastInfo with
    | 0 => "Command accepted."
    | 4 => "Command was received, but failed."
    | 3 => "Command is not supported."
    | 2 => "Command was rejected by the vehicle."
    | 1 => "Command was rejected by the vehicle, but is supported."
    | 10 => "Command timed out."
    | _ => "Command failed to be received."
  (v.commandLast, str, v.commandLastInfo)

/-- `params` are the parameters received by the time the call has slept. -/
def SetParam (name : List UInt8) (value : Float32)
    (params : GoMap (List UInt8) Param) : Effect Vehicle (Option String) := do
  let api ← Effect.read Vehicle.api
  let m ← Effect.lift (api.SetParam name value)
  Effect.modify (fun v => v.sendMAVLink m.Pack)
  Effect.modify (fun v => { v with api := { v.api with params := params } })
  match ← Effect.read (fun v => v.api.GetParam name) with
  | none => pure (some "Param not found.")
  | some val =>
      if val != value then
        pure (some "Param found, but failed to update")
      else pure none

def SendRCOverride (v : Vehicle) (vals : Vector UInt16 8) (enabled : Bool)
    (timestamp : UInt64) : Vehicle :=
  let v := { v with rcInput := v.rcInput ++ [⟨enabled, timestamp, vals⟩] }
  if enabled then
    v.sendMAVLink
      (RcChannelsOverride.Pack
        { Chan1Raw := vals[0]
          Chan2Raw := vals[1]
          Chan3Raw := vals[2]
          Chan4Raw := vals[3]
          Chan5Raw := vals[4]
          Chan6Raw := vals[5]
          Chan7Raw := vals[6]
          Chan8Raw := vals[7]
          TargetSystem := 0
          TargetComponent := 0 })
  else v

/-! ## Packets -/

def adoptSystem (v : Vehicle) (p : Packet) : Vehicle :=
  if v.api.GetSystemId = 0 then
    { v with api := v.api.SetSystemId p.SysID }
  else v

def know (v : Vehicle) (api : VehicleApi) (m : Message) : Vehicle :=
  { v with api := api, knownMsgs := v.knownMsgs.insert m.MsgName m }

def UpdateSubSystem (v : Vehicle) (name : String) (now : Time) : Vehicle :=
  { v with api := v.api.UpdateSubSystem name now }

/-- The error of `Unpack` is only logged, so every case goes on with whatever
message it left. -/
def processPacket (v : Vehicle) (p : Packet) (now : Time) : Vehicle :=
  let v := v.adoptSystem p
  match p.MsgID with
  | MSG_ID_HEARTBEAT =>
      let (_, m) := Heartbeat.Unpack {} p
      v.know (v.api.UpdateFromHeartbeat m now) (.heartbeat m)
  | MSG_ID_SYS_STATUS =>
      let (_, m) := SysStatus.Unpack {} p
      v.know (v.api.UpdateFromStatus m now) (.sysStatus m)
  | MSG_ID_GPS_RAW_INT =>
      let (_, m) := GpsRawInt.Unpack {} p
      (v.know (v.api.UpdateFromGps m now) (.gpsRawInt m)).UpdateSubSystem
        "GPS" now
  | MSG_ID_ATTITUDE =>
      let (_, m) := Attitude.Unpack {} p
      (v.know (v.api.UpdateFromAttitude m now) (.attitude m)).UpdateSubSystem
        "Estimator" now
  | MSG_ID_LOCAL_POSITION_NED =>
      let (_, m) := LocalPositionNed.Unpack {} p
      (v.know (v.api.UpdateFromLocalPos m now)
        (.localPositionNed m)).UpdateSubSystem "Estimator" now
  | MSG_ID_GLOBAL_POSITION_INT =>
      let (_, m) := GlobalPositionInt.Unpack {} p
      (v.know (v.api.UpdateFromGlobalPos m now)
        (.globalPositionInt m)).UpdateSubSystem "Estimator" now
  | MSG_ID_SERVO_OUTPUT_RAW =>
      let (_, m) := ServoOutputRaw.Unpack {} p
      (v.know (v.api.UpdateFromMotors m now)
        (.servoOutputRaw m)).UpdateSubSystem "Motors" now
  | MSG_ID_RC_CHANNELS =>
      let (_, m) := RcChannels.Unpack {} p
      (v.know (v.api.UpdateFromInput m now) (.rcChannels m)).UpdateSubSystem
        "RadioControl" now
  | MSG_ID_VFR_HUD =>
      let (_, m) := VfrHud.Unpack {} p
      v.know (v.api.UpdateFromVfr m now) (.vfrHud m)
  | MSG_ID_HIGHRES_IMU =>
      let (_, m) := HighresImu.Unpack {} p
      (v.know (v.api.UpdateFromSensors m now) (.highresImu m)).UpdateSubSystem
        "IMU" now
  | MSG_ID_ATTITUDE_TARGET =>
      let (_, m) := AttitudeTarget.Unpack {} p
      (v.know (v.api.UpdateFromAttitudeTarget m now)
        (.attitudeTarget m)).UpdateSubSystem "Controller" now
  | MSG_ID_POSITION_TARGET_LOCAL_NED =>
      let (_, m) := PositionTargetLocalNed.Unpack {} p
      (v.know (v.api.UpdateFromLocalTarget m now)
        (.positionTargetLocalNed m)).UpdateSubSystem "Controller" now
  | MSG_ID_POSITION_TARGET_GLOBAL_INT =>
      let (_, m) := PositionTargetGlobalInt.Unpack {} p
      (v.know (v.api.UpdateFromGlobalTarget m now)
        (.positionTargetGlobalInt m)).UpdateSubSystem "Controller" now
  | MSG_ID_HOME_POSITION =>
      let (_, m) := HomePosition.Unpack {} p
      v.know (v.api.UpdateFromHome m now) (.homePosition m)
  | MSG_ID_EXTENDED_SYS_STATE =>
      let (_, m) := ExtendedSysState.Unpack {} p
      v.know (v.api.UpdateFromExtSys m now) (.extendedSysState m)
  | MSG_ID_DISTANCE_SENSOR =>
      let (_, m) := DistanceSensor.Unpack {} p
      (v.know v.api (.distanceSensor m)).UpdateSubSystem "RangeFinder" now
  | MSG_ID_OPTICAL_FLOW_RAD =>
      let (_, m) := OpticalFlowRad.Unpack {} p
      (v.know v.api (.opticalFlowRad m)).UpdateSubSystem "OpticalFlow" now
  | MSG_ID_COMMAND_ACK =>
      let (_, m) := CommandAck.Unpack {} p
      let v := v.UpdateFromAck m
      v.know v.api (.commandAck m)
  | MSG_ID_AUTOPILOT_VERSION =>
      let (_, m) := AutopilotVersion.Unpack {} p
      v.know (v.api.UpdateFromAutopilotVersion m now) (.autopilotVersion m)
  | MSG_ID_PARAM_VALUE =>
      let (_, m) := ParamValue.Unpack {} p
      v.know (v.api.UpdateFromParam m now) (.paramValue m)
  | MSG_ID_STATUSTEXT =>
      let (_, m) := Statustext.Unpack {} p
      let v := v.know v.api (.statustext m)
      let log : VehicleLog :=
        { Msg := m.Text.toList, Time := now, Level := m.Severity.toUInt64 }
      { v with syslogQueue := (v.syslogQueue.Prepend log).2 }
  | _ => { v with unknownMsgs := v.unknownMsgs.insert p.MsgID p }

end Vehicle

end DronesmithEngine
