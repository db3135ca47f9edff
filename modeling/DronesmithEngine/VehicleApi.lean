import DronesmithEngine.GoRuntime
import DronesmithEngine.MavlinkEnums
import DronesmithEngine.MavlinkMessages
import Mathlib.Tactic

/-!
# The telemetry and parameters of a vehicle

`vehicle/api/api.go`.  Each `UpdateFrom` method copies one message into the
part of the state it is about; `now` is the clock it reads.  Strings that
can hold any bytes, such as parameter names, are lists of bytes.
-/

namespace DronesmithEngine.Api

open Go Mavlink

/-- Nanoseconds from the zero time on. -/
abbrev Time := ℕ

def second : Time := 1000000000

@[ext] structure Info where
  Type_ : String := ""
  Firmware : String := ""
  Protocol : String := ""
  LastUpdate : Time := 0
  LastOnline : Time := 0

@[ext] structure Status where
  Online : Bool := false
  Armed : Bool := false
  State : String := ""
  VTOLMode : String := ""
  InAir : Bool := false
  Power : UInt64 := 0

@[ext] structure Gps where
  Satellites : UInt64 := 0
  Latitude : Float32 := 0
  Longitude : Float32 := 0
  Altitude : Float32 := 0

@[ext] structure Attitude where
  Roll : Float32 := 0
  Pitch : Float32 := 0
  Yaw : Float32 := 0

@[ext] structure Position where
  X : Float32 := 0
  Y : Float32 := 0
  Z : Float32 := 0
  Latitude : Float32 := 0
  Longitude : Float32 := 0
  Altitude : Float32 := 0
  Heading : Float32 := 0

@[ext] structure Input where
  Channels : Vector UInt16 18 := Vector.replicate 18 0
  Signal : UInt64 := 0
  Type_ : String := ""

@[ext] structure Rate where
  Airspeed : Float32 := 0
  Groundspeed : Float32 := 0
  Throttle : UInt64 := 0
  Climb : Float32 := 0

@[ext] structure Target where
  Attitude : Vector Float32 4 := Vector.replicate 4 0
  Thrust : Float32 := 0
  X : Float32 := 0
  Y : Float32 := 0
  Z : Float32 := 0
  Latitude : Float32 := 0
  Longitude : Float32 := 0
  Altitude : Float32 := 0

@[ext] structure Sensors where
  AccX : Float32 := 0
  AccY : Float32 := 0
  AccZ : Float32 := 0
  GyroX : Float32 := 0
  GyroY : Float32 := 0
  GyroZ : Float32 := 0
  MagX : Float32 := 0
  MagY : Float32 := 0
  MagZ : Float32 := 0
  Baro : Float32 := 0
  Temp : Float32 := 0

@[ext] structure Home where
  X : Float32 := 0
  Y : Float32 := 0
  Z : Float32 := 0
  Latitude : Float32 := 0
  Longitude : Float32 := 0
  Altitude : Float32 := 0

@[ext] structure SubSystem where
  Updated : Time
  Online : Bool

@[ext] structure Param where
  Index : UInt64
  Value : Float32
  Encode : UInt8

@[ext] structure VehicleCommand where
  Status : ℕ
  TimesSent : ℕ
  Command : CommandLong

structure VehicleLog where
  Msg : List UInt8
  Time : Api.Time
  Level : UInt64

/-- The three entries of the maps that `GetGlobal` and `GetHome` return. -/
structure Coordinates where
  Altitude : Float32
  Longitude : Float32
  Latitude : Float32

@[ext] structure VehicleApi where
  subSystems : GoMap String SubSystem := ∅
  info : Info := {}
  status : Status := {}
  mode : String := ""
  gps : Gps := {}
  attitude : Attitude := {}
  position : Position := {}
  motors : Vector UInt16 8 := Vector.replicate 8 0
  input : Input := {}
  rates : Rate := {}
  target : Target := {}
  sensors : Sensors := {}
  home : Home := {}
  sysId : UInt8 := 0
  fmuId : UInt64 := 0
  caps : UInt64 := 0
  fmuGit : String := ""
  gotCaps : Bool := false
  params : GoMap (List UInt8) Param := ∅
  totalParams : UInt64 := 0
  paramsRequested : Bool := false

namespace VehicleApi

def GetGlobal (v : VehicleApi) : Coordinates where
  Altitude := v.position.Altitude
  Longitude := v.position.Longitude
  Latitude := v.position.Latitude

def GetHome (v : VehicleApi) : Coordinates where
  Altitude := v.home.Altitude
  Longitude := v.home.Longitude
  Latitude := v.home.Latitude

def GetMASLAlt (v : VehicleApi) : Float32 := v.gps.Altitude

def IsArmed (v : VehicleApi) : Bool := v.status.Armed

def Mode (v : VehicleApi) : String := v.mode

/-! ## Subsystems -/

def AddSubSystem (v : VehicleApi) (name : String) (now : Time) : VehicleApi :=
  { v with subSystems := v.subSystems.insert name ⟨now, false⟩ }

def UpdateSubSystem (v : VehicleApi) (name : String) (now : Time) :
    VehicleApi :=
  match v.subSystems.lookup name with
  | none => v
  | some _ => { v with subSystems := v.subSystems.insert name ⟨now, true⟩ }

/-! ## Coming online and going offline -/

def SysOnline (v : VehicleApi) : Bool := v.status.Online

def SysGotCaps (v : VehicleApi) : Bool := v.gotCaps

def Scrub (v : VehicleApi) : VehicleApi :=
  { v with
    sysId := 0
    fmuId := 0
    caps := 0
    fmuGit := ""
    gotCaps := false
    params := ∅
    totalParams := 0
    paramsRequested := false }

def CheckSysOnline (v : VehicleApi) (now : Time) : VehicleApi :=
  if v.status.Online ∧ 5 * second < now - v.info.LastUpdate then
    { v with status := { v.status with Online := false } }
  else v

/-! ## Telemetry messages -/

def heartbeatType : UInt8 → String
  | MAV_TYPE_GENERIC => "Generic Vehicle"
  | MAV_TYPE_FIXED_WING => "Fixed Wing"
  | MAV_TYPE_QUADROTOR => "Quadrotor"
  | MAV_TYPE_HEXAROTOR => "Hexarotor"
  | MAV_TYPE_OCTOROTOR => "Octorotor"
  | MAV_TYPE_VTOL_DUOROTOR => "VTOL Tailsitter"
  | MAV_TYPE_VTOL_QUADROTOR => "VTOL Tailsitter"
  | MAV_TYPE_VTOL_TILTROTOR => "VTOL Tiltrotor"
  -- The default case falls through to the case that follows it.
  | _ => "Generic Vehicle"

def heartbeatFirmware : UInt8 → String
  | MAV_AUTOPILOT_GENERIC => "Generic Autopilot"
  | MAV_AUTOPILOT_SLUGS => "SLUGS"
  | MAV_AUTOPILOT_ARDUPILOTMEGA => "APM"
  | MAV_AUTOPILOT_OPENPILOT => "OpenPilot"
  | MAV_AUTOPILOT_PPZ => "Paparazzi UAV"
  | MAV_AUTOPILOT_FP => "FlexiPilot"
  | MAV_AUTOPILOT_PX4 => "PX4"
  | MAV_AUTOPILOT_SMACCMPILOT => "SMACCMPilot"
  | MAV_AUTOPILOT_AUTOQUAD => "AutoQuad"
  | MAV_AUTOPILOT_ARMAZILA => "Armazila"
  | MAV_AUTOPILOT_AEROB => "Aerob"
  | MAV_AUTOPILOT_ASLUAV => "ASLUAV"
  | _ => "Generic Autopilot"

def heartbeatState : UInt8 → String
  | MAV_STATE_UNINIT => "Unknown"
  | MAV_STATE_BOOT => "Initializing"
  | MAV_STATE_CALIBRATING => "Calibrating"
  | MAV_STATE_STANDBY => "Standby"
  | MAV_STATE_ACTIVE => "Active"
  | MAV_STATE_CRITICAL => "Failsafe"
  | MAV_STATE_EMERGENCY => "Mayday"
  | MAV_STATE_POWEROFF => "Powering Down"
  | _ => "Unknown"

def heartbeatMode (CustomMode : UInt32) : String :=
  if CustomMode &&& 0x00FF0000 = 0x010000 then "Manual"
  else if CustomMode &&& 0x00FF0000 = 0x020000 then "Altitude"
  else if CustomMode &&& 0x00FF0000 = 0x030000 then "Position"
  else if CustomMode &&& 0x00FF0000 = 0x050000 then "Acro"
  else if CustomMode &&& 0x00FF0000 = 0x060000 then "Offboard"
  else if CustomMode &&& 0x00FF0000 = 0x070000 then "Stabilized"
  else if CustomMode &&& 0x00FF0000 = 0x080000 then "RAttitude"
  else if CustomMode &&& 0x00FF0000 = 0x000100 then "Auto"
  else if CustomMode &&& 0xFF000000 = 0x02000000 then "Takeoff"
  else if CustomMode &&& 0xFF000000 = 0x03000000 then "Hold"
  else if CustomMode &&& 0xFF000000 = 0x04000000 then "Mission"
  else if CustomMode &&& 0xFF000000 = 0x05000000 then "RTL"
  else if CustomMode &&& 0xFF000000 = 0x06000000 then "Land"
  else if CustomMode &&& 0xFF000000 = 0x07000000 then "RTGS"
  else if CustomMode &&& 0xFF000000 = 0x08000000 then "Follow"
  else "Unknown Flight Mode"

def UpdateFromHeartbeat (v : VehicleApi) (m : Heartbeat) (now : Time) :
    VehicleApi :=
  { v with
    info :=
      { Type_ := heartbeatType m.Type_
        Firmware := heartbeatFirmware m.Autopilot
        Protocol := "MAVLink v" ++ toString m.MavlinkVersion.toNat
        LastUpdate := now
        LastOnline := if v.status.Online then v.info.LastOnline else now }
    status :=
      { v.status with
        Online := true
        State := heartbeatState m.SystemStatus
        Armed := heartbeatState m.SystemStatus == "Active" }
    mode := heartbeatMode m.CustomMode }

/-- The time of the last update, which all messages but a heartbeat set in
the same way. -/
def updated (v : VehicleApi) (now : Time) : VehicleApi :=
  { v with info := { v.info with LastUpdate := now } }

def UpdateFromStatus (v : VehicleApi) (m : SysStatus) (now : Time) :
    VehicleApi :=
  { v.updated now with
    status :=
      { v.status with Power := m.BatteryRemaining.toInt64.toUInt64 } }

def UpdateFromGps (v : VehicleApi) (m : GpsRawInt) (now : Time) :
    VehicleApi :=
  { v.updated now with
    gps :=
      { Satellites := m.SatellitesVisible.toUInt64
        Altitude := Float32.ofInt m.Alt.toInt / 1000
        Latitude := Float32.ofInt m.Lat.toInt / 1e7
        Longitude := Float32.ofInt m.Lon.toInt / 1e7 } }

/-- `180 / π`, rounded to a `float32`. -/
def degreesPerRadian : Float32 := Float32.ofBits 0x42652EE1

def UpdateFromAttitude (v : VehicleApi) (m : Mavlink.Attitude)
    (now : Time) : VehicleApi :=
  { v.updated now with
    attitude :=
      { Roll := m.Roll * degreesPerRadian
        Pitch := m.Pitch * degreesPerRadian
        Yaw := m.Yaw * degreesPerRadian } }

def UpdateFromLocalPos (v : VehicleApi) (m : LocalPositionNed)
    (now : Time) : VehicleApi :=
  { v.updated now with
    position := { v.position with X := m.X, Y := m.Y, Z := m.Z } }

def UpdateFromGlobalPos (v : VehicleApi) (m : GlobalPositionInt)
    (now : Time) : VehicleApi :=
  { v.updated now with
    position :=
      { v.position with
        Latitude := Float32.ofInt m.Lat.toInt / 1e7
        Longitude := Float32.ofInt m.Lon.toInt / 1e7
        Altitude := Float32.ofInt m.RelativeAlt.toInt / 1000
        Heading := Float32.ofInt m.Hdg.toNat / 100 } }

def UpdateFromMotors (v : VehicleApi) (m : ServoOutputRaw) (now : Time) :
    VehicleApi :=
  { v.updated now with
    motors :=
      #v[m.Servo1Raw, m.Servo2Raw, m.Servo3Raw, m.Servo4Raw, m.Servo5Raw,
        m.Servo6Raw, m.Servo7Raw, m.Servo8Raw] }

def UpdateFromInput (v : VehicleApi) (m : RcChannels) (now : Time) :
    VehicleApi :=
  { v.updated now with
    input :=
      { Channels :=
          #v[m.Chan1Raw, m.Chan2Raw, m.Chan3Raw, m.Chan4Raw, m.Chan5Raw,
            m.Chan6Raw, m.Chan7Raw, m.Chan8Raw, m.Chan9Raw, m.Chan10Raw,
            m.Chan11Raw, m.Chan12Raw, m.Chan13Raw, m.Chan14Raw, m.Chan15Raw,
            m.Chan16Raw, m.Chan17Raw, m.Chan18Raw]
        Signal := m.Rssi.toUInt64
        Type_ := "Radio Control" } }

def UpdateFromVfr (v : VehicleApi) (m : VfrHud) (now : Time) : VehicleApi :=
  { v.updated now with
    rates :=
      { Airspeed := m.Airspeed
        Groundspeed := m.Groundspeed
        Throttle := m.Throttle.toUInt64
        Climb := m.Climb } }

def UpdateFromSensors (v : VehicleApi) (m : HighresImu) (now : Time) :
    VehicleApi :=
  { v.updated now with
    sensors :=
      { AccX := m.Xacc
        AccY := m.Yacc
        AccZ := m.Zacc
        GyroX := m.Xgyro
        GyroY := m.Ygyro
        GyroZ := m.Zgyro
        MagX := m.Xmag
        MagY := m.Ymag
        MagZ := m.Zmag
        Baro := m.PressureAlt
        Temp := m.Temperature } }

def UpdateFromAttitudeTarget (v : VehicleApi) (m : AttitudeTarget)
    (now : Time) : VehicleApi :=
  { v.updated now with
    target := { v.target with Attitude := m.Q, Thrust := m.Thrust } }

def UpdateFromLocalTarget (v : VehicleApi) (m : PositionTargetLocalNed)
    (now : Time) : VehicleApi :=
  { v.updated now with
    target := { v.target with X := m.X, Y := m.Y, Z := m.Z } }

def UpdateFromGlobalTarget (v : VehicleApi) (m : PositionTargetGlobalInt)
    (now : Time) : VehicleApi :=
  { v.updated now with
    target :=
      { v.target with
        Latitude := Float32.ofInt m.LatInt.toInt / 1e7
        Longitude := Float32.ofInt m.LonInt.toInt / 1e7
        Altitude := m.Alt } }

def UpdateFromHome (v : VehicleApi) (m : HomePosition) (now : Time) :
    VehicleApi :=
  { v.updated now with
    home :=
      { X := m.X
        Y := m.Y
        Z := m.Z
        Latitude := Float32.ofInt m.Latitude.toInt / 1e7
        Longitude := Float32.ofInt m.Longitude.toInt / 1e7
        Altitude := Float32.ofInt m.Altitude.toInt / 1000 } }

def vtolMode : UInt8 → String
  | MAV_VTOL_STATE_UNDEFINED => "Not a VTOL vehicle"
  | MAV_VTOL_STATE_TRANSITION_TO_FW => "Transition to Fixed Wing"
  | MAV_VTOL_STATE_TRANSITION_TO_MC => "Transition to Multirotor"
  | MAV_VTOL_STATE_MC => "Multirotor"
  | MAV_VTOL_STATE_FW => "Fixed Wing"
  | _ => "Not a VTOL vehicle"

def landedInAir : UInt8 → Bool
  | MAV_LANDED_STATE_ON_GROUND => false
  | MAV_LANDED_STATE_UNDEFINED => false
  | MAV_LANDED_STATE_IN_AIR => true
  | _ => false

def UpdateFromExtSys (v : VehicleApi) (m : ExtendedSysState) (now : Time) :
    VehicleApi :=
  { v.updated now with
    status :=
      { v.status with
        VTOLMode := vtolMode m.VtolState
        InAir := landedInAir m.LandedState } }

/-! ## Command and control -/

def GetSystemId (v : VehicleApi) : UInt8 := v.sysId

def SetSystemId (v : VehicleApi) (id : UInt8) : VehicleApi :=
  { v with sysId := id }

def PackComandLong (v : VehicleApi) (Op : UInt16)
    (params : Vector Float32 7) : CommandLong where
  Param1 := params[0]
  Param2 := params[1]
  Param3 := params[2]
  Param4 := params[3]
  Param5 := params[4]
  Param6 := params[5]
  Param7 := params[6]
  Command := Op
  TargetSystem := v.GetSystemId
  TargetComponent := 0
  Confirmation := 0

def RequestVehicleInfo (v : VehicleApi) : CommandLong :=
  v.PackComandLong MAV_CMD_REQUEST_AUTOPILOT_CAPABILITIES
    #v[1, 0, 0, 0, 0, 0, 0]

def UpdateFromAutopilotVersion (v : VehicleApi) (m : AutopilotVersion)
    (now : Time) : VehicleApi :=
  let major := (m.FlightSwVersion &&& 0xFF000000) >>> 24
  let minor := (m.FlightSwVersion &&& 0x00FF0000) >>> 16
  let patch := (m.FlightSwVersion &&& 0x0000FF00) >>> 8
  let git := m.FlightSwVersion &&& 0x000000FF
  { v.updated now with
    caps := m.Capabilities
    fmuId := m.Uid
    fmuGit :=
      toString major.toNat ++ "." ++ toString minor.toNat ++ "." ++
        toString patch.toNat ++ "-" ++ toString git.toNat
    gotCaps := true }

/-! ## Parameters -/

def RequestParamsList (v : VehicleApi) : ParamRequestList where
  TargetSystem := v.GetSystemId
  TargetComponent := 0

def RequestParam (v : VehicleApi) (param : UInt64) : ParamRequestRead where
  ParamIndex := param.toUInt16.toInt16
  TargetSystem := v.GetSystemId
  TargetComponent := 0

def GetParam (v : VehicleApi) (param : List UInt8) : Option Float32 :=
  (v.params.lookup param).map Param.Value

/-- The message that sets a parameter; a name of more than 16 bytes is
written past the end of the array for it. -/
def SetParam (v : VehicleApi) (param : List UInt8) (value : Float32) :
    Checked ParamSet :=
  if param.length ≤ 16 then
    .ok
      { ParamValue := value
        TargetSystem := v.GetSystemId
        TargetComponent := 0
        ParamId := Vector.ofFn fun i => param.getD i.val 0
        ParamType := ((v.params.lookup param).map Param.Encode).getD 0 }
  else
    .error .indexOutOfRange

def ParamsInit (v : VehicleApi) : Bool := v.paramsRequested

def AllParams (v : VehicleApi) : UInt64 × GoMap (List UInt8) Float32 :=
  (v.totalParams, mapValues Param.Value v.params)

/-- The indices of the stored parameters, next to their total count. -/
def CheckParams (v : VehicleApi) : UInt64 × Finset UInt64 :=
  (v.totalParams, ((values v.params).map Param.Index).toFinset)

/-- The string of a byte's code point, in UTF-8. -/
def stringOfByte (c : UInt8) : List UInt8 :=
  if c < 0x80 then [c] else [(0xC0 : UInt8) ||| c >>> 6, (0x80 : UInt8) ||| c &&& 0x3F]

/-- The name in a parameter id, up to its first zero byte. -/
def paramName (ParamId : Vector UInt8 16) : List UInt8 :=
  (ParamId.toList.takeWhile (· ≠ 0)).flatMap stringOfByte

def UpdateFromParam (v : VehicleApi) (m : Mavlink.ParamValue)
    (now : Time) : VehicleApi :=
  { v.updated now with
    paramsRequested := true
    totalParams := m.ParamCount.toUInt64
    params :=
      v.params.insert (paramName m.ParamId)
        ⟨m.ParamIndex.toUInt64, m.ParamValue, m.ParamType⟩ }

end VehicleApi

end DronesmithEngine.Api
