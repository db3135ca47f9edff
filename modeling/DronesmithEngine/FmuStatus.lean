import DronesmithEngine.GoRuntime
import DronesmithEngine.MavlinkEnums
import DronesmithEngine.MavlinkMessages
import DronesmithEngine.MsgManager
import Mathlib.Tactic

/-!
# The record of the status page

`Fmu` of `fmulink/fmulink.go`: the last message of each kind that the page
shows, and for most kinds a status that a packet sets and that the kind's
`MsgManager` takes down.  The decode loop waits in `Update` until the manager
takes its time, and goes on to the next packet then.
-/

namespace DronesmithEngine.Mavlink

@[match_pattern] abbrev MSG_ID_GPS_GLOBAL_ORIGIN : UInt8 := 49
@[match_pattern] abbrev MSG_ID_RADIO_STATUS : UInt8 := 109
@[match_pattern] abbrev MSG_ID_ACTUATOR_CONTROL_TARGET : UInt8 := 140
@[match_pattern] abbrev MSG_ID_ALTITUDE : UInt8 := 141
@[match_pattern] abbrev MSG_ID_BATTERY_STATUS : UInt8 := 147

/-! ## Messages that no vehicle reads -/

structure GpsGlobalOrigin where
  Latitude : Int32 := 0
  Longitude : Int32 := 0
  Altitude : Int32 := 0

def GpsGlobalOrigin.Unpack (self : GpsGlobalOrigin) (p : Packet) :
    Option UnpackError × GpsGlobalOrigin :=
  if p.Payload.length < 12 then
    (some .payloadTooSmall, self)
  else
    (none,
      { Latitude := (LittleEndian.Uint32 p.Payload 0).toInt32
        Longitude := (LittleEndian.Uint32 p.Payload 4).toInt32
        Altitude := (LittleEndian.Uint32 p.Payload 8).toInt32 })

structure BatteryStatus where
  CurrentConsumed : Int32 := 0
  EnergyConsumed : Int32 := 0
  Temperature : Int16 := 0
  Voltages : Vector UInt16 10 := Vector.replicate 10 0
  CurrentBattery : Int16 := 0
  Id : UInt8 := 0
  BatteryFunction : UInt8 := 0
  Type_ : UInt8 := 0
  BatteryRemaining : Int8 := 0

def BatteryStatus.Unpack (self : BatteryStatus) (p : Packet) :
    Option UnpackError × BatteryStatus :=
  if p.Payload.length < 36 then
    (some .payloadTooSmall, self)
  else
    (none,
      { CurrentConsumed := (LittleEndian.Uint32 p.Payload 0).toInt32
        EnergyConsumed := (LittleEndian.Uint32 p.Payload 4).toInt32
        Temperature := (LittleEndian.Uint16 p.Payload 8).toInt16
        Voltages :=
          Vector.ofFn fun i => LittleEndian.Uint16 p.Payload (10 + i.val * 2)
        CurrentBattery := (LittleEndian.Uint16 p.Payload 30).toInt16
        Id := byteAt p.Payload 32
        BatteryFunction := byteAt p.Payload 33
        Type_ := byteAt p.Payload 34
        BatteryRemaining := (byteAt p.Payload 35).toInt8 })

structure RadioStatus where
  Rxerrors : UInt16 := 0
  Fixed : UInt16 := 0
  Rssi : UInt8 := 0
  Remrssi : UInt8 := 0
  Txbuf : UInt8 := 0
  Noise : UInt8 := 0
  Remnoise : UInt8 := 0

def RadioStatus.Unpack (self : RadioStatus) (p : Packet) :
    Option UnpackError × RadioStatus :=
  if p.Payload.length < 9 then
    (some .payloadTooSmall, self)
  else
    (none,
      { Rxerrors := LittleEndian.Uint16 p.Payload 0
        Fixed := LittleEndian.Uint16 p.Payload 2
        Rssi := byteAt p.Payload 4
        Remrssi := byteAt p.Payload 5
        Txbuf := byteAt p.Payload 6
        Noise := byteAt p.Payload 7
        Remnoise := byteAt p.Payload 8 })

structure ActuatorControlTarget where
  TimeUsec : UInt64 := 0
  Controls : Vector Float32 8 := Vector.replicate 8 0
  GroupMlx : UInt8 := 0

def ActuatorControlTarget.Unpack (self : ActuatorControlTarget)
    (p : Packet) : Option UnpackError × ActuatorControlTarget :=
  if p.Payload.length < 41 then
    (some .payloadTooSmall, self)
  else
    (none,
      { TimeUsec := LittleEndian.Uint64 p.Payload 0
        Controls := Vector.ofFn fun i =>
          Float32.ofBits (LittleEndian.Uint32 p.Payload (8 + i.val * 4))
        GroupMlx := byteAt p.Payload 40 })

structure Altitude where
  TimeUsec : UInt64 := 0
  AltitudeMonotonic : Float32 := 0
  AltitudeAmsl : Float32 := 0
  AltitudeLocal : Float32 := 0
  AltitudeRelative : Float32 := 0
  AltitudeTerrain : Float32 := 0
  BottomClearance : Float32 := 0

def Altitude.Unpack (self : Altitude) (p : Packet) :
    Option UnpackError × Altitude :=
  if p.Payload.length < 32 then
    (some .payloadTooSmall, self)
  else
    (none,
      { TimeUsec := LittleEndian.Uint64 p.Payload 0
        AltitudeMonotonic := Float32.ofBits (LittleEndian.Uint32 p.Payload 8)
        AltitudeAmsl := Float32.ofBits (LittleEndian.Uint32 p.Payload 12)
        AltitudeLocal := Float32.ofBits (LittleEndian.Uint32 p.Payload 16)
        AltitudeRelative := Float32.ofBits (LittleEndian.Uint32 p.Payload 20)
        AltitudeTerrain := Float32.ofBits (LittleEndian.Uint32 p.Payload 24)
        BottomClearance :=
          Float32.ofBits (LittleEndian.Uint32 p.Payload 28) })

end DronesmithEngine.Mavlink

namespace DronesmithEngine.Fmulink

open Go Mavlink

/-! ## The record -/

def FMUSTATUS_DOWN : String := "offline"

def FMUSTATUS_GOOD : String := "online"

/-- The fields of `Status`. -/
inductive StatusField
  | Link
  | FlightData
  | AttCtrl
  | AttEst
  | Power
  | Sensors
  | RC
  | LocalPosEst
  | GlobalPosEst
  | GlobalPosCtrl
  | Gps
  | Servos
  | Actuators
  | Altitude
  deriving DecidableEq

instance : Fintype StatusField where
  elems :=
    { .Link, .FlightData, .AttCtrl, .AttEst, .Power, .Sensors, .RC,
      .LocalPosEst, .GlobalPosEst, .GlobalPosCtrl, .Gps, .Servos, .Actuators,
      .Altitude }
  complete field := by cases field <;> decide

abbrev Status := StatusField → String

structure Fmu where
  Meta : Status := fun _ => ""
  Generic : GoMap String Packet := ∅
  CloudOnline : String := FMUSTATUS_DOWN
  Hb : Heartbeat := {}
  Sys : SysStatus := {}
  AttEst : Attitude := {}
  AttCtrl : AttitudeTarget := {}
  Vfr : VfrHud := {}
  GlobalPos : GlobalPositionInt := {}
  LocalPos : LocalPositionNed := {}
  GlobalPosTarget : PositionTargetGlobalInt := {}
  Gps : GpsRawInt := {}
  GpsGlobalOrigin : Mavlink.GpsGlobalOrigin := {}
  Imu : HighresImu := {}
  Battery : BatteryStatus := {}
  RcValues : RcChannels := {}
  RcStatus : RadioStatus := {}
  Servos : ServoOutputRaw := {}
  Actuators : ActuatorControlTarget := {}
  Altitude : Mavlink.Altitude := {}
  ExSys : ExtendedSysState := {}

/-- The intervals of the managers, in nanoseconds. -/
def StatusField.Duration : StatusField → Int64
  | .Link => 2000000000
  | .Power => 4000000000
  | .Gps => 2000000000
  | .Altitude => 2000000000
  | _ => 1000000000

theorem StatusField.Duration_pos (field : StatusField) :
    0 < field.Duration.toInt := by
  cases field <;> decide

def StatusField.interval (field : StatusField) : Interval where
  Duration := field.Duration
  pos := field.Duration_pos

/-! ## Packets -/

/-- A branch of the switch: nothing happens after an error of `Unpack`. -/
def unlessError {α : Type} (fmu : Fmu) (unpacked : Option UnpackError × α)
    (store : α → Fmu) (field : Option StatusField) :
    Fmu × Option StatusField :=
  match unpacked with
  | (some _, _) => (fmu, none)
  | (none, pv) =>
      match field with
      | none => (store pv, none)
      | some field =>
          let fmu := store pv
          ({ fmu with
              Meta := Function.update fmu.Meta field FMUSTATUS_GOOD },
            some field)

def zeroNaN (x : Float32) : Float32 := if x.isNaN then 0 else x

def pruneAltitude (pv : Mavlink.Altitude) : Mavlink.Altitude :=
  { pv with
    AltitudeAmsl := zeroNaN pv.AltitudeAmsl
    AltitudeMonotonic := zeroNaN pv.AltitudeMonotonic
    AltitudeLocal := zeroNaN pv.AltitudeLocal
    AltitudeRelative := zeroNaN pv.AltitudeRelative
    AltitudeTerrain := zeroNaN pv.AltitudeTerrain
    BottomClearance := zeroNaN pv.BottomClearance }

/-- What a packet does to the record, with the manager whose `Update` the loop
calls. -/
def Fmu.receive (fmu : Fmu) (online : Bool) (pkt : Packet) :
    Fmu × Option StatusField :=
  let fmu :=
    { fmu with
      CloudOnline := if online then FMUSTATUS_GOOD else FMUSTATUS_DOWN }
  match pkt.MsgID with
  | MSG_ID_PARAM_VALUE => (fmu, none)
  | MSG_ID_AUTOPILOT_VERSION => (fmu, none)
  | MSG_ID_STATUSTEXT => (fmu, none)
  | MSG_ID_VFR_HUD =>
      unlessError fmu (VfrHud.Unpack {} pkt)
        (fun pv => { fmu with Vfr := pv }) (some .FlightData)
  | MSG_ID_ATTITUDE_TARGET =>
      unlessError fmu (AttitudeTarget.Unpack {} pkt)
        (fun pv => { fmu with AttCtrl := pv }) (some .AttCtrl)
  | MSG_ID_ATTITUDE =>
      unlessError fmu (Attitude.Unpack {} pkt)
        (fun pv => { fmu with AttEst := pv }) (some .AttEst)
  | MSG_ID_GLOBAL_POSITION_INT =>
      unlessError fmu (GlobalPositionInt.Unpack {} pkt)
        (fun pv => { fmu with GlobalPos := pv }) (some .GlobalPosEst)
  | MSG_ID_LOCAL_POSITION_NED =>
      unlessError fmu (LocalPositionNed.Unpack {} pkt)
        (fun pv => { fmu with LocalPos := pv }) (some .LocalPosEst)
  | MSG_ID_POSITION_TARGET_GLOBAL_INT =>
      unlessError fmu (PositionTargetGlobalInt.Unpack {} pkt)
        (fun pv => { fmu with GlobalPosTarget := pv }) (some .GlobalPosCtrl)
  | MSG_ID_GPS_RAW_INT =>
      unlessError fmu (GpsRawInt.Unpack {} pkt)
        (fun pv => { fmu with Gps := pv }) (some .Gps)
  | MSG_ID_GPS_GLOBAL_ORIGIN =>
      unlessError fmu (GpsGlobalOrigin.Unpack {} pkt)
        (fun pv => { fmu with GpsGlobalOrigin := pv }) none
  | MSG_ID_HIGHRES_IMU =>
      unlessError fmu (HighresImu.Unpack {} pkt)
        (fun pv => { fmu with Imu := pv }) (some .Sensors)
  | MSG_ID_BATTERY_STATUS =>
      unlessError fmu (BatteryStatus.Unpack {} pkt)
        (fun pv => { fmu with Battery := pv }) (some .Power)
  | MSG_ID_RC_CHANNELS =>
      unlessError fmu (RcChannels.Unpack {} pkt)
        (fun pv => { fmu with RcValues := pv }) (some .RC)
  | MSG_ID_RADIO_STATUS =>
      unlessError fmu (RadioStatus.Unpack {} pkt)
        (fun pv => { fmu with RcStatus := pv }) none
  | MSG_ID_HEARTBEAT =>
      unlessError fmu (Heartbeat.Unpack {} pkt)
        (fun pv => { fmu with Hb := pv }) (some .Link)
  | MSG_ID_SYS_STATUS =>
      unlessError fmu (SysStatus.Unpack {} pkt)
        (fun pv => { fmu with Sys := pv }) none
  | MSG_ID_SERVO_OUTPUT_RAW =>
      unlessError fmu (ServoOutputRaw.Unpack {} pkt)
        (fun pv => { fmu with Servos := pv }) (some .Servos)
  | MSG_ID_ACTUATOR_CONTROL_TARGET =>
      unlessError fmu (ActuatorControlTarget.Unpack {} pkt)
        (fun pv => { fmu with Actuators := pv }) (some .Actuators)
  | MSG_ID_ALTITUDE =>
      unlessError fmu (Altitude.Unpack {} pkt)
        (fun pv => { fmu with Altitude := pruneAltitude pv })
        (some .Altitude)
  | MSG_ID_EXTENDED_SYS_STATE =>
      unlessError fmu (ExtendedSysState.Unpack {} pkt)
        (fun pv => { fmu with ExSys := pv }) none
  | _ =>
      ({ fmu with
          Generic := fmu.Generic.insert (toString pkt.MsgID.toNat) pkt },
        none)

end DronesmithEngine.Fmulink
