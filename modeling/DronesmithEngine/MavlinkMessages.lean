import DronesmithEngine.MavlinkPacket
import Mathlib.Tactic

/-!
# Messages

The messages of `mavlink/parser/common.go` that a vehicle reads or sends.
`Unpack` overwrites a message that a caller has declared, so a message whose
payload is too small keeps the value it had, which is zero in every caller.
-/

namespace DronesmithEngine.Mavlink

inductive UnpackError
  | payloadTooSmall
  deriving DecidableEq

/-- The byte at an offset; every `Unpack` has checked the length before it
reads one. -/
def byteAt (b : List UInt8) (i : ℕ) : UInt8 := b.getD i 0

namespace LittleEndian

def Uint16 (b : List UInt8) (i : ℕ) : UInt16 :=
  (byteAt b i).toUInt16 ||| (byteAt b (i + 1)).toUInt16 <<< 8

def Uint32 (b : List UInt8) (i : ℕ) : UInt32 :=
  (byteAt b i).toUInt32 ||| (byteAt b (i + 1)).toUInt32 <<< 8 |||
    (byteAt b (i + 2)).toUInt32 <<< 16 ||| (byteAt b (i + 3)).toUInt32 <<< 24

def Uint64 (b : List UInt8) (i : ℕ) : UInt64 :=
  (Uint32 b i).toUInt64 ||| (Uint32 b (i + 4)).toUInt64 <<< 32

def PutUint16 (v : UInt16) : List UInt8 := [v.toUInt8, (v >>> 8).toUInt8]

def PutUint32 (v : UInt32) : List UInt8 :=
  [v.toUInt8, (v >>> 8).toUInt8, (v >>> 16).toUInt8, (v >>> 24).toUInt8]

end LittleEndian

/-! ## Messages a vehicle reads -/

structure Heartbeat where
  CustomMode : UInt32 := 0
  Type_ : UInt8 := 0
  Autopilot : UInt8 := 0
  BaseMode : UInt8 := 0
  SystemStatus : UInt8 := 0
  MavlinkVersion : UInt8 := 0

def Heartbeat.Unpack (self : Heartbeat) (p : Packet) :
    Option UnpackError × Heartbeat :=
  if p.Payload.length < 9 then
    (some .payloadTooSmall, self)
  else
    (none,
      { CustomMode := LittleEndian.Uint32 p.Payload 0
        Type_ := byteAt p.Payload 4
        Autopilot := byteAt p.Payload 5
        BaseMode := byteAt p.Payload 6
        SystemStatus := byteAt p.Payload 7
        MavlinkVersion := byteAt p.Payload 8 })

structure SysStatus where
  OnboardControlSensorsPresent : UInt32 := 0
  OnboardControlSensorsEnabled : UInt32 := 0
  OnboardControlSensorsHealth : UInt32 := 0
  Load : UInt16 := 0
  VoltageBattery : UInt16 := 0
  CurrentBattery : Int16 := 0
  DropRateComm : UInt16 := 0
  ErrorsComm : UInt16 := 0
  ErrorsCount1 : UInt16 := 0
  ErrorsCount2 : UInt16 := 0
  ErrorsCount3 : UInt16 := 0
  ErrorsCount4 : UInt16 := 0
  BatteryRemaining : Int8 := 0

def SysStatus.Unpack (self : SysStatus) (p : Packet) :
    Option UnpackError × SysStatus :=
  if p.Payload.length < 31 then
    (some .payloadTooSmall, self)
  else
    (none,
      { OnboardControlSensorsPresent := LittleEndian.Uint32 p.Payload 0
        OnboardControlSensorsEnabled := LittleEndian.Uint32 p.Payload 4
        OnboardControlSensorsHealth := LittleEndian.Uint32 p.Payload 8
        Load := LittleEndian.Uint16 p.Payload 12
        VoltageBattery := LittleEndian.Uint16 p.Payload 14
        CurrentBattery := (LittleEndian.Uint16 p.Payload 16).toInt16
        DropRateComm := LittleEndian.Uint16 p.Payload 18
        ErrorsComm := LittleEndian.Uint16 p.Payload 20
        ErrorsCount1 := LittleEndian.Uint16 p.Payload 22
        ErrorsCount2 := LittleEndian.Uint16 p.Payload 24
        ErrorsCount3 := LittleEndian.Uint16 p.Payload 26
        ErrorsCount4 := LittleEndian.Uint16 p.Payload 28
        BatteryRemaining := (byteAt p.Payload 30).toInt8 })

set_option linter.dupNamespace false in
structure ParamValue where
  ParamValue : Float32 := 0
  ParamCount : UInt16 := 0
  ParamIndex : UInt16 := 0
  ParamId : Vector UInt8 16 := Vector.replicate 16 0
  ParamType : UInt8 := 0

def ParamValue.Unpack (self : Mavlink.ParamValue) (p : Packet) :
    Option UnpackError × Mavlink.ParamValue :=
  if p.Payload.length < 25 then
    (some .payloadTooSmall, self)
  else
    (none,
      { ParamValue := Float32.ofBits (LittleEndian.Uint32 p.Payload 0)
        ParamCount := LittleEndian.Uint16 p.Payload 4
        ParamIndex := LittleEndian.Uint16 p.Payload 6
        ParamId := Vector.ofFn fun i => byteAt p.Payload (8 + i.val)
        ParamType := byteAt p.Payload 24 })

structure GpsRawInt where
  TimeUsec : UInt64 := 0
  Lat : Int32 := 0
  Lon : Int32 := 0
  Alt : Int32 := 0
  Eph : UInt16 := 0
  Epv : UInt16 := 0
  Vel : UInt16 := 0
  Cog : UInt16 := 0
  FixType : UInt8 := 0
  SatellitesVisible : UInt8 := 0

def GpsRawInt.Unpack (self : GpsRawInt) (p : Packet) :
    Option UnpackError × GpsRawInt :=
  if p.Payload.length < 30 then
    (some .payloadTooSmall, self)
  else
    (none,
      { TimeUsec := LittleEndian.Uint64 p.Payload 0
        Lat := (LittleEndian.Uint32 p.Payload 8).toInt32
        Lon := (LittleEndian.Uint32 p.Payload 12).toInt32
        Alt := (LittleEndian.Uint32 p.Payload 16).toInt32
        Eph := LittleEndian.Uint16 p.Payload 20
        Epv := LittleEndian.Uint16 p.Payload 22
        Vel := LittleEndian.Uint16 p.Payload 24
        Cog := LittleEndian.Uint16 p.Payload 26
        FixType := byteAt p.Payload 28
        SatellitesVisible := byteAt p.Payload 29 })

structure Attitude where
  TimeBootMs : UInt32 := 0
  Roll : Float32 := 0
  Pitch : Float32 := 0
  Yaw : Float32 := 0
  Rollspeed : Float32 := 0
  Pitchspeed : Float32 := 0
  Yawspeed : Float32 := 0

def Attitude.Unpack (self : Attitude) (p : Packet) :
    Option UnpackError × Attitude :=
  if p.Payload.length < 28 then
    (some .payloadTooSmall, self)
  else
    (none,
      { TimeBootMs := LittleEndian.Uint32 p.Payload 0
        Roll := Float32.ofBits (LittleEndian.Uint32 p.Payload 4)
        Pitch := Float32.ofBits (LittleEndian.Uint32 p.Payload 8)
        Yaw := Float32.ofBits (LittleEndian.Uint32 p.Payload 12)
        Rollspeed := Float32.ofBits (LittleEndian.Uint32 p.Payload 16)
        Pitchspeed := Float32.ofBits (LittleEndian.Uint32 p.Payload 20)
        Yawspeed := Float32.ofBits (LittleEndian.Uint32 p.Payload 24) })

structure LocalPositionNed where
  TimeBootMs : UInt32 := 0
  X : Float32 := 0
  Y : Float32 := 0
  Z : Float32 := 0
  Vx : Float32 := 0
  Vy : Float32 := 0
  Vz : Float32 := 0

def LocalPositionNed.Unpack (self : LocalPositionNed) (p : Packet) :
    Option UnpackError × LocalPositionNed :=
  if p.Payload.length < 28 then
    (some .payloadTooSmall, self)
  else
    (none,
      { TimeBootMs := LittleEndian.Uint32 p.Payload 0
        X := Float32.ofBits (LittleEndian.Uint32 p.Payload 4)
        Y := Float32.ofBits (LittleEndian.Uint32 p.Payload 8)
        Z := Float32.ofBits (LittleEndian.Uint32 p.Payload 12)
        Vx := Float32.ofBits (LittleEndian.Uint32 p.Payload 16)
        Vy := Float32.ofBits (LittleEndian.Uint32 p.Payload 20)
        Vz := Float32.ofBits (LittleEndian.Uint32 p.Payload 24) })

structure GlobalPositionInt where
  TimeBootMs : UInt32 := 0
  Lat : Int32 := 0
  Lon : Int32 := 0
  Alt : Int32 := 0
  RelativeAlt : Int32 := 0
  Vx : Int16 := 0
  Vy : Int16 := 0
  Vz : Int16 := 0
  Hdg : UInt16 := 0

def GlobalPositionInt.Unpack (self : GlobalPositionInt) (p : Packet) :
    Option UnpackError × GlobalPositionInt :=
  if p.Payload.length < 28 then
    (some .payloadTooSmall, self)
  else
    (none,
      { TimeBootMs := LittleEndian.Uint32 p.Payload 0
        Lat := (LittleEndian.Uint32 p.Payload 4).toInt32
        Lon := (LittleEndian.Uint32 p.Payload 8).toInt32
        Alt := (LittleEndian.Uint32 p.Payload 12).toInt32
        RelativeAlt := (LittleEndian.Uint32 p.Payload 16).toInt32
        Vx := (LittleEndian.Uint16 p.Payload 20).toInt16
        Vy := (LittleEndian.Uint16 p.Payload 22).toInt16
        Vz := (LittleEndian.Uint16 p.Payload 24).toInt16
        Hdg := LittleEndian.Uint16 p.Payload 26 })

structure ServoOutputRaw where
  TimeUsec : UInt32 := 0
  Servo1Raw : UInt16 := 0
  Servo2Raw : UInt16 := 0
  Servo3Raw : UInt16 := 0
  Servo4Raw : UInt16 := 0
  Servo5Raw : UInt16 := 0
  Servo6Raw : UInt16 := 0
  Servo7Raw : UInt16 := 0
  Servo8Raw : UInt16 := 0
  Servo9Raw : UInt16 := 0
  Servo10Raw : UInt16 := 0
  Servo11Raw : UInt16 := 0
  Servo12Raw : UInt16 := 0
  Servo13Raw : UInt16 := 0
  Servo14Raw : UInt16 := 0
  Servo15Raw : UInt16 := 0
  Servo16Raw : UInt16 := 0
  Port : UInt8 := 0

def ServoOutputRaw.Unpack (self : ServoOutputRaw) (p : Packet) :
    Option UnpackError × ServoOutputRaw :=
  if p.Payload.length < 37 then
    (some .payloadTooSmall, self)
  else
    (none,
      { TimeUsec := LittleEndian.Uint32 p.Payload 0
        Servo1Raw := LittleEndian.Uint16 p.Payload 4
        Servo2Raw := LittleEndian.Uint16 p.Payload 6
        Servo3Raw := LittleEndian.Uint16 p.Payload 8
        Servo4Raw := LittleEndian.Uint16 p.Payload 10
        Servo5Raw := LittleEndian.Uint16 p.Payload 12
        Servo6Raw := LittleEndian.Uint16 p.Payload 14
        Servo7Raw := LittleEndian.Uint16 p.Payload 16
        Servo8Raw := LittleEndian.Uint16 p.Payload 18
        Servo9Raw := LittleEndian.Uint16 p.Payload 20
        Servo10Raw := LittleEndian.Uint16 p.Payload 22
        Servo11Raw := LittleEndian.Uint16 p.Payload 24
        Servo12Raw := LittleEndian.Uint16 p.Payload 26
        Servo13Raw := LittleEndian.Uint16 p.Payload 28
        Servo14Raw := LittleEndian.Uint16 p.Payload 30
        Servo15Raw := LittleEndian.Uint16 p.Payload 32
        Servo16Raw := LittleEndian.Uint16 p.Payload 34
        Port := byteAt p.Payload 36 })

structure RcChannels where
  TimeBootMs : UInt32 := 0
  Chan1Raw : UInt16 := 0
  Chan2Raw : UInt16 := 0
  Chan3Raw : UInt16 := 0
  Chan4Raw : UInt16 := 0
  Chan5Raw : UInt16 := 0
  Chan6Raw : UInt16 := 0
  Chan7Raw : UInt16 := 0
  Chan8Raw : UInt16 := 0
  Chan9Raw : UInt16 := 0
  Chan10Raw : UInt16 := 0
  Chan11Raw : UInt16 := 0
  Chan12Raw : UInt16 := 0
  Chan13Raw : UInt16 := 0
  Chan14Raw : UInt16 := 0
  Chan15Raw : UInt16 := 0
  Chan16Raw : UInt16 := 0
  Chan17Raw : UInt16 := 0
  Chan18Raw : UInt16 := 0
  Chancount : UInt8 := 0
  Rssi : UInt8 := 0

def RcChannels.Unpack (self : RcChannels) (p : Packet) :
    Option UnpackError × RcChannels :=
  if p.Payload.length < 42 then
    (some .payloadTooSmall, self)
  else
    (none,
      { TimeBootMs := LittleEndian.Uint32 p.Payload 0
        Chan1Raw := LittleEndian.Uint16 p.Payload 4
        Chan2Raw := LittleEndian.Uint16 p.Payload 6
        Chan3Raw := LittleEndian.Uint16 p.Payload 8
        Chan4Raw := LittleEndian.Uint16 p.Payload 10
        Chan5Raw := LittleEndian.Uint16 p.Payload 12
        Chan6Raw := LittleEndian.Uint16 p.Payload 14
        Chan7Raw := LittleEndian.Uint16 p.Payload 16
        Chan8Raw := LittleEndian.Uint16 p.Payload 18
        Chan9Raw := LittleEndian.Uint16 p.Payload 20
        Chan10Raw := LittleEndian.Uint16 p.Payload 22
        Chan11Raw := LittleEndian.Uint16 p.Payload 24
        Chan12Raw := LittleEndian.Uint16 p.Payload 26
        Chan13Raw := LittleEndian.Uint16 p.Payload 28
        Chan14Raw := LittleEndian.Uint16 p.Payload 30
        Chan15Raw := LittleEndian.Uint16 p.Payload 32
        Chan16Raw := LittleEndian.Uint16 p.Payload 34
        Chan17Raw := LittleEndian.Uint16 p.Payload 36
        Chan18Raw := LittleEndian.Uint16 p.Payload 38
        Chancount := byteAt p.Payload 40
        Rssi := byteAt p.Payload 41 })

structure VfrHud where
  Airspeed : Float32 := 0
  Groundspeed : Float32 := 0
  Alt : Float32 := 0
  Climb : Float32 := 0
  Heading : Int16 := 0
  Throttle : UInt16 := 0

def VfrHud.Unpack (self : VfrHud) (p : Packet) :
    Option UnpackError × VfrHud :=
  if p.Payload.length < 20 then
    (some .payloadTooSmall, self)
  else
    (none,
      { Airspeed := Float32.ofBits (LittleEndian.Uint32 p.Payload 0)
        Groundspeed := Float32.ofBits (LittleEndian.Uint32 p.Payload 4)
        Alt := Float32.ofBits (LittleEndian.Uint32 p.Payload 8)
        Climb := Float32.ofBits (LittleEndian.Uint32 p.Payload 12)
        Heading := (LittleEndian.Uint16 p.Payload 16).toInt16
        Throttle := LittleEndian.Uint16 p.Payload 18 })

structure CommandAck where
  Command : UInt16 := 0
  Result : UInt8 := 0

def CommandAck.Unpack (self : CommandAck) (p : Packet) :
    Option UnpackError × CommandAck :=
  if p.Payload.length < 3 then
    (some .payloadTooSmall, self)
  else
    (none,
      { Command := LittleEndian.Uint16 p.Payload 0
        Result := byteAt p.Payload 2 })

structure AttitudeTarget where
  TimeBootMs : UInt32 := 0
  Q : Vector Float32 4 := Vector.replicate 4 0
  BodyRollRate : Float32 := 0
  BodyPitchRate : Float32 := 0
  BodyYawRate : Float32 := 0
  Thrust : Float32 := 0
  TypeMask : UInt8 := 0

def AttitudeTarget.Unpack (self : AttitudeTarget) (p : Packet) :
    Option UnpackError × AttitudeTarget :=
  if p.Payload.length < 37 then
    (some .payloadTooSmall, self)
  else
    (none,
      { TimeBootMs := LittleEndian.Uint32 p.Payload 0
        Q := Vector.ofFn fun i =>
          Float32.ofBits (LittleEndian.Uint32 p.Payload (4 + i.val * 4))
        BodyRollRate := Float32.ofBits (LittleEndian.Uint32 p.Payload 20)
        BodyPitchRate := Float32.ofBits (LittleEndian.Uint32 p.Payload 24)
        BodyYawRate := Float32.ofBits (LittleEndian.Uint32 p.Payload 28)
        Thrust := Float32.ofBits (LittleEndian.Uint32 p.Payload 32)
        TypeMask := byteAt p.Payload 36 })

structure PositionTargetLocalNed where
  TimeBootMs : UInt32 := 0
  X : Float32 := 0
  Y : Float32 := 0
  Z : Float32 := 0
  Vx : Float32 := 0
  Vy : Float32 := 0
  Vz : Float32 := 0
  Afx : Float32 := 0
  Afy : Float32 := 0
  Afz : Float32 := 0
  Yaw : Float32 := 0
  YawRate : Float32 := 0
  TypeMask : UInt16 := 0
  CoordinateFrame : UInt8 := 0

def PositionTargetLocalNed.Unpack (self : PositionTargetLocalNed)
    (p : Packet) : Option UnpackError × PositionTargetLocalNed :=
  if p.Payload.length < 51 then
    (some .payloadTooSmall, self)
  else
    (none,
      { TimeBootMs := LittleEndian.Uint32 p.Payload 0
        X := Float32.ofBits (LittleEndian.Uint32 p.Payload 4)
        Y := Float32.ofBits (LittleEndian.Uint32 p.Payload 8)
        Z := Float32.ofBits (LittleEndian.Uint32 p.Payload 12)
        Vx := Float32.ofBits (LittleEndian.Uint32 p.Payload 16)
        Vy := Float32.ofBits (LittleEndian.Uint32 p.Payload 20)
        Vz := Float32.ofBits (LittleEndian.Uint32 p.Payload 24)
        Afx := Float32.ofBits (LittleEndian.Uint32 p.Payload 28)
        Afy := Float32.ofBits (LittleEndian.Uint32 p.Payload 32)
        Afz := Float32.ofBits (LittleEndian.Uint32 p.Payload 36)
        Yaw := Float32.ofBits (LittleEndian.Uint32 p.Payload 40)
        YawRate := Float32.ofBits (LittleEndian.Uint32 p.Payload 44)
        TypeMask := LittleEndian.Uint16 p.Payload 48
        CoordinateFrame := byteAt p.Payload 50 })

structure PositionTargetGlobalInt where
  TimeBootMs : UInt32 := 0
  LatInt : Int32 := 0
  LonInt : Int32 := 0
  Alt : Float32 := 0
  Vx : Float32 := 0
  Vy : Float32 := 0
  Vz : Float32 := 0
  Afx : Float32 := 0
  Afy : Float32 := 0
  Afz : Float32 := 0
  Yaw : Float32 := 0
  YawRate : Float32 := 0
  TypeMask : UInt16 := 0
  CoordinateFrame : UInt8 := 0

def PositionTargetGlobalInt.Unpack (self : PositionTargetGlobalInt)
    (p : Packet) : Option UnpackError × PositionTargetGlobalInt :=
  if p.Payload.length < 51 then
    (some .payloadTooSmall, self)
  else
    (none,
      { TimeBootMs := LittleEndian.Uint32 p.Payload 0
        LatInt := (LittleEndian.Uint32 p.Payload 4).toInt32
        LonInt := (LittleEndian.Uint32 p.Payload 8).toInt32
        Alt := Float32.ofBits (LittleEndian.Uint32 p.Payload 12)
        Vx := Float32.ofBits (LittleEndian.Uint32 p.Payload 16)
        Vy := Float32.ofBits (LittleEndian.Uint32 p.Payload 20)
        Vz := Float32.ofBits (LittleEndian.Uint32 p.Payload 24)
        Afx := Float32.ofBits (LittleEndian.Uint32 p.Payload 28)
        Afy := Float32.ofBits (LittleEndian.Uint32 p.Payload 32)
        Afz := Float32.ofBits (LittleEndian.Uint32 p.Payload 36)
        Yaw := Float32.ofBits (LittleEndian.Uint32 p.Payload 40)
        YawRate := Float32.ofBits (LittleEndian.Uint32 p.Payload 44)
        TypeMask := LittleEndian.Uint16 p.Payload 48
        CoordinateFrame := byteAt p.Payload 50 })

structure HighresImu where
  TimeUsec : UInt64 := 0
  Xacc : Float32 := 0
  Yacc : Float32 := 0
  Zacc : Float32 := 0
  Xgyro : Float32 := 0
  Ygyro : Float32 := 0
  Zgyro : Float32 := 0
  Xmag : Float32 := 0
  Ymag : Float32 := 0
  Zmag : Float32 := 0
  AbsPressure : Float32 := 0
  DiffPressure : Float32 := 0
  PressureAlt : Float32 := 0
  Temperature : Float32 := 0
  FieldsUpdated : UInt16 := 0

def HighresImu.Unpack (self : HighresImu) (p : Packet) :
    Option UnpackError × HighresImu :=
  if p.Payload.length < 62 then
    (some .payloadTooSmall, self)
  else
    (none,
      { TimeUsec := LittleEndian.Uint64 p.Payload 0
        Xacc := Float32.ofBits (LittleEndian.Uint32 p.Payload 8)
        Yacc := Float32.ofBits (LittleEndian.Uint32 p.Payload 12)
        Zacc := Float32.ofBits (LittleEndian.Uint32 p.Payload 16)
        Xgyro := Float32.ofBits (LittleEndian.Uint32 p.Payload 20)
        Ygyro := Float32.ofBits (LittleEndian.Uint32 p.Payload 24)
        Zgyro := Float32.ofBits (LittleEndian.Uint32 p.Payload 28)
        Xmag := Float32.ofBits (LittleEndian.Uint32 p.Payload 32)
        Ymag := Float32.ofBits (LittleEndian.Uint32 p.Payload 36)
        Zmag := Float32.ofBits (LittleEndian.Uint32 p.Payload 40)
        AbsPressure := Float32.ofBits (LittleEndian.Uint32 p.Payload 44)
        DiffPressure := Float32.ofBits (LittleEndian.Uint32 p.Payload 48)
        PressureAlt := Float32.ofBits (LittleEndian.Uint32 p.Payload 52)
        Temperature := Float32.ofBits (LittleEndian.Uint32 p.Payload 56)
        FieldsUpdated := LittleEndian.Uint16 p.Payload 60 })

structure OpticalFlowRad where
  TimeUsec : UInt64 := 0
  IntegrationTimeUs : UInt32 := 0
  IntegratedX : Float32 := 0
  IntegratedY : Float32 := 0
  IntegratedXgyro : Float32 := 0
  IntegratedYgyro : Float32 := 0
  IntegratedZgyro : Float32 := 0
  TimeDeltaDistanceUs : UInt32 := 0
  Distance : Float32 := 0
  Temperature : Int16 := 0
  SensorId : UInt8 := 0
  Quality : UInt8 := 0

def OpticalFlowRad.Unpack (self : OpticalFlowRad) (p : Packet) :
    Option UnpackError × OpticalFlowRad :=
  if p.Payload.length < 44 then
    (some .payloadTooSmall, self)
  else
    (none,
      { TimeUsec := LittleEndian.Uint64 p.Payload 0
        IntegrationTimeUs := LittleEndian.Uint32 p.Payload 8
        IntegratedX := Float32.ofBits (LittleEndian.Uint32 p.Payload 12)
        IntegratedY := Float32.ofBits (LittleEndian.Uint32 p.Payload 16)
        IntegratedXgyro := Float32.ofBits (LittleEndian.Uint32 p.Payload 20)
        IntegratedYgyro := Float32.ofBits (LittleEndian.Uint32 p.Payload 24)
        IntegratedZgyro := Float32.ofBits (LittleEndian.Uint32 p.Payload 28)
        TimeDeltaDistanceUs := LittleEndian.Uint32 p.Payload 32
        Distance := Float32.ofBits (LittleEndian.Uint32 p.Payload 36)
        Temperature := (LittleEndian.Uint16 p.Payload 40).toInt16
        SensorId := byteAt p.Payload 42
        Quality := byteAt p.Payload 43 })

structure DistanceSensor where
  TimeBootMs : UInt32 := 0
  MinDistance : UInt16 := 0
  MaxDistance : UInt16 := 0
  CurrentDistance : UInt16 := 0
  Type_ : UInt8 := 0
  Id : UInt8 := 0
  Orientation : UInt8 := 0
  Covariance : UInt8 := 0

def DistanceSensor.Unpack (self : DistanceSensor) (p : Packet) :
    Option UnpackError × DistanceSensor :=
  if p.Payload.length < 14 then
    (some .payloadTooSmall, self)
  else
    (none,
      { TimeBootMs := LittleEndian.Uint32 p.Payload 0
        MinDistance := LittleEndian.Uint16 p.Payload 4
        MaxDistance := LittleEndian.Uint16 p.Payload 6
        CurrentDistance := LittleEndian.Uint16 p.Payload 8
        Type_ := byteAt p.Payload 10
        Id := byteAt p.Payload 11
        Orientation := byteAt p.Payload 12
        Covariance := byteAt p.Payload 13 })

structure AutopilotVersion where
  Capabilities : UInt64 := 0
  Uid : UInt64 := 0
  FlightSwVersion : UInt32 := 0
  MiddlewareSwVersion : UInt32 := 0
  OsSwVersion : UInt32 := 0
  BoardVersion : UInt32 := 0
  VendorId : UInt16 := 0
  ProductId : UInt16 := 0
  FlightCustomVersion : Vector UInt8 8 := Vector.replicate 8 0
  MiddlewareCustomVersion : Vector UInt8 8 := Vector.replicate 8 0
  OsCustomVersion : Vector UInt8 8 := Vector.replicate 8 0

def AutopilotVersion.Unpack (self : AutopilotVersion) (p : Packet) :
    Option UnpackError × AutopilotVersion :=
  if p.Payload.length < 60 then
    (some .payloadTooSmall, self)
  else
    (none,
      { Capabilities := LittleEndian.Uint64 p.Payload 0
        Uid := LittleEndian.Uint64 p.Payload 8
        FlightSwVersion := LittleEndian.Uint32 p.Payload 16
        MiddlewareSwVersion := LittleEndian.Uint32 p.Payload 20
        OsSwVersion := LittleEndian.Uint32 p.Payload 24
        BoardVersion := LittleEndian.Uint32 p.Payload 28
        VendorId := LittleEndian.Uint16 p.Payload 32
        ProductId := LittleEndian.Uint16 p.Payload 34
        FlightCustomVersion :=
          Vector.ofFn fun i => byteAt p.Payload (36 + i.val)
        MiddlewareCustomVersion :=
          Vector.ofFn fun i => byteAt p.Payload (44 + i.val)
        OsCustomVersion :=
          Vector.ofFn fun i => byteAt p.Payload (52 + i.val) })

structure HomePosition where
  Latitude : Int32 := 0
  Longitude : Int32 := 0
  Altitude : Int32 := 0
  X : Float32 := 0
  Y : Float32 := 0
  Z : Float32 := 0
  Q : Vector Float32 4 := Vector.replicate 4 0
  ApproachX : Float32 := 0
  ApproachY : Float32 := 0
  ApproachZ : Float32 := 0

def HomePosition.Unpack (self : HomePosition) (p : Packet) :
    Option UnpackError × HomePosition :=
  if p.Payload.length < 52 then
    (some .payloadTooSmall, self)
  else
    (none,
      { Latitude := (LittleEndian.Uint32 p.Payload 0).toInt32
        Longitude := (LittleEndian.Uint32 p.Payload 4).toInt32
        Altitude := (LittleEndian.Uint32 p.Payload 8).toInt32
        X := Float32.ofBits (LittleEndian.Uint32 p.Payload 12)
        Y := Float32.ofBits (LittleEndian.Uint32 p.Payload 16)
        Z := Float32.ofBits (LittleEndian.Uint32 p.Payload 20)
        Q := Vector.ofFn fun i =>
          Float32.ofBits (LittleEndian.Uint32 p.Payload (24 + i.val * 4))
        ApproachX := Float32.ofBits (LittleEndian.Uint32 p.Payload 40)
        ApproachY := Float32.ofBits (LittleEndian.Uint32 p.Payload 44)
        ApproachZ := Float32.ofBits (LittleEndian.Uint32 p.Payload 48) })

structure ExtendedSysState where
  VtolState : UInt8 := 0
  LandedState : UInt8 := 0

def ExtendedSysState.Unpack (self : ExtendedSysState) (p : Packet) :
    Option UnpackError × ExtendedSysState :=
  if p.Payload.length < 2 then
    (some .payloadTooSmall, self)
  else
    (none,
      { VtolState := byteAt p.Payload 0
        LandedState := byteAt p.Payload 1 })

structure Statustext where
  Severity : UInt8 := 0
  Text : Vector UInt8 50 := Vector.replicate 50 0

def Statustext.Unpack (self : Statustext) (p : Packet) :
    Option UnpackError × Statustext :=
  if p.Payload.length < 51 then
    (some .payloadTooSmall, self)
  else
    (none,
      { Severity := byteAt p.Payload 0
        Text := Vector.ofFn fun i => byteAt p.Payload (1 + i.val) })

inductive Message
  | heartbeat (m : Heartbeat)
  | sysStatus (m : SysStatus)
  | paramValue (m : ParamValue)
  | gpsRawInt (m : GpsRawInt)
  | attitude (m : Attitude)
  | localPositionNed (m : LocalPositionNed)
  | globalPositionInt (m : GlobalPositionInt)
  | servoOutputRaw (m : ServoOutputRaw)
  | rcChannels (m : RcChannels)
  | vfrHud (m : VfrHud)
  | commandAck (m : CommandAck)
  | attitudeTarget (m : AttitudeTarget)
  | positionTargetLocalNed (m : PositionTargetLocalNed)
  | positionTargetGlobalInt (m : PositionTargetGlobalInt)
  | highresImu (m : HighresImu)
  | opticalFlowRad (m : OpticalFlowRad)
  | distanceSensor (m : DistanceSensor)
  | autopilotVersion (m : AutopilotVersion)
  | homePosition (m : HomePosition)
  | extendedSysState (m : ExtendedSysState)
  | statustext (m : Statustext)

def Message.MsgName : Message → String
  | .heartbeat _ => "Heartbeat"
  | .sysStatus _ => "SysStatus"
  | .paramValue _ => "ParamValue"
  | .gpsRawInt _ => "GpsRawInt"
  | .attitude _ => "Attitude"
  | .localPositionNed _ => "LocalPositionNed"
  | .globalPositionInt _ => "GlobalPositionInt"
  | .servoOutputRaw _ => "ServoOutputRaw"
  | .rcChannels _ => "RcChannels"
  | .vfrHud _ => "VfrHud"
  | .commandAck _ => "CommandAck"
  | .attitudeTarget _ => "AttitudeTarget"
  | .positionTargetLocalNed _ => "PositionTargetLocalNed"
  | .positionTargetGlobalInt _ => "PositionTargetGlobalInt"
  | .highresImu _ => "HighresImu"
  | .opticalFlowRad _ => "OpticalFlowRad"
  | .distanceSensor _ => "DistanceSensor"
  | .autopilotVersion _ => "AutopilotVersion"
  | .homePosition _ => "HomePosition"
  | .extendedSysState _ => "ExtendedSysState"
  | .statustext _ => "Statustext"

/-! ## Messages a vehicle sends -/

structure CommandLong where
  Param1 : Float32 := 0
  Param2 : Float32 := 0
  Param3 : Float32 := 0
  Param4 : Float32 := 0
  Param5 : Float32 := 0
  Param6 : Float32 := 0
  Param7 : Float32 := 0
  Command : UInt16 := 0
  TargetSystem : UInt8 := 0
  TargetComponent : UInt8 := 0
  Confirmation : UInt8 := 0

def CommandLong.Pack (self : CommandLong) (p : Packet) : Packet :=
  { p with
    MsgID := 76
    Payload :=
      LittleEndian.PutUint32 self.Param1.toBits ++
      LittleEndian.PutUint32 self.Param2.toBits ++
      LittleEndian.PutUint32 self.Param3.toBits ++
      LittleEndian.PutUint32 self.Param4.toBits ++
      LittleEndian.PutUint32 self.Param5.toBits ++
      LittleEndian.PutUint32 self.Param6.toBits ++
      LittleEndian.PutUint32 self.Param7.toBits ++
      LittleEndian.PutUint16 self.Command ++
      [self.TargetSystem, self.TargetComponent, self.Confirmation] }

structure ParamSet where
  ParamValue : Float32 := 0
  TargetSystem : UInt8 := 0
  TargetComponent : UInt8 := 0
  ParamId : Vector UInt8 16 := Vector.replicate 16 0
  ParamType : UInt8 := 0

def ParamSet.Pack (self : ParamSet) (p : Packet) : Packet :=
  { p with
    MsgID := 23
    Payload :=
      LittleEndian.PutUint32 self.ParamValue.toBits ++
      [self.TargetSystem, self.TargetComponent] ++
      self.ParamId.toList ++ [self.ParamType] }

structure ParamRequestRead where
  ParamIndex : Int16 := 0
  TargetSystem : UInt8 := 0
  TargetComponent : UInt8 := 0
  ParamId : Vector UInt8 16 := Vector.replicate 16 0

def ParamRequestRead.Pack (self : ParamRequestRead) (p : Packet) : Packet :=
  { p with
    MsgID := 20
    Payload :=
      LittleEndian.PutUint16 self.ParamIndex.toUInt16 ++
      [self.TargetSystem, self.TargetComponent] ++ self.ParamId.toList }

structure ParamRequestList where
  TargetSystem : UInt8 := 0
  TargetComponent : UInt8 := 0

def ParamRequestList.Pack (self : ParamRequestList) (p : Packet) : Packet :=
  { p with
    MsgID := 21
    Payload := [self.TargetSystem, self.TargetComponent] }

structure RcChannelsOverride where
  Chan1Raw : UInt16 := 0
  Chan2Raw : UInt16 := 0
  Chan3Raw : UInt16 := 0
  Chan4Raw : UInt16 := 0
  Chan5Raw : UInt16 := 0
  Chan6Raw : UInt16 := 0
  Chan7Raw : UInt16 := 0
  Chan8Raw : UInt16 := 0
  TargetSystem : UInt8 := 0
  TargetComponent : UInt8 := 0

def RcChannelsOverride.Pack (self : RcChannelsOverride) (p : Packet) :
    Packet :=
  { p with
    MsgID := 70
    Payload :=
      LittleEndian.PutUint16 self.Chan1Raw ++
      LittleEndian.PutUint16 self.Chan2Raw ++
      LittleEndian.PutUint16 self.Chan3Raw ++
      LittleEndian.PutUint16 self.Chan4Raw ++
      LittleEndian.PutUint16 self.Chan5Raw ++
      LittleEndian.PutUint16 self.Chan6Raw ++
      LittleEndian.PutUint16 self.Chan7Raw ++
      LittleEndian.PutUint16 self.Chan8Raw ++
      [self.TargetSystem, self.TargetComponent] }

/-- `Encode`, given the `Pack` of its message; no `Pack` of a message fails. -/
def Encoder.Encode (enc : Encoder) (sysID compID : UInt8)
    (Pack : Packet → Packet) : Option Error × Encoder :=
  let p := Pack ⟨0, 0, 0, 0, [], 0⟩
  enc.EncodePacket { p with SysID := sysID, CompID := compID }

end DronesmithEngine.Mavlink
