import DronesmithEngine.Vehicle
import Mathlib.Tactic

/-!
# Packets that are too short

`processPacket` goes on after a failed `Unpack` with the message as it was
declared, which is zero.  Here reading a packet is separated from what its
message does to the vehicle, and the zero message of each type is compared
with the state it meets.
-/

namespace DronesmithEngine

open Go Mavlink Utils Api

/-! ## Reading a packet -/

def readMessage (p : Packet) : Option (Option UnpackError × Message) :=
  match p.MsgID with
  | MSG_ID_HEARTBEAT => some ((Heartbeat.Unpack {} p).map id .heartbeat)
  | MSG_ID_SYS_STATUS => some ((SysStatus.Unpack {} p).map id .sysStatus)
  | MSG_ID_GPS_RAW_INT => some ((GpsRawInt.Unpack {} p).map id .gpsRawInt)
  | MSG_ID_ATTITUDE => some ((Attitude.Unpack {} p).map id .attitude)
  | MSG_ID_LOCAL_POSITION_NED =>
      some ((LocalPositionNed.Unpack {} p).map id .localPositionNed)
  | MSG_ID_GLOBAL_POSITION_INT =>
      some ((GlobalPositionInt.Unpack {} p).map id .globalPositionInt)
  | MSG_ID_SERVO_OUTPUT_RAW =>
      some ((ServoOutputRaw.Unpack {} p).map id .servoOutputRaw)
  | MSG_ID_RC_CHANNELS => some ((RcChannels.Unpack {} p).map id .rcChannels)
  | MSG_ID_VFR_HUD => some ((VfrHud.Unpack {} p).map id .vfrHud)
  | MSG_ID_HIGHRES_IMU => some ((HighresImu.Unpack {} p).map id .highresImu)
  | MSG_ID_ATTITUDE_TARGET =>
      some ((AttitudeTarget.Unpack {} p).map id .attitudeTarget)
  | MSG_ID_POSITION_TARGET_LOCAL_NED =>
      some ((PositionTargetLocalNed.Unpack {} p).map id
        .positionTargetLocalNed)
  | MSG_ID_POSITION_TARGET_GLOBAL_INT =>
      some ((PositionTargetGlobalInt.Unpack {} p).map id
        .positionTargetGlobalInt)
  | MSG_ID_HOME_POSITION =>
      some ((HomePosition.Unpack {} p).map id .homePosition)
  | MSG_ID_EXTENDED_SYS_STATE =>
      some ((ExtendedSysState.Unpack {} p).map id .extendedSysState)
  | MSG_ID_DISTANCE_SENSOR =>
      some ((DistanceSensor.Unpack {} p).map id .distanceSensor)
  | MSG_ID_OPTICAL_FLOW_RAD =>
      some ((OpticalFlowRad.Unpack {} p).map id .opticalFlowRad)
  | MSG_ID_COMMAND_ACK => some ((CommandAck.Unpack {} p).map id .commandAck)
  | MSG_ID_AUTOPILOT_VERSION =>
      some ((AutopilotVersion.Unpack {} p).map id .autopilotVersion)
  | MSG_ID_PARAM_VALUE => some ((ParamValue.Unpack {} p).map id .paramValue)
  | MSG_ID_STATUSTEXT => some ((Statustext.Unpack {} p).map id .statustext)
  | _ => none

def TooShort (p : Packet) : Prop :=
  ∃ err m, readMessage p = some (some err, m)

/-- The bytes a message type needs; none for a type that is not read. -/
def payloadSize : UInt8 → ℕ
  | MSG_ID_HEARTBEAT => 9
  | MSG_ID_SYS_STATUS => 31
  | MSG_ID_GPS_RAW_INT => 30
  | MSG_ID_ATTITUDE => 28
  | MSG_ID_LOCAL_POSITION_NED => 28
  | MSG_ID_GLOBAL_POSITION_INT => 28
  | MSG_ID_SERVO_OUTPUT_RAW => 37
  | MSG_ID_RC_CHANNELS => 42
  | MSG_ID_VFR_HUD => 20
  | MSG_ID_HIGHRES_IMU => 62
  | MSG_ID_ATTITUDE_TARGET => 37
  | MSG_ID_POSITION_TARGET_LOCAL_NED => 51
  | MSG_ID_POSITION_TARGET_GLOBAL_INT => 51
  | MSG_ID_HOME_POSITION => 52
  | MSG_ID_EXTENDED_SYS_STATE => 2
  | MSG_ID_DISTANCE_SENSOR => 14
  | MSG_ID_OPTICAL_FLOW_RAD => 44
  | MSG_ID_COMMAND_ACK => 3
  | MSG_ID_AUTOPILOT_VERSION => 60
  | MSG_ID_PARAM_VALUE => 25
  | MSG_ID_STATUSTEXT => 51
  | _ => 0

def zeroMessage : UInt8 → Option Message
  | MSG_ID_HEARTBEAT => some (.heartbeat {})
  | MSG_ID_SYS_STATUS => some (.sysStatus {})
  | MSG_ID_GPS_RAW_INT => some (.gpsRawInt {})
  | MSG_ID_ATTITUDE => some (.attitude {})
  | MSG_ID_LOCAL_POSITION_NED => some (.localPositionNed {})
  | MSG_ID_GLOBAL_POSITION_INT => some (.globalPositionInt {})
  | MSG_ID_SERVO_OUTPUT_RAW => some (.servoOutputRaw {})
  | MSG_ID_RC_CHANNELS => some (.rcChannels {})
  | MSG_ID_VFR_HUD => some (.vfrHud {})
  | MSG_ID_HIGHRES_IMU => some (.highresImu {})
  | MSG_ID_ATTITUDE_TARGET => some (.attitudeTarget {})
  | MSG_ID_POSITION_TARGET_LOCAL_NED => some (.positionTargetLocalNed {})
  | MSG_ID_POSITION_TARGET_GLOBAL_INT => some (.positionTargetGlobalInt {})
  | MSG_ID_HOME_POSITION => some (.homePosition {})
  | MSG_ID_EXTENDED_SYS_STATE => some (.extendedSysState {})
  | MSG_ID_DISTANCE_SENSOR => some (.distanceSensor {})
  | MSG_ID_OPTICAL_FLOW_RAD => some (.opticalFlowRad {})
  | MSG_ID_COMMAND_ACK => some (.commandAck {})
  | MSG_ID_AUTOPILOT_VERSION => some (.autopilotVersion {})
  | MSG_ID_PARAM_VALUE => some (.paramValue {})
  | MSG_ID_STATUSTEXT => some (.statustext {})
  | _ => none

theorem unpack_short_iff {α : Type} {length size : ℕ} {zero m : α}
    {wrap : α → Message} :
    (∃ err m', some ((if length < size then
        (some UnpackError.payloadTooSmall, zero) else (none, m)).map id
          wrap) = some (some err, m')) ↔ length < size := by
  split
  next hshort =>
      exact iff_of_true ⟨.payloadTooSmall, wrap zero, rfl⟩ hshort
  next hlong => simp [hlong]

/-- A packet is too short exactly when its payload has fewer bytes than its
message type needs. -/
theorem tooShort_iff (p : Packet) :
    TooShort p ↔ p.Payload.length < payloadSize p.MsgID := by
  unfold TooShort readMessage payloadSize
  split
  case h_22 => simp
  all_goals exact unpack_short_iff

theorem unpack_short_eq {α : Type} {length size : ℕ} {zero m : α}
    {wrap : α → Message} (hshort : length < size) :
    some ((if length < size then
        (some UnpackError.payloadTooSmall, zero) else (none, m)).map id
          wrap) =
      (some (wrap zero)).map fun m => (some .payloadTooSmall, m) := by
  rw [if_pos hshort]
  rfl

theorem readMessage_of_short {p : Packet} (hshort : TooShort p) :
    readMessage p =
      (zeroMessage p.MsgID).map fun m => (some .payloadTooSmall, m) := by
  rw [tooShort_iff] at hshort
  unfold readMessage
  unfold payloadSize at hshort
  split at hshort
  case h_22 => exact absurd hshort (Nat.not_lt_zero _)
  all_goals
    next hid =>
      rw [hid]
      exact unpack_short_eq hshort

/-! ## What a message does -/

namespace Vehicle

def applyMessage (v : Vehicle) (now : Time) : Message → Vehicle
  | .heartbeat m => v.know (v.api.UpdateFromHeartbeat m now) (.heartbeat m)
  | .sysStatus m => v.know (v.api.UpdateFromStatus m now) (.sysStatus m)
  | .paramValue m => v.know (v.api.UpdateFromParam m now) (.paramValue m)
  | .gpsRawInt m =>
      (v.know (v.api.UpdateFromGps m now) (.gpsRawInt m)).UpdateSubSystem
        "GPS" now
  | .attitude m =>
      (v.know (v.api.UpdateFromAttitude m now) (.attitude m)).UpdateSubSystem
        "Estimator" now
  | .localPositionNed m =>
      (v.know (v.api.UpdateFromLocalPos m now)
        (.localPositionNed m)).UpdateSubSystem "Estimator" now
  | .globalPositionInt m =>
      (v.know (v.api.UpdateFromGlobalPos m now)
        (.globalPositionInt m)).UpdateSubSystem "Estimator" now
  | .servoOutputRaw m =>
      (v.know (v.api.UpdateFromMotors m now)
        (.servoOutputRaw m)).UpdateSubSystem "Motors" now
  | .rcChannels m =>
      (v.know (v.api.UpdateFromInput m now) (.rcChannels m)).UpdateSubSystem
        "RadioControl" now
  | .vfrHud m => v.know (v.api.UpdateFromVfr m now) (.vfrHud m)
  | .commandAck m =>
      (v.UpdateFromAck m).know (v.UpdateFromAck m).api (.commandAck m)
  | .attitudeTarget m =>
      (v.know (v.api.UpdateFromAttitudeTarget m now)
        (.attitudeTarget m)).UpdateSubSystem "Controller" now
  | .positionTargetLocalNed m =>
      (v.know (v.api.UpdateFromLocalTarget m now)
        (.positionTargetLocalNed m)).UpdateSubSystem "Controller" now
  | .positionTargetGlobalInt m =>
      (v.know (v.api.UpdateFromGlobalTarget m now)
        (.positionTargetGlobalInt m)).UpdateSubSystem "Controller" now
  | .highresImu m =>
      (v.know (v.api.UpdateFromSensors m now) (.highresImu m)).UpdateSubSystem
        "IMU" now
  | .opticalFlowRad m =>
      (v.know v.api (.opticalFlowRad m)).UpdateSubSystem "OpticalFlow" now
  | .distanceSensor m =>
      (v.know v.api (.distanceSensor m)).UpdateSubSystem "RangeFinder" now
  | .autopilotVersion m =>
      v.know (v.api.UpdateFromAutopilotVersion m now) (.autopilotVersion m)
  | .homePosition m => v.know (v.api.UpdateFromHome m now) (.homePosition m)
  | .extendedSysState m =>
      v.know (v.api.UpdateFromExtSys m now) (.extendedSysState m)
  | .statustext m =>
      { v.know v.api (.statustext m) with
        syslogQueue :=
          (v.syslogQueue.Prepend
            { Msg := m.Text.toList
              Time := now
              Level := m.Severity.toUInt64 }).2 }

/-- `processPacket` reads a packet and, whatever the error, does what its
message does. -/
theorem processPacket_eq (v : Vehicle) (p : Packet) (now : Time) :
    v.processPacket p now =
      match readMessage p with
      | some (_, m) => (v.adoptSystem p).applyMessage now m
      | none =>
          { v.adoptSystem p with
            unknownMsgs := (v.adoptSystem p).unknownMsgs.insert p.MsgID p } := by
  unfold processPacket
  split
  case h_22 =>
    have hnone : readMessage p = none := by
      unfold readMessage
      split
      case h_22 => rfl
      all_goals contradiction
    rw [hnone]
  all_goals
    next hid =>
      rw [readMessage, hid]
      rfl

theorem processPacket_of_short (v : Vehicle) {p : Packet} (now : Time)
    {m : Message} (hshort : TooShort p) (hm : zeroMessage p.MsgID = some m) :
    v.processPacket p now = (v.adoptSystem p).applyMessage now m := by
  rw [processPacket_eq, readMessage_of_short hshort, hm]
  rfl

theorem zeroMessage_of_short {p : Packet} (hshort : TooShort p) :
    ∃ m, zeroMessage p.MsgID = some m := by
  obtain ⟨err, m, hread⟩ := hshort
  rw [readMessage_of_short ⟨err, m, hread⟩, Option.map_eq_some_iff] at hread
  obtain ⟨zero, hzero, -⟩ := hread
  exact ⟨zero, hzero⟩

/-! ## Messages that change nothing -/

def Knows (v : Vehicle) (m : Message) : Prop :=
  v.knownMsgs.lookup m.MsgName = some m

theorem know_eq_iff {v : Vehicle} {api : VehicleApi} {m : Message} :
    v.know api m = v ↔ v.Knows m ∧ api = v.api := by
  simp [know, Vehicle.ext_iff, insert_eq_self_iff, Knows, and_comm]

end Vehicle

def SubSystemSeen (v : VehicleApi) (name : String) (now : Time) : Prop :=
  ∀ s ∈ v.subSystems.lookup name, s = ⟨now, true⟩

theorem UpdateSubSystem_eq_iff {api next : VehicleApi} {name : String}
    {now : Time} (hsame : next.subSystems = api.subSystems) :
    next.UpdateSubSystem name now = api ↔
      next = api ∧ SubSystemSeen api name now := by
  unfold VehicleApi.UpdateSubSystem SubSystemSeen
  rw [hsame]
  cases hlookup : api.subSystems.lookup name with
  | none => simp
  | some s =>
      simp only [Option.mem_some_iff, forall_eq']
      constructor
      · intro hnext
        have hinsert := congrArg VehicleApi.subSystems hnext
        rw [insert_eq_self_iff, hlookup, Option.some.injEq] at hinsert
        refine ⟨?_, hinsert⟩
        rw [← hnext, hinsert.symm, (insert_eq_self_iff _ _ _).mpr hlookup,
          ← hsame]
      · rintro ⟨rfl, rfl⟩
        rw [(insert_eq_self_iff _ _ _).mpr hlookup]

theorem know_seen_eq_iff {v : Vehicle} {api : VehicleApi} {m : Message}
    {name : String} {now : Time}
    (hsame : api.subSystems = v.api.subSystems) :
    (v.know api m).UpdateSubSystem name now = v ↔
      v.Knows m ∧ api = v.api ∧ SubSystemSeen v.api name now := by
  rw [← UpdateSubSystem_eq_iff hsame, ← Vehicle.know_eq_iff]
  rfl

/-! ### Scaling zero -/

theorem zero_div_1e7 : Float32.ofInt (Int32.toInt 0) / 1e7 = 0 := by
  decide

theorem zero_div_1000 : Float32.ofInt (Int32.toInt 0) / 1000 = 0 := by
  decide

theorem zero_div_100 : Float32.ofInt (UInt16.toNat 0) / 100 = 0 := by
  decide

theorem zero_mul_degrees : 0 * VehicleApi.degreesPerRadian = 0 := by
  decide

/-! ### Zero telemetry -/

namespace Api.VehicleApi

variable (v : VehicleApi) (now : Time)

theorem UpdateFromHeartbeat_zero_iff :
    v.UpdateFromHeartbeat {} now = v ↔
      (v.info.LastUpdate = now ∧ v.info.Type_ = "Generic Vehicle" ∧
        v.info.Firmware = "Generic Autopilot" ∧
        v.info.Protocol = "MAVLink v0") ∧
      (v.status.Online = true ∧ v.status.State = "Unknown" ∧
        v.status.Armed = false) ∧
      v.mode = "Unknown Flight Mode" := by
  have hmode : heartbeatMode 0 = "Unknown Flight Mode" := by decide
  have hprotocol : "MAVLink v" ++ toString (UInt8.toNat 0) =
      "MAVLink v0" := by decide
  have harmed : (heartbeatState 0 == "Active") = false := by decide
  simp only [VehicleApi.ext_iff, UpdateFromHeartbeat, Info.ext_iff,
    Status.ext_iff, hmode, hprotocol, harmed, and_true, true_and]
  constructor
  · rintro ⟨⟨htype, hfirmware, hproto, hnow, -⟩,
      ⟨honline, harm, hstate⟩, hmode⟩
    exact ⟨⟨hnow.symm, htype.symm, hfirmware.symm, hproto.symm⟩,
      ⟨honline.symm, hstate.symm, harm.symm⟩, hmode.symm⟩
  · rintro ⟨⟨hnow, htype, hfirmware, hproto⟩,
      ⟨honline, hstate, harm⟩, hmode⟩
    -- The vehicle was online, so the time it came online stays.
    refine ⟨⟨htype.symm, hfirmware.symm, hproto.symm, hnow.symm, ?_⟩,
      ⟨honline.symm, harm.symm, hstate.symm⟩, hmode.symm⟩
    rw [if_pos honline]

theorem UpdateFromStatus_zero_iff :
    v.UpdateFromStatus {} now = v ↔
      v.info.LastUpdate = now ∧ v.status.Power = 0 := by
  simp only [VehicleApi.ext_iff, UpdateFromStatus, updated, Info.ext_iff,
    Status.ext_iff, and_true, true_and]
  exact and_congr eq_comm eq_comm

theorem UpdateFromGps_zero_iff :
    v.UpdateFromGps {} now = v ↔
      v.info.LastUpdate = now ∧ v.gps = {} := by
  simp only [VehicleApi.ext_iff, UpdateFromGps, updated, Info.ext_iff,
    zero_div_1e7, zero_div_1000, and_true, true_and]
  exact and_congr eq_comm eq_comm

theorem UpdateFromAttitude_zero_iff :
    v.UpdateFromAttitude {} now = v ↔
      v.info.LastUpdate = now ∧ v.attitude = {} := by
  simp only [VehicleApi.ext_iff, UpdateFromAttitude, updated, Info.ext_iff,
    zero_mul_degrees, and_true, true_and]
  exact and_congr eq_comm eq_comm

theorem UpdateFromLocalPos_zero_iff :
    v.UpdateFromLocalPos {} now = v ↔
      v.info.LastUpdate = now ∧
        v.position.X = 0 ∧ v.position.Y = 0 ∧ v.position.Z = 0 := by
  simp only [VehicleApi.ext_iff, UpdateFromLocalPos, updated, Info.ext_iff,
    Position.ext_iff, and_true, true_and]
  exact and_congr eq_comm (and_congr eq_comm (and_congr eq_comm eq_comm))

theorem UpdateFromGlobalPos_zero_iff :
    v.UpdateFromGlobalPos {} now = v ↔
      v.info.LastUpdate = now ∧
        v.position.Latitude = 0 ∧ v.position.Longitude = 0 ∧
          v.position.Altitude = 0 ∧ v.position.Heading = 0 := by
  simp only [VehicleApi.ext_iff, UpdateFromGlobalPos, updated, Info.ext_iff,
    Position.ext_iff, zero_div_1e7, zero_div_1000, zero_div_100, and_true,
    true_and]
  exact and_congr eq_comm (and_congr eq_comm
    (and_congr eq_comm (and_congr eq_comm eq_comm)))

theorem UpdateFromMotors_zero_iff :
    v.UpdateFromMotors {} now = v ↔
      v.info.LastUpdate = now ∧ v.motors = Vector.replicate 8 0 := by
  simp only [VehicleApi.ext_iff, UpdateFromMotors, updated, Info.ext_iff,
    and_true, true_and]
  exact and_congr eq_comm eq_comm

theorem UpdateFromInput_zero_iff :
    v.UpdateFromInput {} now = v ↔
      v.info.LastUpdate = now ∧ v.input = { Type_ := "Radio Control" } := by
  simp only [VehicleApi.ext_iff, UpdateFromInput, updated, Info.ext_iff,
    and_true, true_and]
  exact and_congr eq_comm eq_comm

theorem UpdateFromVfr_zero_iff :
    v.UpdateFromVfr {} now = v ↔
      v.info.LastUpdate = now ∧ v.rates = {} := by
  simp only [VehicleApi.ext_iff, UpdateFromVfr, updated, Info.ext_iff,
    and_true, true_and]
  exact and_congr eq_comm eq_comm

theorem UpdateFromSensors_zero_iff :
    v.UpdateFromSensors {} now = v ↔
      v.info.LastUpdate = now ∧ v.sensors = {} := by
  simp only [VehicleApi.ext_iff, UpdateFromSensors, updated, Info.ext_iff,
    and_true, true_and]
  exact and_congr eq_comm eq_comm

theorem UpdateFromAttitudeTarget_zero_iff :
    v.UpdateFromAttitudeTarget {} now = v ↔
      v.info.LastUpdate = now ∧
        v.target.Attitude = Vector.replicate 4 0 ∧ v.target.Thrust = 0 := by
  simp only [VehicleApi.ext_iff, UpdateFromAttitudeTarget, updated,
    Info.ext_iff, Target.ext_iff, and_true, true_and]
  exact and_congr eq_comm (and_congr eq_comm eq_comm)

theorem UpdateFromLocalTarget_zero_iff :
    v.UpdateFromLocalTarget {} now = v ↔
      v.info.LastUpdate = now ∧
        v.target.X = 0 ∧ v.target.Y = 0 ∧ v.target.Z = 0 := by
  simp only [VehicleApi.ext_iff, UpdateFromLocalTarget, updated,
    Info.ext_iff, Target.ext_iff, and_true, true_and]
  exact and_congr eq_comm (and_congr eq_comm (and_congr eq_comm eq_comm))

theorem UpdateFromGlobalTarget_zero_iff :
    v.UpdateFromGlobalTarget {} now = v ↔
      v.info.LastUpdate = now ∧
        v.target.Latitude = 0 ∧ v.target.Longitude = 0 ∧
          v.target.Altitude = 0 := by
  simp only [VehicleApi.ext_iff, UpdateFromGlobalTarget, updated,
    Info.ext_iff, Target.ext_iff, zero_div_1e7, and_true, true_and]
  exact and_congr eq_comm (and_congr eq_comm (and_congr eq_comm eq_comm))

theorem UpdateFromHome_zero_iff :
    v.UpdateFromHome {} now = v ↔
      v.info.LastUpdate = now ∧ v.home = {} := by
  simp only [VehicleApi.ext_iff, UpdateFromHome, updated, Info.ext_iff,
    zero_div_1e7, zero_div_1000, and_true, true_and]
  exact and_congr eq_comm eq_comm

theorem UpdateFromExtSys_zero_iff :
    v.UpdateFromExtSys {} now = v ↔
      v.info.LastUpdate = now ∧
        v.status.VTOLMode = "Not a VTOL vehicle" ∧
          v.status.InAir = false := by
  simp only [VehicleApi.ext_iff, UpdateFromExtSys, updated, Info.ext_iff,
    Status.ext_iff, and_true, true_and]
  exact and_congr eq_comm (and_congr eq_comm eq_comm)

theorem UpdateFromAutopilotVersion_zero_iff :
    v.UpdateFromAutopilotVersion {} now = v ↔
      v.info.LastUpdate = now ∧ v.fmuId = 0 ∧ v.caps = 0 ∧
        v.fmuGit = "0.0.0-0" ∧ v.gotCaps = true := by
  simp only [VehicleApi.ext_iff, UpdateFromAutopilotVersion, updated,
    Info.ext_iff, and_true, true_and]
  exact and_congr eq_comm (and_congr eq_comm
    (and_congr eq_comm (and_congr eq_comm eq_comm)))

theorem UpdateFromParam_zero_iff :
    v.UpdateFromParam {} now = v ↔
      v.info.LastUpdate = now ∧ v.params.lookup [] = some ⟨0, 0, 0⟩ ∧
        v.totalParams = 0 ∧ v.paramsRequested = true := by
  have hname : paramName (Vector.replicate 16 0) = [] := by decide
  simp only [VehicleApi.ext_iff, UpdateFromParam, updated, Info.ext_iff,
    hname, insert_eq_self_iff, and_true, true_and]
  exact and_congr eq_comm (and_congr_right'
    (and_congr eq_comm eq_comm))

end Api.VehicleApi

namespace Vehicle

/-- The vehicle is already as the zero message of a type would leave it. -/
def HoldsZero (v : Vehicle) (now : Time) : UInt8 → Prop
  | MSG_ID_HEARTBEAT =>
      v.Knows (.heartbeat {}) ∧
        (v.api.info.LastUpdate = now ∧
          v.api.info.Type_ = "Generic Vehicle" ∧
          v.api.info.Firmware = "Generic Autopilot" ∧
          v.api.info.Protocol = "MAVLink v0") ∧
        (v.api.status.Online = true ∧ v.api.status.State = "Unknown" ∧
          v.api.status.Armed = false) ∧
        v.api.mode = "Unknown Flight Mode"
  | MSG_ID_SYS_STATUS =>
      v.Knows (.sysStatus {}) ∧
        v.api.info.LastUpdate = now ∧ v.api.status.Power = 0
  | MSG_ID_GPS_RAW_INT =>
      v.Knows (.gpsRawInt {}) ∧
        (v.api.info.LastUpdate = now ∧ v.api.gps = {}) ∧
          SubSystemSeen v.api "GPS" now
  | MSG_ID_ATTITUDE =>
      v.Knows (.attitude {}) ∧
        (v.api.info.LastUpdate = now ∧ v.api.attitude = {}) ∧
          SubSystemSeen v.api "Estimator" now
  | MSG_ID_LOCAL_POSITION_NED =>
      v.Knows (.localPositionNed {}) ∧
        (v.api.info.LastUpdate = now ∧
          v.api.position.X = 0 ∧ v.api.position.Y = 0 ∧
            v.api.position.Z = 0) ∧
          SubSystemSeen v.api "Estimator" now
  | MSG_ID_GLOBAL_POSITION_INT =>
      v.Knows (.globalPositionInt {}) ∧
        (v.api.info.LastUpdate = now ∧
          v.api.position.Latitude = 0 ∧ v.api.position.Longitude = 0 ∧
            v.api.position.Altitude = 0 ∧ v.api.position.Heading = 0) ∧
          SubSystemSeen v.api "Estimator" now
  | MSG_ID_SERVO_OUTPUT_RAW =>
      v.Knows (.servoOutputRaw {}) ∧
        (v.api.info.LastUpdate = now ∧
          v.api.motors = Vector.replicate 8 0) ∧
          SubSystemSeen v.api "Motors" now
  | MSG_ID_RC_CHANNELS =>
      v.Knows (.rcChannels {}) ∧
        (v.api.info.LastUpdate = now ∧
          v.api.input = { Type_ := "Radio Control" }) ∧
          SubSystemSeen v.api "RadioControl" now
  | MSG_ID_VFR_HUD =>
      v.Knows (.vfrHud {}) ∧
        v.api.info.LastUpdate = now ∧ v.api.rates = {}
  | MSG_ID_HIGHRES_IMU =>
      v.Knows (.highresImu {}) ∧
        (v.api.info.LastUpdate = now ∧ v.api.sensors = {}) ∧
          SubSystemSeen v.api "IMU" now
  | MSG_ID_ATTITUDE_TARGET =>
      v.Knows (.attitudeTarget {}) ∧
        (v.api.info.LastUpdate = now ∧
          v.api.target.Attitude = Vector.replicate 4 0 ∧
            v.api.target.Thrust = 0) ∧
          SubSystemSeen v.api "Controller" now
  | MSG_ID_POSITION_TARGET_LOCAL_NED =>
      v.Knows (.positionTargetLocalNed {}) ∧
        (v.api.info.LastUpdate = now ∧
          v.api.target.X = 0 ∧ v.api.target.Y = 0 ∧ v.api.target.Z = 0) ∧
          SubSystemSeen v.api "Controller" now
  | MSG_ID_POSITION_TARGET_GLOBAL_INT =>
      v.Knows (.positionTargetGlobalInt {}) ∧
        (v.api.info.LastUpdate = now ∧
          v.api.target.Latitude = 0 ∧ v.api.target.Longitude = 0 ∧
            v.api.target.Altitude = 0) ∧
          SubSystemSeen v.api "Controller" now
  | MSG_ID_HOME_POSITION =>
      v.Knows (.homePosition {}) ∧
        v.api.info.LastUpdate = now ∧ v.api.home = {}
  | MSG_ID_EXTENDED_SYS_STATE =>
      v.Knows (.extendedSysState {}) ∧
        v.api.info.LastUpdate = now ∧
          v.api.status.VTOLMode = "Not a VTOL vehicle" ∧
            v.api.status.InAir = false
  | MSG_ID_DISTANCE_SENSOR =>
      v.Knows (.distanceSensor {}) ∧ SubSystemSeen v.api "RangeFinder" now
  | MSG_ID_OPTICAL_FLOW_RAD =>
      v.Knows (.opticalFlowRad {}) ∧ SubSystemSeen v.api "OpticalFlow" now
  | MSG_ID_COMMAND_ACK =>
      v.Knows (.commandAck {}) ∧
        ∀ x ∈ v.commandQueue.Head, x.priority = 0 →
          (v.commands x.value).Status = MAV_RESULT_ACCEPTED
  | MSG_ID_AUTOPILOT_VERSION =>
      v.Knows (.autopilotVersion {}) ∧
        v.api.info.LastUpdate = now ∧ v.api.fmuId = 0 ∧ v.api.caps = 0 ∧
          v.api.fmuGit = "0.0.0-0" ∧ v.api.gotCaps = true
  | MSG_ID_PARAM_VALUE =>
      v.Knows (.paramValue {}) ∧
        v.api.info.LastUpdate = now ∧
          v.api.params.lookup [] = some ⟨0, 0, 0⟩ ∧
          v.api.totalParams = 0 ∧ v.api.paramsRequested = true
  | MSG_ID_STATUSTEXT =>
      v.Knows (.statustext {}) ∧ v.syslogQueue.Full
  | _ => True

theorem UpdateFromAck_zero_iff (v : Vehicle) :
    (v.UpdateFromAck {}).know (v.UpdateFromAck {}).api (.commandAck {}) =
        v ↔
      v.Knows (.commandAck {}) ∧
        ∀ x ∈ v.commandQueue.Head, x.priority = 0 →
          (v.commands x.value).Status = MAV_RESULT_ACCEPTED := by
  have hcommands : (v.UpdateFromAck {}).know (v.UpdateFromAck {}).api
      (.commandAck {}) = v ↔
        v.Knows (.commandAck {}) ∧
          (v.UpdateFromAck {}).commands = v.commands := by
    unfold UpdateFromAck
    split
    · simp only [know_eq_iff, and_true]
    · split
      · simp [know, setStatus, Vehicle.ext_iff, insert_eq_self_iff, Knows]
      · simp only [know_eq_iff, and_true]
  rw [hcommands]
  apply and_congr_right'
  unfold UpdateFromAck
  cases hhead : v.commandQueue.Head with
  | none => simp
  | some x =>
      simp only [Option.mem_some_iff, forall_eq',
        show ((UInt16.toNat 0 : ℕ) : ℤ) = 0 from rfl]
      by_cases hop : x.priority = 0
      · rw [if_pos hop]
        simp [setStatus, VehicleCommand.ext_iff, hop, eq_comm]
      · rw [if_neg hop]
        simp [hop]

theorem know_logged_eq_iff (v : Vehicle) {m : Message} {log : VehicleLog} :
    { v.know v.api m with
      syslogQueue := (v.syslogQueue.Prepend log).2 } = v ↔
        v.Knows m ∧ v.syslogQueue.Full := by
  rw [← v.syslogQueue.Prepend_eq_self_iff log]
  simp [know, Vehicle.ext_iff, insert_eq_self_iff, Knows]

theorem applyMessage_zero_iff (v : Vehicle) (now : Time) {id : UInt8}
    {m : Message} (hm : zeroMessage id = some m) :
    v.applyMessage now m = v ↔ v.HoldsZero now id := by
  unfold zeroMessage at hm
  split at hm <;> cases hm
  case h_1 =>
    rw [applyMessage, know_eq_iff, VehicleApi.UpdateFromHeartbeat_zero_iff]
    rfl
  case h_2 =>
    rw [applyMessage, know_eq_iff, VehicleApi.UpdateFromStatus_zero_iff]
    rfl
  case h_3 =>
    rw [applyMessage, know_seen_eq_iff,
      VehicleApi.UpdateFromGps_zero_iff]
    all_goals rfl
  case h_4 =>
    rw [applyMessage, know_seen_eq_iff,
      VehicleApi.UpdateFromAttitude_zero_iff]
    all_goals rfl
  case h_5 =>
    rw [applyMessage, know_seen_eq_iff,
      VehicleApi.UpdateFromLocalPos_zero_iff]
    all_goals rfl
  case h_6 =>
    rw [applyMessage, know_seen_eq_iff,
      VehicleApi.UpdateFromGlobalPos_zero_iff]
    all_goals rfl
  case h_7 =>
    rw [applyMessage, know_seen_eq_iff,
      VehicleApi.UpdateFromMotors_zero_iff]
    all_goals rfl
  case h_8 =>
    rw [applyMessage, know_seen_eq_iff,
      VehicleApi.UpdateFromInput_zero_iff]
    all_goals rfl
  case h_9 =>
    rw [applyMessage, know_eq_iff, VehicleApi.UpdateFromVfr_zero_iff]
    rfl
  case h_10 =>
    rw [applyMessage, know_seen_eq_iff,
      VehicleApi.UpdateFromSensors_zero_iff]
    all_goals rfl
  case h_11 =>
    rw [applyMessage, know_seen_eq_iff,
      VehicleApi.UpdateFromAttitudeTarget_zero_iff]
    all_goals rfl
  case h_12 =>
    rw [applyMessage, know_seen_eq_iff,
      VehicleApi.UpdateFromLocalTarget_zero_iff]
    all_goals rfl
  case h_13 =>
    rw [applyMessage, know_seen_eq_iff,
      VehicleApi.UpdateFromGlobalTarget_zero_iff]
    all_goals rfl
  case h_14 =>
    rw [applyMessage, know_eq_iff, VehicleApi.UpdateFromHome_zero_iff]
    rfl
  case h_15 =>
    rw [applyMessage, know_eq_iff, VehicleApi.UpdateFromExtSys_zero_iff]
    rfl
  case h_16 =>
    rw [applyMessage, know_seen_eq_iff, eq_self_iff_true, true_and]
    all_goals rfl
  case h_17 =>
    rw [applyMessage, know_seen_eq_iff, eq_self_iff_true, true_and]
    all_goals rfl
  case h_18 => exact v.UpdateFromAck_zero_iff
  case h_19 =>
    rw [applyMessage, know_eq_iff, VehicleApi.UpdateFromAutopilotVersion_zero_iff]
    rfl
  case h_20 =>
    rw [applyMessage, know_eq_iff, VehicleApi.UpdateFromParam_zero_iff]
    rfl
  case h_21 =>
    exact v.know_logged_eq_iff

theorem holdsZero_adoptSystem (v : Vehicle) (p : Packet) (now : Time)
    (id : UInt8) : (v.adoptSystem p).HoldsZero now id ↔ v.HoldsZero now id := by
  unfold adoptSystem
  split <;> rfl

/-- A packet that is too short leaves the vehicle as it was exactly when the
vehicle is already as the zero message of that type would leave it. -/
theorem processPacket_short_iff (v : Vehicle) (p : Packet) (now : Time)
    (hshort : TooShort p) :
    v.processPacket p now = v.adoptSystem p ↔ v.HoldsZero now p.MsgID := by
  obtain ⟨m, hm⟩ := zeroMessage_of_short hshort
  rw [v.processPacket_of_short now hshort hm,
    applyMessage_zero_iff _ now hm, holdsZero_adoptSystem]

/-- With no command queued, an acknowledgement without a payload that follows
on one adds nothing. -/
theorem processPacket_short_iff_second_ack :
    let v : Vehicle :=
      { NewVehicle (NewEncoder none) 0 with
        knownMsgs := Finmap.insert "CommandAck" (.commandAck {}) ∅ }
    let p : Packet := ⟨0, 0, 1, MSG_ID_COMMAND_ACK, [], 0⟩
    v.processPacket p 5 = v.adoptSystem p := by
  intro v p
  apply (processPacket_short_iff v p 5 ((tooShort_iff p).mpr (by decide))).mpr
  refine ⟨Finmap.lookup_insert _, ?_⟩
  intro x hx
  cases hx

theorem short_heartbeat_goes_online :
    ¬ ∀ (v : Vehicle) p now, TooShort p →
      v.processPacket p now = v.adoptSystem p := by
  intro hall
  let p : Packet := ⟨0, 0, 1, MSG_ID_HEARTBEAT, [], 0⟩
  have hsame := hall (NewVehicle (NewEncoder none) 0) p 5
    ((tooShort_iff p).mpr (by decide))
  have honline := congrArg (fun v => v.api.status.Online) hsame
  exact absurd honline (by decide)

end Vehicle

end DronesmithEngine
