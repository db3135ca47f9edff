import Mathlib.Data.Nat.Notation

/-!
# Enumerations

The constants of `mavlink/parser/common.go` that the vehicle code names.  They
are untyped in the source; each has the type it is compared at.
-/

namespace DronesmithEngine.Mavlink

@[match_pattern] abbrev MAV_TYPE_GENERIC : UInt8 := 0
@[match_pattern] abbrev MAV_TYPE_FIXED_WING : UInt8 := 1
@[match_pattern] abbrev MAV_TYPE_QUADROTOR : UInt8 := 2
@[match_pattern] abbrev MAV_TYPE_HEXAROTOR : UInt8 := 13
@[match_pattern] abbrev MAV_TYPE_OCTOROTOR : UInt8 := 14
@[match_pattern] abbrev MAV_TYPE_VTOL_DUOROTOR : UInt8 := 19
@[match_pattern] abbrev MAV_TYPE_VTOL_QUADROTOR : UInt8 := 20
@[match_pattern] abbrev MAV_TYPE_VTOL_TILTROTOR : UInt8 := 21

@[match_pattern] abbrev MAV_AUTOPILOT_GENERIC : UInt8 := 0
@[match_pattern] abbrev MAV_AUTOPILOT_SLUGS : UInt8 := 2
@[match_pattern] abbrev MAV_AUTOPILOT_ARDUPILOTMEGA : UInt8 := 3
@[match_pattern] abbrev MAV_AUTOPILOT_OPENPILOT : UInt8 := 4
@[match_pattern] abbrev MAV_AUTOPILOT_PPZ : UInt8 := 9
@[match_pattern] abbrev MAV_AUTOPILOT_FP : UInt8 := 11
@[match_pattern] abbrev MAV_AUTOPILOT_PX4 : UInt8 := 12
@[match_pattern] abbrev MAV_AUTOPILOT_SMACCMPILOT : UInt8 := 13
@[match_pattern] abbrev MAV_AUTOPILOT_AUTOQUAD : UInt8 := 14
@[match_pattern] abbrev MAV_AUTOPILOT_ARMAZILA : UInt8 := 15
@[match_pattern] abbrev MAV_AUTOPILOT_AEROB : UInt8 := 16
@[match_pattern] abbrev MAV_AUTOPILOT_ASLUAV : UInt8 := 17

@[match_pattern] abbrev MAV_STATE_UNINIT : UInt8 := 0
@[match_pattern] abbrev MAV_STATE_BOOT : UInt8 := 1
@[match_pattern] abbrev MAV_STATE_CALIBRATING : UInt8 := 2
@[match_pattern] abbrev MAV_STATE_STANDBY : UInt8 := 3
@[match_pattern] abbrev MAV_STATE_ACTIVE : UInt8 := 4
@[match_pattern] abbrev MAV_STATE_CRITICAL : UInt8 := 5
@[match_pattern] abbrev MAV_STATE_EMERGENCY : UInt8 := 6
@[match_pattern] abbrev MAV_STATE_POWEROFF : UInt8 := 7

@[match_pattern] abbrev MAV_VTOL_STATE_UNDEFINED : UInt8 := 0
@[match_pattern] abbrev MAV_VTOL_STATE_TRANSITION_TO_FW : UInt8 := 1
@[match_pattern] abbrev MAV_VTOL_STATE_TRANSITION_TO_MC : UInt8 := 2
@[match_pattern] abbrev MAV_VTOL_STATE_MC : UInt8 := 3
@[match_pattern] abbrev MAV_VTOL_STATE_FW : UInt8 := 4

@[match_pattern] abbrev MAV_LANDED_STATE_UNDEFINED : UInt8 := 0
@[match_pattern] abbrev MAV_LANDED_STATE_ON_GROUND : UInt8 := 1
@[match_pattern] abbrev MAV_LANDED_STATE_IN_AIR : UInt8 := 2

/-! The results of a command, as the `uint` a command's status holds. -/

@[match_pattern] abbrev MAV_RESULT_ACCEPTED : ℕ := 0
@[match_pattern] abbrev MAV_RESULT_TEMPORARILY_REJECTED : ℕ := 1
@[match_pattern] abbrev MAV_RESULT_DENIED : ℕ := 2
@[match_pattern] abbrev MAV_RESULT_UNSUPPORTED : ℕ := 3
@[match_pattern] abbrev MAV_RESULT_FAILED : ℕ := 4

abbrev MAV_MODE_FLAG_CUSTOM_MODE_ENABLED : ℕ := 1
abbrev MAV_MODE_FLAG_AUTO_ENABLED : ℕ := 4
abbrev MAV_MODE_FLAG_GUIDED_ENABLED : ℕ := 8
abbrev MAV_MODE_FLAG_STABILIZE_ENABLED : ℕ := 16
abbrev MAV_MODE_FLAG_MANUAL_INPUT_ENABLED : ℕ := 64
abbrev MAV_MODE_FLAG_SAFETY_ARMED : ℕ := 128

abbrev MAV_CMD_DO_SET_MODE : UInt16 := 176
abbrev MAV_CMD_DO_SET_HOME : UInt16 := 179
abbrev MAV_CMD_REQUEST_AUTOPILOT_CAPABILITIES : UInt16 := 520

@[match_pattern] abbrev MSG_ID_HEARTBEAT : UInt8 := 0
@[match_pattern] abbrev MSG_ID_SYS_STATUS : UInt8 := 1
@[match_pattern] abbrev MSG_ID_PARAM_VALUE : UInt8 := 22
@[match_pattern] abbrev MSG_ID_GPS_RAW_INT : UInt8 := 24
@[match_pattern] abbrev MSG_ID_ATTITUDE : UInt8 := 30
@[match_pattern] abbrev MSG_ID_LOCAL_POSITION_NED : UInt8 := 32
@[match_pattern] abbrev MSG_ID_GLOBAL_POSITION_INT : UInt8 := 33
@[match_pattern] abbrev MSG_ID_SERVO_OUTPUT_RAW : UInt8 := 36
@[match_pattern] abbrev MSG_ID_MISSION_COUNT : UInt8 := 44
@[match_pattern] abbrev MSG_ID_MISSION_ACK : UInt8 := 47
@[match_pattern] abbrev MSG_ID_RC_CHANNELS : UInt8 := 65
@[match_pattern] abbrev MSG_ID_VFR_HUD : UInt8 := 74
@[match_pattern] abbrev MSG_ID_COMMAND_ACK : UInt8 := 77
@[match_pattern] abbrev MSG_ID_ATTITUDE_TARGET : UInt8 := 83
@[match_pattern] abbrev MSG_ID_POSITION_TARGET_LOCAL_NED : UInt8 := 85
@[match_pattern] abbrev MSG_ID_POSITION_TARGET_GLOBAL_INT : UInt8 := 87
@[match_pattern] abbrev MSG_ID_HIGHRES_IMU : UInt8 := 105
@[match_pattern] abbrev MSG_ID_OPTICAL_FLOW_RAD : UInt8 := 106
@[match_pattern] abbrev MSG_ID_DISTANCE_SENSOR : UInt8 := 132
@[match_pattern] abbrev MSG_ID_AUTOPILOT_VERSION : UInt8 := 148
@[match_pattern] abbrev MSG_ID_HOME_POSITION : UInt8 := 242
@[match_pattern] abbrev MSG_ID_EXTENDED_SYS_STATE : UInt8 := 245
@[match_pattern] abbrev MSG_ID_STATUSTEXT : UInt8 := 253

end DronesmithEngine.Mavlink
