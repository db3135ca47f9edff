import DronesmithEngine.ApiRouting
import DronesmithEngine.FlightModes
import DronesmithEngine.VehicleEvents
import Mathlib.Tactic

/-!
# The telemetry of a vehicle

What each message says of the vehicle is given first, in the units of the
records.  The telemetry is overwritten piece by piece, and never cleared:
after any history each piece is what the last message about it says.  A
request for a record gets it as JSON, unless a number in it has no JSON: then
the answer has begun with status 200 and goes on with the text of the
recovered panic.
-/

namespace DronesmithEngine

open Go Mavlink Utils Api EventHistories

/-- The telemetry that messages decide on their own, without the clock. -/
@[ext] structure Telemetry where
  Type_ : String := ""
  Firmware : String := ""
  Protocol : String := ""
  Armed : Bool := false
  State : String := ""
  VTOLMode : String := ""
  InAir : Bool := false
  Power : UInt64 := 0
  mode : String := ""
  gps : Gps := {}
  attitude : Api.Attitude := {}
  position : Position := {}
  motors : Vector UInt16 8 := Vector.replicate 8 0
  input : Input := {}
  rates : Rate := {}
  target : Target := {}
  sensors : Sensors := {}
  home : Home := {}

namespace Api.VehicleApi

def telemetry (v : VehicleApi) : Telemetry where
  Type_ := v.info.Type_
  Firmware := v.info.Firmware
  Protocol := v.info.Protocol
  Armed := v.status.Armed
  State := v.status.State
  VTOLMode := v.status.VTOLMode
  InAir := v.status.InAir
  Power := v.status.Power
  mode := v.mode
  gps := v.gps
  attitude := v.attitude
  position := v.position
  motors := v.motors
  input := v.input
  rates := v.rates
  target := v.target
  sensors := v.sensors
  home := v.home

end Api.VehicleApi

namespace Telemetry

/-! ## What a message says -/

/-- The text for a value of an enumeration, where the rest have another. -/
def text (table : List (UInt8 × String)) (other : String) (x : UInt8) :
    String :=
  (table.lookup x).getD other

def types : List (UInt8 × String) :=
  [(0, "Generic Vehicle"), (1, "Fixed Wing"), (2, "Quadrotor"),
    (13, "Hexarotor"), (14, "Octorotor"), (19, "VTOL Tailsitter"),
    (20, "VTOL Tailsitter"), (21, "VTOL Tiltrotor")]

def firmwares : List (UInt8 × String) :=
  [(0, "Generic Autopilot"), (2, "SLUGS"), (3, "APM"), (4, "OpenPilot"),
    (9, "Paparazzi UAV"), (11, "FlexiPilot"), (12, "PX4"),
    (13, "SMACCMPilot"), (14, "AutoQuad"), (15, "Armazila"), (16, "Aerob"),
    (17, "ASLUAV")]

def states : List (UInt8 × String) :=
  [(0, "Unknown"), (1, "Initializing"), (2, "Calibrating"), (3, "Standby"),
    (4, "Active"), (5, "Failsafe"), (6, "Mayday"), (7, "Powering Down")]

def vtolModes : List (UInt8 × String) :=
  [(0, "Not a VTOL vehicle"), (1, "Transition to Fixed Wing"),
    (2, "Transition to Multirotor"), (3, "Multirotor"), (4, "Fixed Wing")]

/-- From units of 10⁻⁷ degrees. -/
def degrees (x : Int32) : Float32 := Float32.ofInt x.toInt / 1e7

/-- From millimetres. -/
def metres (x : Int32) : Float32 := Float32.ofInt x.toInt / 1000

/-- What a message says on its own; other types say nothing. -/
def told : Message → Telemetry
  | .heartbeat m =>
      { Type_ := text types "Generic Vehicle" m.Type_
        Firmware := text firmwares "Generic Autopilot" m.Autopilot
        Protocol := "MAVLink v" ++ toString m.MavlinkVersion.toNat
        Armed := m.SystemStatus == 4
        State := text states "Unknown" m.SystemStatus
        mode :=
          FlightMode.label
            (FlightMode.decoded (mainMode m.CustomMode)
              (subMode m.CustomMode)) }
  | .sysStatus m => { Power := m.BatteryRemaining.toInt64.toUInt64 }
  | .gpsRawInt m =>
      { gps :=
          { Satellites := m.SatellitesVisible.toUInt64
            Latitude := degrees m.Lat
            Longitude := degrees m.Lon
            Altitude := metres m.Alt } }
  | .attitude m =>
      { attitude :=
          { Roll := m.Roll * VehicleApi.degreesPerRadian
            Pitch := m.Pitch * VehicleApi.degreesPerRadian
            Yaw := m.Yaw * VehicleApi.degreesPerRadian } }
  | .localPositionNed m => { position := { X := m.X, Y := m.Y, Z := m.Z } }
  | .globalPositionInt m =>
      { position :=
          { Latitude := degrees m.Lat
            Longitude := degrees m.Lon
            Altitude := metres m.RelativeAlt
            -- From hundredths of a degree.
            Heading := Float32.ofInt m.Hdg.toNat / 100 } }
  | .servoOutputRaw m =>
      { motors :=
          Vector.ofFn
            [m.Servo1Raw, m.Servo2Raw, m.Servo3Raw, m.Servo4Raw, m.Servo5Raw,
              m.Servo6Raw, m.Servo7Raw, m.Servo8Raw].get }
  | .rcChannels m =>
      { input :=
          { Channels :=
              Vector.ofFn
                [m.Chan1Raw, m.Chan2Raw, m.Chan3Raw, m.Chan4Raw, m.Chan5Raw,
                  m.Chan6Raw, m.Chan7Raw, m.Chan8Raw, m.Chan9Raw,
                  m.Chan10Raw, m.Chan11Raw, m.Chan12Raw, m.Chan13Raw,
                  m.Chan14Raw, m.Chan15Raw, m.Chan16Raw, m.Chan17Raw,
                  m.Chan18Raw].get
            Signal := m.Rssi.toUInt64
            Type_ := "Radio Control" } }
  | .vfrHud m =>
      { rates :=
          { Airspeed := m.Airspeed
            Groundspeed := m.Groundspeed
            Throttle := m.Throttle.toUInt64
            Climb := m.Climb } }
  | .highresImu m =>
      { sensors :=
          { AccX := m.Xacc
            AccY := m.Yacc
            AccZ := m.Zacc
            GyroX := m.Xgyro
            GyroY := m.Ygyro
            GyroZ := m.Zgyro
            MagX := m.Xmag
            MagY := m.Ymag
            MagZ := m.Zmag
            Baro := m.PressureAlt
            Temp := m.Temperature } }
  | .attitudeTarget m => { target := { Attitude := m.Q, Thrust := m.Thrust } }
  | .positionTargetLocalNed m =>
      { target := { X := m.X, Y := m.Y, Z := m.Z } }
  | .positionTargetGlobalInt m =>
      { target :=
          { Latitude := degrees m.LatInt
            Longitude := degrees m.LonInt
            Altitude := m.Alt } }
  | .homePosition m =>
      { home :=
          { X := m.X
            Y := m.Y
            Z := m.Z
            Latitude := degrees m.Latitude
            Longitude := degrees m.Longitude
            Altitude := metres m.Altitude } }
  | .extendedSysState m =>
      { VTOLMode := text vtolModes "Not a VTOL vehicle" m.VtolState
        InAir := m.LandedState == 2 }
  | _ => {}

theorem text_of_ne {table : List (UInt8 × String)} {x : UInt8}
    (hx : ∀ y ∈ table.map Prod.fst, ¬ x = y) (other : String) :
    text table other x = other := by
  have hnone : table.lookup x = none := by
    rw [List.lookup_eq_none_iff]
    intro entry hentry
    simpa using hx entry.1 (List.mem_map_of_mem hentry)
  rw [text, hnone, Option.getD_none]

theorem heartbeatType_eq (x : UInt8) :
    VehicleApi.heartbeatType x = text types "Generic Vehicle" x := by
  unfold VehicleApi.heartbeatType
  split
  case h_9 =>
    refine (text_of_ne ?_ _).symm
    simp_all [types]
  all_goals rfl

theorem heartbeatFirmware_eq (x : UInt8) :
    VehicleApi.heartbeatFirmware x =
      text firmwares "Generic Autopilot" x := by
  unfold VehicleApi.heartbeatFirmware
  split
  case h_13 =>
    refine (text_of_ne ?_ _).symm
    simp_all [firmwares]
  all_goals rfl

theorem heartbeatState_eq (x : UInt8) :
    VehicleApi.heartbeatState x = text states "Unknown" x := by
  unfold VehicleApi.heartbeatState
  split
  case h_9 =>
    refine (text_of_ne ?_ _).symm
    simp_all [states]
  all_goals rfl

/-- No other state is called active. -/
theorem heartbeatState_active (x : UInt8) :
    (VehicleApi.heartbeatState x == "Active") = (x == 4) := by
  unfold VehicleApi.heartbeatState
  split
  case h_9 => simp_all
  all_goals rfl

theorem vtolMode_eq (x : UInt8) :
    VehicleApi.vtolMode x = text vtolModes "Not a VTOL vehicle" x := by
  unfold VehicleApi.vtolMode
  split
  case h_6 =>
    refine (text_of_ne ?_ _).symm
    simp_all [vtolModes]
  all_goals rfl

theorem told_motors (m : ServoOutputRaw) :
    (told (.servoOutputRaw m)).motors =
      (VehicleApi.UpdateFromMotors {} m 0).motors := by
  ext i hi
  simp only [told, Vector.getElem_ofFn]
  interval_cases i <;> rfl

theorem told_input (m : RcChannels) :
    (told (.rcChannels m)).input =
      (VehicleApi.UpdateFromInput {} m 0).input := by
  refine Input.ext ?_ rfl rfl
  ext i hi
  simp only [told, Vector.getElem_ofFn]
  interval_cases i <;> rfl

theorem landedInAir_eq (x : UInt8) :
    VehicleApi.landedInAir x = (x == 2) := by
  unfold VehicleApi.landedInAir
  split
  case h_4 => simp_all
  all_goals rfl

/-! ## The last messages -/

/-- The telemetry of the last message of each type: a piece of it is what the
message about that piece says. -/
def ofLatest (latest : String → Option Message) : Telemetry :=
  let last (name : String) : Telemetry :=
    ((latest name).map told).getD {}
  { Type_ := (last "Heartbeat").Type_
    Firmware := (last "Heartbeat").Firmware
    Protocol := (last "Heartbeat").Protocol
    Armed := (last "Heartbeat").Armed
    State := (last "Heartbeat").State
    VTOLMode := (last "ExtendedSysState").VTOLMode
    InAir := (last "ExtendedSysState").InAir
    Power := (last "SysStatus").Power
    mode := (last "Heartbeat").mode
    gps := (last "GpsRawInt").gps
    attitude := (last "Attitude").attitude
    position :=
      { X := (last "LocalPositionNed").position.X
        Y := (last "LocalPositionNed").position.Y
        Z := (last "LocalPositionNed").position.Z
        Latitude := (last "GlobalPositionInt").position.Latitude
        Longitude := (last "GlobalPositionInt").position.Longitude
        Altitude := (last "GlobalPositionInt").position.Altitude
        Heading := (last "GlobalPositionInt").position.Heading }
    motors := (last "ServoOutputRaw").motors
    input := (last "RcChannels").input
    rates := (last "VfrHud").rates
    target :=
      { Attitude := (last "AttitudeTarget").target.Attitude
        Thrust := (last "AttitudeTarget").target.Thrust
        X := (last "PositionTargetLocalNed").target.X
        Y := (last "PositionTargetLocalNed").target.Y
        Z := (last "PositionTargetLocalNed").target.Z
        Latitude := (last "PositionTargetGlobalInt").target.Latitude
        Longitude := (last "PositionTargetGlobalInt").target.Longitude
        Altitude := (last "PositionTargetGlobalInt").target.Altitude }
    sensors := (last "HighresImu").sensors
    home := (last "HomePosition").home }

/-- A message overwrites the pieces it is about. -/
def receive (t : Telemetry) (m : Message) : Telemetry :=
  let s := told m
  match m with
  | .heartbeat _ =>
      { t with
        Type_ := s.Type_
        Firmware := s.Firmware
        Protocol := s.Protocol
        Armed := s.Armed
        State := s.State
        mode := s.mode }
  | .sysStatus _ => { t with Power := s.Power }
  | .gpsRawInt _ => { t with gps := s.gps }
  | .attitude _ => { t with attitude := s.attitude }
  | .localPositionNed _ =>
      { t with
        position :=
          { t.position with
            X := s.position.X
            Y := s.position.Y
            Z := s.position.Z } }
  | .globalPositionInt _ =>
      { t with
        position :=
          { t.position with
            Latitude := s.position.Latitude
            Longitude := s.position.Longitude
            Altitude := s.position.Altitude
            Heading := s.position.Heading } }
  | .servoOutputRaw _ => { t with motors := s.motors }
  | .rcChannels _ => { t with input := s.input }
  | .vfrHud _ => { t with rates := s.rates }
  | .highresImu _ => { t with sensors := s.sensors }
  | .attitudeTarget _ =>
      { t with
        target :=
          { t.target with
            Attitude := s.target.Attitude
            Thrust := s.target.Thrust } }
  | .positionTargetLocalNed _ =>
      { t with
        target :=
          { t.target with
            X := s.target.X
            Y := s.target.Y
            Z := s.target.Z } }
  | .positionTargetGlobalInt _ =>
      { t with
        target :=
          { t.target with
            Latitude := s.target.Latitude
            Longitude := s.target.Longitude
            Altitude := s.target.Altitude } }
  | .homePosition _ => { t with home := s.home }
  | .extendedSysState _ =>
      { t with VTOLMode := s.VTOLMode, InAir := s.InAir }
  | _ => t

theorem ofLatest_update (latest : String → Option Message) (m : Message) :
    ofLatest (Function.update latest m.MsgName (some m)) =
      (ofLatest latest).receive m := by
  cases m <;> simp [ofLatest, receive, Message.MsgName, Function.update]

end Telemetry

/-! ## What an event does to the messages and the telemetry -/

def Observed.telemetry (o : Observed) : Telemetry where
  Type_ := o.info.Type_
  Firmware := o.info.Firmware
  Protocol := o.info.Protocol
  Armed := o.status.Armed
  State := o.status.State
  VTOLMode := o.status.VTOLMode
  InAir := o.status.InAir
  Power := o.status.Power
  mode := o.mode
  gps := o.gps
  attitude := o.attitude
  position := o.position
  motors := o.motors
  input := o.input
  rates := o.rates
  target := o.target
  sensors := o.sensors
  home := o.home

@[simp] theorem Api.VehicleApi.telemetry_UpdateSubSystem (v : VehicleApi)
    (name : String) (now : Time) :
    (v.UpdateSubSystem name now).telemetry = v.telemetry := by
  unfold UpdateSubSystem
  cases v.subSystems.lookup name with
  | none => rfl
  | some _ => rfl

@[simp] theorem Api.VehicleApi.telemetry_CheckSysOnline (v : VehicleApi)
    (now : Time) : (v.CheckSysOnline now).telemetry = v.telemetry := by
  unfold CheckSysOnline
  split <;> rfl

@[simp] theorem Api.VehicleApi.telemetry_CheckSubSystem (v : VehicleApi)
    (name : String) (now : Time) :
    (v.CheckSubSystem name now).telemetry = v.telemetry := by
  unfold CheckSubSystem
  split
  · rfl
  · split <;> rfl

theorem Vehicle.telemetry_applyMessage (v : Vehicle) (now : Time)
    (m : Message) :
    (v.applyMessage now m).api.telemetry = v.api.telemetry.receive m := by
  cases m with
  | commandAck m =>
      simp only [applyMessage, know, UpdateFromAck_api]
      rfl
  | heartbeat m =>
      simp only [Telemetry.receive, Telemetry.told,
        ← Telemetry.heartbeatType_eq, ← Telemetry.heartbeatFirmware_eq,
        ← Telemetry.heartbeatState_eq, ← Telemetry.heartbeatState_active,
        ← heartbeatMode_eq]
      rfl
  | sysStatus m => rfl
  | paramValue m => rfl
  | vfrHud m => rfl
  | autopilotVersion m => rfl
  | homePosition m => rfl
  | extendedSysState m =>
      simp only [Telemetry.receive, Telemetry.told, ← Telemetry.vtolMode_eq,
        ← Telemetry.landedInAir_eq]
      rfl
  | statustext m => rfl
  | servoOutputRaw m =>
      simp only [Telemetry.receive, Telemetry.told_motors]
      exact VehicleApi.telemetry_UpdateSubSystem _ _ _
  | rcChannels m =>
      simp only [Telemetry.receive, Telemetry.told_input]
      exact VehicleApi.telemetry_UpdateSubSystem _ _ _
  | _ => exact VehicleApi.telemetry_UpdateSubSystem _ _ _

@[simp] theorem Vehicle.applyMessage_knownMsgs (v : Vehicle) (now : Time)
    (m : Message) :
    (v.applyMessage now m).knownMsgs = v.knownMsgs.insert m.MsgName m := by
  cases m with
  | commandAck m =>
      exact congrArg
        (fun o => o.knownMsgs.insert "CommandAck" (Message.commandAck m))
        (v.observed_UpdateFromAck m)
  | _ => rfl

/-- The message that an event brings. -/
def received : Time × VehicleEvent → Option Message
  | (_, .init (.packet p)) => wholeMessage p
  | _ => none

/-- The message of a given name that an event brings. -/
def receivedAs (name : String) (event : Time × VehicleEvent) :
    Option Message :=
  (received event).filter fun m => m.MsgName = name

namespace InitVehicle

/-- The telemetry and the known messages change with a message only. -/
theorem happen_of_received (v : InitVehicle)
    (event : Time × VehicleEvent) :
    (v.happen event).api.telemetry =
        (received event).elim v.api.telemetry v.api.telemetry.receive ∧
      (v.happen event).vehicle.knownMsgs =
        (received event).elim v.vehicle.knownMsgs
          fun m => v.vehicle.knownMsgs.insert m.MsgName m := by
  obtain ⟨now, event⟩ := event
  by_cases hinternal : event.Internal
  · have hsame := v.observed_happen_of_internal now hinternal
    have hnone : received (now, event) = none := by
      unfold received
      split
      next heq =>
        cases heq
        exact hinternal.elim
      next => rfl
    rw [hnone]
    exact ⟨congrArg Observed.telemetry hsame,
      congrArg Observed.knownMsgs hsame⟩
  · cases event with
    | init event =>
        cases event with
        | packet p =>
            have hadopt := v.vehicle.observed_adoptSystem p
            have htelemetry : (v.vehicle.adoptSystem p).api.telemetry =
                v.api.telemetry := congrArg Observed.telemetry hadopt
            have hknown : (v.vehicle.adoptSystem p).knownMsgs =
                v.vehicle.knownMsgs := congrArg Observed.knownMsgs hadopt
            rw [(v.happen_packet now p).1, (v.happen_packet now p).2, received]
            cases wholeMessage p with
            | none => exact ⟨htelemetry, hknown⟩
            | some m =>
                simp only [Option.elim_some, Vehicle.telemetry_applyMessage,
                  Vehicle.applyMessage_knownMsgs, htelemetry, hknown,
                  and_self]
        | checkSysOnline =>
            exact ⟨v.api.telemetry_CheckSysOnline now, rfl⟩
        | _ => exact absurd trivial hinternal
    | checkSubSystem name =>
        exact ⟨v.api.telemetry_CheckSubSystem name now, rfl⟩
    | _ => exact absurd trivial hinternal

variable (writer : Encoder) (start : Time)
  (events : List (Time × VehicleEvent))

/-- The known message of a name is the last one that came. -/
theorem knownMsgs_after (name : String) :
    (after writer start events).vehicle.knownMsgs.lookup name =
      lastWrite (receivedAs name) events := by
  have hview (v : InitVehicle) (event : Time × VehicleEvent) :
      (v.happen event).vehicle.knownMsgs.lookup name =
        (receivedAs name event).or (v.vehicle.knownMsgs.lookup name) := by
    rw [(v.happen_of_received event).2, receivedAs]
    cases received event with
    | none => rfl
    | some m =>
        by_cases hname : m.MsgName = name
        · subst hname
          simp [Option.filter]
        · simp [Option.filter, hname,
            Finmap.lookup_insert_of_ne _ (Ne.symm hname)]
  have hlast := view_of_overwrites
    (fun v : InitVehicle => v.vehicle.knownMsgs.lookup name) hview
    (NewVehicle writer start) events
  exact hlast.trans Option.or_none

theorem telemetry_eq_ofLatest :
    (after writer start events).api.telemetry =
      Telemetry.ofLatest
        fun name =>
          (after writer start events).vehicle.knownMsgs.lookup name := by
  unfold after
  -- The pieces are rendered anew where a message is stored.
  refine List.foldlRecOn
    (motive := fun v : InitVehicle =>
      v.api.telemetry =
        Telemetry.ofLatest fun name => v.vehicle.knownMsgs.lookup name)
    events happen rfl fun v hv event _ => ?_
  obtain ⟨htelemetry, hknown⟩ := v.happen_of_received event
  rw [htelemetry, hknown, hv]
  cases received event with
  | none => rfl
  | some m =>
      rw [Option.elim_some, Option.elim_some, ← Telemetry.ofLatest_update]
      congr 1
      funext name
      by_cases hname : name = m.MsgName
      · subst hname
        simp
      · simp [hname, Finmap.lookup_insert_of_ne _ hname]

end InitVehicle

/-! ## Requests for telemetry -/

namespace Apiservice

open Api.VehicleApi

inductive TelemBody
  | json (val : TelemValue)
  | error (s : String)
  | text (s : String)

/-- What the deferred function of `ServeHTTP` writes after a panic. -/
def recovered : TelemBody :=
  .text
    "I couldn't parse your request. Make sure you are formating your JSON properly, including types.\n"

structure ResponseWriter where
  code : Option ℕ := none
  body : List TelemBody := []

namespace ResponseWriter

/-- The first status is the one that is sent; a later call is superfluous. -/
def WriteHeader (w : ResponseWriter) (code : ℕ) : ResponseWriter :=
  { w with code := w.code.or (some code) }

def Write (w : ResponseWriter) (data : TelemBody) : ResponseWriter :=
  { w.WriteHeader 200 with body := w.body ++ [data] }

end ResponseWriter

/-- The floating-point numbers of a record. -/
def floats : TelemValue → List Float32
  | .Info _ => []
  | .Status _ => []
  | .Mode _ => []
  | .Gps val => [val.Latitude, val.Longitude, val.Altitude]
  | .Attitude val => [val.Roll, val.Pitch, val.Yaw]
  | .Position val =>
      [val.X, val.Y, val.Z, val.Latitude, val.Longitude, val.Altitude,
        val.Heading]
  | .Motors _ => []
  | .Input _ => []
  | .Rates val => [val.Airspeed, val.Groundspeed, val.Climb]
  | .Target val =>
      val.Attitude.toList ++
        [val.Thrust, val.X, val.Y, val.Z, val.Latitude, val.Longitude,
          val.Altitude]
  | .Sensors val =>
      [val.AccX, val.AccY, val.AccZ, val.GyroX, val.GyroY, val.GyroZ,
        val.MagX, val.MagY, val.MagZ, val.Baro, val.Temp]
  | .Home val =>
      [val.X, val.Y, val.Z, val.Latitude, val.Longitude, val.Altitude]

/-- The record has no number that is NaN or infinite, for which there is no
JSON.  The times of `Info` are taken to have some, up to the year 9999. -/
def HasJSON (val : TelemValue) : Prop := ∀ x ∈ floats val, x.isFinite

instance (val : TelemValue) : Decidable (HasJSON val) :=
  inferInstanceAs (Decidable (∀ x ∈ floats val, x.isFinite))

namespace ResponseWriter

/-- `SendAPIJSON`, for a record of telemetry.  `Encode` writes all of a record
or nothing. -/
def SendAPIJSON (data : TelemValue) : Effect ResponseWriter Unit := do
  Effect.modify fun w => w.WriteHeader 200
  if HasJSON data then Effect.modify fun w => w.Write (.json data)
  else Effect.lift (.error .raised)

def SendAPIError (err : String) : Effect ResponseWriter Unit := do
  Effect.modify fun w => w.WriteHeader 400
  Effect.modify fun w => w.Write (.error err)

/-- The deferred function of `ServeHTTP`. -/
def recover (x : Effect ResponseWriter Unit) (w : ResponseWriter) :
    ResponseWriter :=
  match x w with
  | (.ok _, w) => w
  | (.error _, w) =>
      (w.WriteHeader 500).Write recovered

end ResponseWriter

def handleTelem (kind : String) (data : GoMap String TelemValue) :
    Effect ResponseWriter Unit :=
  match data.lookup kind with
  | some val => ResponseWriter.SendAPIJSON val
  | none =>
      ResponseWriter.SendAPIError
        ("Could not retrieve " ++ kind ++ " object.")

/-- `ServeHTTP`, for a request that is routed to `handleTelem`. -/
def serveTelem (kind : String) (data : GoMap String TelemValue) :
    ResponseWriter :=
  ResponseWriter.recover (handleTelem kind data) {}

theorem serveTelem_of_lookup {kind : String}
    {data : GoMap String TelemValue} {val : TelemValue}
    (hval : data.lookup kind = some val) :
    serveTelem kind data =
      { code := some 200
        body := [if HasJSON val then .json val else recovered] } := by
  by_cases hjson : HasJSON val
  · simp only [serveTelem, handleTelem, hval, ResponseWriter.SendAPIJSON,
      if_pos hjson]
    rfl
  · simp only [serveTelem, handleTelem, hval, ResponseWriter.SendAPIJSON,
      if_neg hjson]
    rfl

/-- The route of a request for a kind of telemetry. -/
theorem route_handleTelem (first : String) (rest : List String)
    {drone segment key : String} (hdrone : ValidDrone drone)
    (hkind : telemKind segment = some key) :
    route "GET" (first :: drone :: segment :: rest) =
      .ok (.handleTelem key) := by
  have hstar : ¬ (segment == "*" && "GET" == "GET") = true := by
    intro hstar
    rw [Bool.and_eq_true, beq_iff_eq] at hstar
    rw [hstar.1] at hkind
    cases hkind
  have hvalid : ¬ (¬ idRgxp drone ∧ ¬ nameRgxp drone) :=
    fun h => (not_validDrone_iff drone).mp h hdrone
  have hindex : index (first :: drone :: segment :: rest) 2 =
      .ok segment := rfl
  rw [route_cons, if_neg hstar, if_neg hvalid, if_pos rfl, routeGet, hindex,
    ok_bind, hkind]
  rfl

end Apiservice

namespace Telemetry

open VehicleApi

/-- The telemetry under a key, for the clock and the flag that messages do not
decide on their own. -/
def value (t : Telemetry) (Online : Bool) (LastUpdate LastOnline : Time) :
    String → Option TelemValue
  | "Info" =>
      some (.Info
        ⟨t.Type_, t.Firmware, t.Protocol, LastUpdate, LastOnline⟩)
  | "Status" =>
      some (.Status
        ⟨Online, t.Armed, t.State, t.VTOLMode, t.InAir, t.Power⟩)
  | "Mode" => some (.Mode t.mode)
  | "Gps" => some (.Gps t.gps)
  | "Attitude" => some (.Attitude t.attitude)
  | "Position" => some (.Position t.position)
  | "Motors" => some (.Motors t.motors)
  | "Input" => some (.Input t.input)
  | "Rates" => some (.Rates t.rates)
  | "Target" => some (.Target t.target)
  | "Sensors" => some (.Sensors t.sensors)
  | "Home" => some (.Home t.home)
  | _ => none

theorem lookup_GetVehicleTelem (v : VehicleApi) (key : String) :
    v.GetVehicleTelem.lookup key =
      v.telemetry.value v.status.Online v.info.LastUpdate v.info.LastOnline
        key := by
  unfold value
  split
  case h_13 =>
    simp_all [GetVehicleTelem]
  all_goals simp [GetVehicleTelem, telemetry]

/-- Every key that a path can ask for is there. -/
theorem value_isSome {segment key : String}
    (hkind : Apiservice.telemKind segment = some key) (t : Telemetry)
    (Online : Bool) (LastUpdate LastOnline : Time) :
    (t.value Online LastUpdate LastOnline key).isSome := by
  unfold Apiservice.telemKind at hkind
  split at hkind
  case h_13 => cases hkind
  all_goals
    cases hkind
    rfl

end Telemetry

/-- The types of the messages that a record is about. -/
def sources : String → List String
  | "Info" => ["Heartbeat"]
  | "Status" => ["Heartbeat", "SysStatus", "ExtendedSysState"]
  | "Mode" => ["Heartbeat"]
  | "Gps" => ["GpsRawInt"]
  | "Attitude" => ["Attitude"]
  | "Position" => ["LocalPositionNed", "GlobalPositionInt"]
  | "Motors" => ["ServoOutputRaw"]
  | "Input" => ["RcChannels"]
  | "Rates" => ["VfrHud"]
  | "Target" =>
      ["AttitudeTarget", "PositionTargetLocalNed", "PositionTargetGlobalInt"]
  | "Sensors" => ["HighresImu"]
  | "Home" => ["HomePosition"]
  | _ => []

/-- Two histories have the same last message of each type that a record is
about, and the vehicles after them show the same times in `Info` and the same
flag in `Status`, which the clock decides. -/
structure AlikeFor (key : String) (events others : List (Time × VehicleEvent))
    (v w : VehicleApi) : Prop where
  messages : ∀ name ∈ sources key,
    lastWrite (receivedAs name) events = lastWrite (receivedAs name) others
  times : key = "Info" →
    v.info.LastUpdate = w.info.LastUpdate ∧
      v.info.LastOnline = w.info.LastOnline
  flag : key = "Status" → v.status.Online = w.status.Online

/-- A record says nothing about messages of other types. -/
theorem Telemetry.value_ofLatest_congr {key : String}
    {latest others : String → Option Message}
    (hsame : ∀ name ∈ sources key, latest name = others name)
    {Online Online' : Bool} {LastUpdate LastUpdate' : Time}
    {LastOnline LastOnline' : Time}
    (htimes : key = "Info" →
      LastUpdate = LastUpdate' ∧ LastOnline = LastOnline')
    (hflag : key = "Status" → Online = Online') :
    (ofLatest latest).value Online LastUpdate LastOnline key =
      (ofLatest others).value Online' LastUpdate' LastOnline' key := by
  unfold sources at hsame
  unfold value
  split
  case h_1 =>
    obtain ⟨rfl, rfl⟩ := htimes rfl
    simp_all [ofLatest]
  case h_2 =>
    obtain rfl := hflag rfl
    simp_all [ofLatest]
  case h_13 => rfl
  all_goals simp_all [ofLatest]

/-- A GET request for a kind of telemetry is routed to its handler and gets
the vehicle's record with status 200, or the text of a recovered panic where
a number of the record is NaN or infinite.  The record holds what the last
message of each type it is about says, and no other event of the history
changes it. -/
theorem telemetry_request_reports_latest (writer : Encoder) (start : Time)
    (events : List (Time × VehicleEvent)) (first : String)
    (rest : List String) {drone : String} (segment : String)
    {key : String} (hdrone : Apiservice.ValidDrone drone)
    (hkind : Apiservice.telemKind segment = some key) :
    Apiservice.route "GET" (first :: drone :: segment :: rest) =
        .ok (.handleTelem key) ∧
      ∃ val,
        (Telemetry.ofLatest fun name =>
            lastWrite (receivedAs name) events).value
          (InitVehicle.after writer start events).api.status.Online
          (InitVehicle.after writer start events).api.info.LastUpdate
          (InitVehicle.after writer start events).api.info.LastOnline
          key = some val ∧
        Apiservice.serveTelem key
            (InitVehicle.after writer start events).api.GetVehicleTelem =
          { code := some 200
            body :=
              [if Apiservice.HasJSON val then .json val
                else Apiservice.recovered] } ∧
        ∀ (other : Encoder) (begun : Time)
            (others : List (Time × VehicleEvent)),
          AlikeFor key events others
              (InitVehicle.after writer start events).api
              (InitVehicle.after other begun others).api →
            (InitVehicle.after other begun others).api.GetVehicleTelem.lookup
              key = some val := by
  have hlookup (writer : Encoder) (start : Time)
      (events : List (Time × VehicleEvent)) :
      (InitVehicle.after writer start events).api.GetVehicleTelem.lookup
          key =
        (Telemetry.ofLatest fun name =>
            lastWrite (receivedAs name) events).value
          (InitVehicle.after writer start events).api.status.Online
          (InitVehicle.after writer start events).api.info.LastUpdate
          (InitVehicle.after writer start events).api.info.LastOnline
          key := by
    rw [Telemetry.lookup_GetVehicleTelem, InitVehicle.telemetry_eq_ofLatest]
    simp only [InitVehicle.knownMsgs_after]
  obtain ⟨val, hval⟩ := Option.isSome_iff_exists.mp
    (Telemetry.value_isSome hkind
      (Telemetry.ofLatest fun name => lastWrite (receivedAs name) events)
      (InitVehicle.after writer start events).api.status.Online
      (InitVehicle.after writer start events).api.info.LastUpdate
      (InitVehicle.after writer start events).api.info.LastOnline)
  refine ⟨Apiservice.route_handleTelem first rest hdrone hkind, val, hval,
    Apiservice.serveTelem_of_lookup ((hlookup writer start events).trans hval),
    ?_⟩
  intro other begun others halike
  rw [hlookup, ← hval]
  exact (Telemetry.value_ofLatest_congr halike.messages halike.times
    halike.flag).symm

/-- A position of two satellites. -/
def gpsPacket : Packet :=
  ⟨0, 1, 1, MSG_ID_GPS_RAW_INT, List.replicate 29 0 ++ [2], 0⟩

/-- The satellites are shown, with a heartbeat after the position or
without. -/
theorem telemetry_request_reports_latest_gps :
    ∃ gps : Gps, gps.Satellites = 2 ∧
      (InitVehicle.after (NewEncoder none) 0
          [(1, .init (.packet gpsPacket))]).api.GetVehicleTelem.lookup "Gps" =
        some (.Gps gps) ∧
      (InitVehicle.after (NewEncoder none) 0
          [(1, .init (.packet gpsPacket)),
            (2, .init (.packet heartbeatPacket))]).api.GetVehicleTelem.lookup
          "Gps" =
        some (.Gps gps) := by
  obtain ⟨-, val, hsays, -, halike⟩ :=
    telemetry_request_reports_latest (NewEncoder none) 0
      [(1, .init (.packet gpsPacket)), (2, .init (.packet heartbeatPacket))]
      "api" [] "gps" Apiservice.validDrone_drone rfl
  have hbefore := halike (NewEncoder none) 0 [(1, .init (.packet gpsPacket))]
    ⟨fun name hname => by rw [List.mem_singleton.mp hname]; rfl,
      fun hkey => absurd hkey (by decide),
      fun hkey => absurd hkey (by decide)⟩
  have hafter := halike (NewEncoder none) 0
    [(1, .init (.packet gpsPacket)), (2, .init (.packet heartbeatPacket))]
    ⟨fun _ _ => rfl, fun _ => ⟨rfl, rfl⟩, fun _ => rfl⟩
  cases hsays
  exact ⟨_, rfl, hbefore, hafter⟩

end DronesmithEngine
