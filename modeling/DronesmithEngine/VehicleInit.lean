import DronesmithEngine.VehicleShortPackets
import Mathlib.Tactic

/-!
# The initialisation of a vehicle

`stateHandler` of `vehicle/vehicle.go`, the flags and the parameter counts it
keeps, and what each operation does to them.  An iteration of the handler is
one step: it reads its flags before it does anything.
-/

namespace DronesmithEngine

open Go Mavlink Api

/-- A vehicle with the rest of what its initialisation keeps: the api's
`paramForceInit`, and three fields of the vehicle. -/
structure InitVehicle where
  vehicle : Vehicle
  paramForceInit : Bool
  missingParams : List ℕ
  ParamsTimer : Time

/-- What an iteration of `stateHandler` did. -/
inductive StateAction
  | scrubbed
  | askedInfo
  | askedParams
  | online (action : Vehicle.HandlerAction)
  | forced
  | waiting
  deriving DecidableEq

inductive InitEvent
  | wait (d : ℕ)
  | packet (p : Packet)
  | command (Command : CommandLong) (op : ℤ)
  | checkSysOnline
  | scrub
  | refreshParams
  | stateHandler

namespace InitVehicle

def NewVehicle (writer : Encoder) (now : Time) : InitVehicle where
  vehicle := Vehicle.NewVehicle writer now
  paramForceInit := false
  missingParams := []
  ParamsTimer := 0

def api (v : InitVehicle) : VehicleApi := v.vehicle.api

def withApi (v : InitVehicle) (api : VehicleApi) : InitVehicle :=
  { v with vehicle := { v.vehicle with api := api } }

def sendMAVLink (v : InitVehicle) (Pack : Packet → Packet) : InitVehicle :=
  { v with vehicle := v.vehicle.sendMAVLink Pack }

def Scrub (v : InitVehicle) : InitVehicle := v.withApi v.api.Scrub

def ResetParams (v : InitVehicle) : InitVehicle :=
  { v.withApi
      { v.api with totalParams := 0, paramsRequested := false, params := ∅ }
    with paramForceInit := false }

def RefreshParams (v : InitVehicle) : InitVehicle :=
  { v with missingParams := [] }.ResetParams

def GetParams (v : InitVehicle) : InitVehicle :=
  v.sendMAVLink v.api.RequestParamsList.Pack

def GetAllParams (v : InitVehicle) :
    UInt64 × UInt64 × GoMap (List UInt8) Float32 :=
  let (total, chunk) := v.api.AllParams
  let totalFound := int total - v.missingParams.length
  (UInt64.ofInt totalFound, total, chunk)

/-- The indices below the total that were not found, in order. -/
def notFound (total : UInt64) (foundSet : Finset UInt64) : List ℕ :=
  (List.range (int total).toNat).filter fun i => UInt64.ofNat i ∉ foundSet

/-- Asking for each parameter that was not found. -/
def requestEach (v : InitVehicle) (missing : List ℕ) : InitVehicle :=
  missing.foldl
    (fun v i => v.sendMAVLink (v.api.RequestParam (UInt64.ofNat i)).Pack) v

def stateHandler (v : InitVehicle) (now : Time) : StateAction × InitVehicle :=
  if v.api.SysOnline then
    if ¬ v.api.SysGotCaps then
      (.askedInfo, v.sendMAVLink v.api.RequestVehicleInfo.Pack)
    else if ¬ v.api.ParamsInit then
      (.askedParams, { v.GetParams with ParamsTimer := now })
    else
      let (total, foundSet) := v.api.CheckParams
      let missing := notFound total foundSet
      if (foundSet.card : ℤ) - 1 = int total ∨ v.paramForceInit then
        let (action, vehicle) := v.vehicle.sysOnlineHandler
        (.online action, { v with vehicle := vehicle })
      else if 10 * second < now - v.ParamsTimer then
        (.forced,
          { v with
            missingParams := missing
            paramForceInit := true }.requestEach missing)
      else (.waiting, v.requestEach missing)
  else (.scrubbed, v.Scrub)

def apply (v : InitVehicle) (now : Time) : InitEvent → InitVehicle
  | .wait _ => v
  | .packet p => { v with vehicle := v.vehicle.processPacket p now }
  | .command Command op =>
      { v with vehicle := v.vehicle.pushCommand Command op }
  | .checkSysOnline => v.withApi (v.api.CheckSysOnline now)
  | .scrub => v.Scrub
  | .refreshParams => v.RefreshParams
  | .stateHandler => (v.stateHandler now).2

end InitVehicle

/-! ## The flags of the api -/

/-- What the api knows of the progress of the initialisation. -/
@[ext] structure InitProgress where
  online : Bool
  gotCaps : Bool
  params : GoMap (List UInt8) Param
  totalParams : UInt64
  paramsRequested : Bool

namespace InitProgress

def foundSet (g : InitProgress) : Finset UInt64 :=
  ((values g.params).map Param.Index).toFinset

def notFound (g : InitProgress) : List ℕ :=
  InitVehicle.notFound g.totalParams g.foundSet

/-- The test for a complete set of parameters. -/
def Complete (g : InitProgress) : Prop :=
  (g.foundSet.card : ℤ) - 1 = int g.totalParams

instance (g : InitProgress) : Decidable g.Complete :=
  inferInstanceAs (Decidable (_ = _))

def receive (g : InitProgress) : Message → InitProgress
  | .heartbeat _ => { g with online := true }
  | .autopilotVersion _ => { g with gotCaps := true }
  | .paramValue m =>
      { g with
        paramsRequested := true
        totalParams := m.ParamCount.toUInt64
        params :=
          g.params.insert (VehicleApi.paramName m.ParamId)
            ⟨m.ParamIndex.toUInt64, m.ParamValue, m.ParamType⟩ }
  | _ => g

def scrub (g : InitProgress) : InitProgress where
  online := g.online
  gotCaps := false
  params := ∅
  totalParams := 0
  paramsRequested := false

def resetParams (g : InitProgress) : InitProgress :=
  { g with params := ∅, totalParams := 0, paramsRequested := false }

theorem mem_foundSet {g : InitProgress} {i : UInt64} :
    i ∈ g.foundSet ↔
      ∃ name param, g.params.lookup name = some param ∧ param.Index = i := by
  simp only [foundSet, Multiset.mem_toFinset, Multiset.mem_map, mem_values]
  constructor
  · rintro ⟨param, ⟨name, hname⟩, hindex⟩
    exact ⟨name, param, hname, hindex⟩
  · rintro ⟨name, param, hname, hindex⟩
    exact ⟨param, ⟨name, hname⟩, hindex⟩

theorem foundSet_empty {g : InitProgress} (hparams : g.params = ∅) :
    g.foundSet = ∅ := by
  apply Finset.eq_empty_of_forall_notMem
  intro i hi
  obtain ⟨name, param, hname, -⟩ := mem_foundSet.mp hi
  rw [hparams, Finmap.lookup_empty] at hname
  cases hname

/-- A parameter's message adds no index but its own. -/
theorem mem_foundSet_paramValue {g : InitProgress} {m : ParamValue}
    {i : UInt64} (hi : i ∈ (g.receive (.paramValue m)).foundSet) :
    i = m.ParamIndex.toUInt64 ∨ i ∈ g.foundSet := by
  obtain ⟨name, param, hname, hindex⟩ := mem_foundSet.mp hi
  by_cases hsame : name = VehicleApi.paramName m.ParamId
  · left
    rw [hsame] at hname
    simp only [receive, Finmap.lookup_insert, Option.some.injEq] at hname
    rw [← hindex, ← hname]
  · right
    simp only [receive, Finmap.lookup_insert_of_ne _ hsame] at hname
    exact mem_foundSet.mpr ⟨name, param, hname, hindex⟩

/-- A count came in 16 bits, and parameters are stored only under the flag
for them. -/
structure Valid (g : InitProgress) : Prop where
  small : g.totalParams.toNat < 2 ^ 16
  empty : g.paramsRequested = false → g.params = ∅

theorem scrub_valid (g : InitProgress) : g.scrub.Valid where
  small := by simp [scrub]
  empty _ := rfl

theorem resetParams_valid (g : InitProgress) : g.resetParams.Valid where
  small := by simp [resetParams]
  empty _ := rfl

theorem Valid.receive {g : InitProgress} (hg : g.Valid) (m : Message) :
    (g.receive m).Valid := by
  cases m with
  | paramValue m =>
      constructor
      · simp only [InitProgress.receive, UInt16.toNat_toUInt64]
        exact m.ParamCount.toNat_lt
      · intro hrequested
        cases hrequested
  | _ => exact ⟨hg.small, hg.empty⟩

theorem Valid.int_totalParams {g : InitProgress} (hg : g.Valid) :
    int g.totalParams = g.totalParams.toNat :=
  int_of_lt (hg.small.trans (by decide))

theorem Valid.mem_notFound {g : InitProgress} (hg : g.Valid) {i : ℕ} :
    i ∈ g.notFound ↔
      i < g.totalParams.toNat ∧ UInt64.ofNat i ∉ g.foundSet := by
  simp [notFound, InitVehicle.notFound, hg.int_totalParams]

end InitProgress

namespace Api.VehicleApi

def progress (api : VehicleApi) : InitProgress where
  online := api.status.Online
  gotCaps := api.gotCaps
  params := api.params
  totalParams := api.totalParams
  paramsRequested := api.paramsRequested

@[simp] theorem UpdateSubSystem_progress (api : VehicleApi) (name : String)
    (now : Time) :
    (api.UpdateSubSystem name now).progress = api.progress := by
  unfold UpdateSubSystem
  cases api.subSystems.lookup name with
  | none => rfl
  | some _ => rfl

theorem CheckSysOnline_progress (api : VehicleApi) (now : Time) :
    (api.CheckSysOnline now).progress = api.progress ∨
      (api.CheckSysOnline now).progress =
        { api.progress with online := false } := by
  unfold CheckSysOnline
  split
  · exact Or.inr rfl
  · exact Or.inl rfl

end Api.VehicleApi

namespace Vehicle

theorem UpdateFromAck_api (v : Vehicle) (m : CommandAck) :
    (v.UpdateFromAck m).api = v.api := by
  unfold UpdateFromAck
  split
  · rfl
  · split <;> rfl

theorem sysOnlineHandler_api (v : Vehicle) :
    v.sysOnlineHandler.2.api = v.api := by
  unfold sysOnlineHandler
  split
  · rfl
  · simp only
    split <;> rfl

theorem adoptSystem_progress (v : Vehicle) (p : Packet) :
    (v.adoptSystem p).api.progress = v.api.progress := by
  unfold adoptSystem
  split <;> rfl

/-- Heartbeats, versions and parameters are the only messages that the
initialisation depends on. -/
theorem applyMessage_progress (v : Vehicle) (now : Time) (m : Message) :
    (v.applyMessage now m).api.progress = v.api.progress.receive m := by
  cases m with
  | commandAck m =>
      simp only [applyMessage, know, UpdateFromAck_api]
      rfl
  | heartbeat m => rfl
  | sysStatus m => rfl
  | paramValue m => rfl
  | vfrHud m => rfl
  | autopilotVersion m => rfl
  | homePosition m => rfl
  | extendedSysState m => rfl
  | statustext m => rfl
  | _ => exact VehicleApi.UpdateSubSystem_progress _ _ _

end Vehicle

/-! ## What each operation does -/

/-- The message that a packet of a known type brings.  A short packet brings
the zero message that a failed `Unpack` leaves. -/
def wholeMessage (p : Packet) : Option Message :=
  (readMessage p).map Prod.snd

def InitProgress.receivePacket (g : InitProgress) (p : Packet) :
    InitProgress :=
  match wholeMessage p with
  | some m => g.receive m
  | none => g

theorem InitProgress.Valid.receivePacket {g : InitProgress} (hg : g.Valid)
    (p : Packet) : (g.receivePacket p).Valid := by
  unfold InitProgress.receivePacket
  cases wholeMessage p with
  | none => exact hg
  | some m => exact hg.receive m

namespace InitVehicle

def progress (v : InitVehicle) : InitProgress := v.api.progress

theorem packet_progress (v : InitVehicle) (p : Packet) (now : Time) :
    ({ v with vehicle := v.vehicle.processPacket p now } :
      InitVehicle).progress = v.progress.receivePacket p := by
  have hadopt := v.vehicle.adoptSystem_progress p
  simp only [progress, api, Vehicle.processPacket_eq,
    InitProgress.receivePacket, wholeMessage]
  cases readMessage p with
  | none => exact hadopt
  | some read =>
      simp only [Option.map_some, Vehicle.applyMessage_progress, hadopt]

theorem checkSysOnline_progress (v : InitVehicle) (now : Time) :
    (v.apply now .checkSysOnline).progress = v.progress ∨
      (v.apply now .checkSysOnline).progress =
        { v.progress with online := false } :=
  v.api.CheckSysOnline_progress now

@[simp] theorem Scrub_progress (v : InitVehicle) :
    v.Scrub.progress = v.progress.scrub := rfl

@[simp] theorem RefreshParams_progress (v : InitVehicle) :
    v.RefreshParams.progress = v.progress.resetParams := rfl

theorem requestEach_eq (v : InitVehicle) (missing : List ℕ) :
    ∃ w : Vehicle, w.api = v.vehicle.api ∧
      v.requestEach missing = { v with vehicle := w } := by
  induction missing generalizing v with
  | nil => exact ⟨v.vehicle, rfl, rfl⟩
  | cons i missing ih =>
      let next := v.sendMAVLink (v.api.RequestParam (UInt64.ofNat i)).Pack
      obtain ⟨w, hapi, heq⟩ := ih next
      exact ⟨w, hapi, heq⟩

end InitVehicle

/-- The flags that an iteration needs to look at the parameters. -/
structure InitProgress.Ready (g : InitProgress) : Prop where
  online : g.online
  gotCaps : g.gotCaps
  paramsRequested : g.paramsRequested

instance (g : InitProgress) : Decidable g.Ready :=
  decidable_of_iff (g.online ∧ g.gotCaps ∧ g.paramsRequested)
    ⟨fun h => ⟨h.1, h.2.1, h.2.2⟩, fun h => ⟨h.1, h.2, h.3⟩⟩

/-- The six outcomes of an iteration; sending leaves the api alone. -/
inductive StateStep (v : InitVehicle) (now : Time) :
    StateAction → InitVehicle → Prop
  | scrubbed (hoffline : v.progress.online = false) :
      StateStep v now .scrubbed v.Scrub
  | askedInfo {w : Vehicle} (hw : w.api = v.api)
      (honline : v.progress.online) (hcaps : v.progress.gotCaps = false) :
      StateStep v now .askedInfo { v with vehicle := w }
  | askedParams {w : Vehicle} (hw : w.api = v.api)
      (honline : v.progress.online) (hparams : v.progress.paramsRequested = false) :
      StateStep v now .askedParams
        { v with vehicle := w, ParamsTimer := now }
  | online {w : Vehicle} {action : Vehicle.HandlerAction}
      (hw : w.api = v.api) (hready : v.progress.Ready)
      (hdone : v.progress.Complete ∨ v.paramForceInit) :
      StateStep v now (.online action) { v with vehicle := w }
  | forced {w : Vehicle} (hw : w.api = v.api) (hready : v.progress.Ready)
      (hmissing : ¬ v.progress.Complete) (hforced : v.paramForceInit = false)
      (htime : 10 * second < now - v.ParamsTimer) :
      StateStep v now .forced
        { v with
          vehicle := w
          missingParams := v.progress.notFound
          paramForceInit := true }
  | waiting {w : Vehicle} (hw : w.api = v.api) (hready : v.progress.Ready) :
      StateStep v now .waiting { v with vehicle := w }

theorem InitVehicle.stateHandler_step (v : InitVehicle) (now : Time) :
    StateStep v now (v.stateHandler now).1 (v.stateHandler now).2 := by
  unfold stateHandler
  by_cases honline : v.api.SysOnline
  · rw [if_pos honline]
    by_cases hcaps : v.api.SysGotCaps
    · rw [if_neg (not_not_intro hcaps)]
      by_cases hparams : v.api.ParamsInit
      · have hready : v.progress.Ready := ⟨honline, hcaps, hparams⟩
        rw [if_neg (not_not_intro hparams)]
        simp only
        split
        next hdone =>
          exact .online v.vehicle.sysOnlineHandler_api hready hdone
        next hnot =>
          obtain ⟨hmissing, hforced⟩ := not_or.mp hnot
          split
          next htime =>
            obtain ⟨w, hw, heq⟩ := requestEach_eq
              { v with
                missingParams := v.progress.notFound
                paramForceInit := true } v.progress.notFound
            exact heq ▸ .forced hw hready hmissing
              (Bool.eq_false_iff.mpr hforced) htime
          next =>
            obtain ⟨w, hw, heq⟩ := v.requestEach_eq v.progress.notFound
            exact heq ▸ .waiting hw hready
      · rw [if_pos hparams]
        exact .askedParams rfl honline (Bool.eq_false_iff.mpr hparams)
    · rw [if_pos hcaps]
      exact .askedInfo rfl honline (Bool.eq_false_iff.mpr hcaps)
  · rw [if_neg honline]
    exact .scrubbed (Bool.eq_false_iff.mpr honline)

/-! ## Packets for short runs -/

def heartbeatPacket : Packet :=
  ⟨0, 1, 1, MSG_ID_HEARTBEAT, List.replicate 9 0, 0⟩

def versionPacket : Packet :=
  ⟨0, 1, 1, MSG_ID_AUTOPILOT_VERSION, List.replicate 60 0, 0⟩

/-- A parameter with a name of one letter. -/
def paramPacket (ParamCount ParamIndex : UInt16) (letter : UInt8) : Packet :=
  ⟨0, 1, 1, MSG_ID_PARAM_VALUE,
    LittleEndian.PutUint32 0 ++ LittleEndian.PutUint16 ParamCount ++
      LittleEndian.PutUint16 ParamIndex ++ [letter] ++ List.replicate 16 0, 0⟩

end DronesmithEngine
