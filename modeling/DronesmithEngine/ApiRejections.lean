import DronesmithEngine.ApiService
import Mathlib.Tactic

/-!
# Requests that fail

Whether a request that is answered with an error has left the command queue
as it was.  Most handlers read all their fields before they queue a command;
two queue a mode change first.
-/

namespace DronesmithEngine.Apiservice

open Go Go.Effect Api Response

/-! ## Handlers that read before they push -/

section Handlers

variable (platform : Platform) (meanwhile : Meanwhile)

theorem not_isError_json (data : ResponseBody) :
    ¬ IsError (SendAPIJSON data) := by
  simp [IsError, SendAPIJSON]

theorem pollCommand_neverFails (cmd : ℤ) (left attempts : ℕ)
    (last : String × ℤ) :
    NeverFails IsError (pollCommand cmd meanwhile left attempts last) := by
  induction left generalizing attempts last with
  | zero => exact NeverFails.pure (not_isError_json _)
  | succ left ih =>
      refine NeverFails.modify_bind (NeverFails.read_bind ?_)
      rintro ⟨op, ack, num⟩
      dsimp only
      split
      · exact NeverFails.modify_bind
          (NeverFails.pure (not_isError_json _))
      · exact ih (attempts + 1) (ack, num)

theorem push_neverFails (push : Vehicle → Vehicle) (cmd : ℤ) :
    NeverFails IsError
      (Effect.modify push >>= fun _ => commandBlock cmd meanwhile) :=
  NeverFails.modify_bind (pollCommand_neverFails meanwhile cmd 10 0 ("", 0))

abbrev KeepsQueue (x : Handler) : Prop :=
  CleanFailure Vehicle.commandQueue IsError x

theorem handleArmDisarm_keepsQueue (arming : Bool) :
    KeepsQueue (handleArmDisarm meanwhile arming) :=
  (push_neverFails meanwhile _ 176).cleanFailure

theorem handleLand_keepsQueue : KeepsQueue (handleLand meanwhile) :=
  (push_neverFails meanwhile _ 21).cleanFailure

theorem handleModeArm_keepsQueue (postData : JsonObject) :
    KeepsQueue (handleModeArm meanwhile postData) :=
  .bind (.lift _) fun _ => .bind (.lift _) fun _ =>
    (push_neverFails meanwhile _ 176).cleanFailure

theorem handleSetHome_keepsQueue (postData : JsonObject) :
    KeepsQueue (handleSetHome meanwhile postData) :=
  .bind (.read _) fun _ => .bind (.lift _) fun _ => .bind (.lift _) fun _ =>
    .bind (.lift _) fun _ => .bind (.lift _) fun _ =>
      (push_neverFails meanwhile _ 179).cleanFailure

theorem handleCommand_keepsQueue (postData : JsonObject) :
    KeepsQueue (handleCommand platform meanwhile postData) := by
  unfold handleCommand
  split
  · exact (Frames.pure _).cleanFailure
  · exact .bind (.lift _) fun _ => .bind (.lift _) fun _ =>
      .bind (.lift _) fun _ => (push_neverFails meanwhile _ _).cleanFailure

theorem SetParam_frames (name : List UInt8) (value : Float32)
    (params : GoMap (List UInt8) Param) :
    Frames Vehicle.commandQueue (Vehicle.SetParam name value params) := by
  refine .bind (.read _) fun _ => .bind (.lift _) fun _ =>
    .bind (.modify fun _ => rfl) fun _ => .bind (.modify fun _ => rfl)
      fun _ => .bind (.read _) fun found => ?_
  cases found with
  | none => exact .pure _
  | some val =>
      dsimp only
      split <;> exact .pure _

theorem handleSetParam_keepsQueue (path : String) (data : JsonObject) :
    KeepsQueue (handleSetParam meanwhile path data) := by
  refine .bind (.lift _) fun _ => .bind (SetParam_frames _ _ _)
    fun result => ?_
  cases result <;> exact (Frames.pure _).cleanFailure

theorem SendRCOverride_queue (v : Vehicle) (vals : Vector UInt16 8)
    (enabled : Bool) (timestamp : UInt64) :
    (v.SendRCOverride vals enabled timestamp).commandQueue =
      v.commandQueue := by
  unfold Vehicle.SendRCOverride
  dsimp only
  split <;> rfl

theorem handleInput_keepsQueue (postData : JsonObject) :
    KeepsQueue (handleInput platform postData) := by
  refine .bind (.lift _) fun t => .bind (.lift _) fun e =>
    .bind (.lift _) fun ts => ?_
  split
  · exact .bind (.lift _) fun _ => .bind (.lift _) fun _ =>
      .bind (.modify fun _ => SendRCOverride_queue _ _ _ _) fun _ =>
        (Frames.pure _).cleanFailure
  · exact (Frames.pure _).cleanFailure

/-! ## Handlers that push before they read -/

theorem pushCommand_queue_ne (v : Vehicle) (Command : Mavlink.CommandLong)
    (op : ℤ) : (v.pushCommand Command op).commandQueue ≠ v.commandQueue := by
  intro hsame
  have hlength := (v.commandQueue.Push_contents v.nextCommand op).length_eq
  have hqueue : v.commandQueue.Push v.nextCommand op = v.commandQueue := hsame
  rw [hqueue, List.length_cons] at hlength
  omega

theorem SetModeAndArm_queue_ne (v : Vehicle) (updateMode updateArm : Bool)
    (mode : String) (armed : Bool) :
    (v.SetModeAndArm updateMode updateArm mode armed).commandQueue ≠
      v.commandQueue :=
  pushCommand_queue_ne v _ _

/-- A mode change, then the arguments of a command, then the command. -/
def pushThenRead (updateArm : Bool) (mode : String) (cmd : ℤ)
    (params : Coordinates → Float32 → Checked (Vector Float32 7)) :
    Handler := do
  let position ← Effect.read (fun veh => veh.api.GetGlobal)
  Effect.modify (fun veh => veh.SetModeAndArm true updateArm mode true)
  let MASLAlt ← Effect.read (fun veh => veh.api.GetMASLAlt)
  let args ← Effect.lift (params position MASLAlt)
  Effect.modify (fun veh => veh.DoGenericCommand cmd args)
  commandBlock cmd meanwhile

theorem handleTakeoff_eq (postData : JsonObject) :
    handleTakeoff meanwhile postData =
      pushThenRead meanwhile true "Takeoff" 22
        (fun global MASLAlt => takeoffParams global MASLAlt postData) := rfl

theorem handleGuided_eq (postData : JsonObject) :
    handleGuided meanwhile postData =
      pushThenRead meanwhile false "Hold" 192
        (fun loc MASLAlt => guidedParams loc MASLAlt postData) := rfl

/-- The mode change stays queued exactly when the arguments cannot be read. -/
theorem pushThenRead_keepsQueue_iff (updateArm : Bool) (mode : String)
    (cmd : ℤ) (params : Coordinates → Float32 → Checked (Vector Float32 7))
    (v : Vehicle) :
    (Failed IsError (pushThenRead meanwhile updateArm mode cmd params v).1 →
      (pushThenRead meanwhile updateArm mode cmd params v).2.commandQueue =
        v.commandQueue) ↔
      ∃ args, params v.api.GetGlobal v.api.GetMASLAlt = .ok args := by
  have hmasl : (v.SetModeAndArm true updateArm mode true).api.GetMASLAlt =
      v.api.GetMASLAlt := rfl
  cases hparams : params v.api.GetGlobal v.api.GetMASLAlt with
  | error panic =>
      have hrun : pushThenRead meanwhile updateArm mode cmd params v =
          (.error panic, v.SetModeAndArm true updateArm mode true) := by
        simp only [pushThenRead, read_bind, modify_bind, hmasl, hparams,
          lift_error_bind]
      rw [hrun]
      simp only [Failed, forall_const, reduceCtorEq, exists_false, iff_false]
      exact SetModeAndArm_queue_ne v true updateArm mode true
  | ok args =>
      have hrun : pushThenRead meanwhile updateArm mode cmd params v =
          (Effect.modify (fun veh => veh.DoGenericCommand cmd args) >>=
            fun _ => commandBlock cmd meanwhile)
            (v.SetModeAndArm true updateArm mode true) := by
        simp only [pushThenRead, read_bind, modify_bind, hmasl, hparams,
          lift_ok_bind]
      rw [hrun]
      refine iff_of_true ?_ ⟨args, rfl⟩
      intro hfailed
      exact absurd hfailed (push_neverFails meanwhile _ cmd _)

end Handlers

/-! ## Fields of the right type -/

def BoolOrNil (value : Json) : Prop :=
  match value with
  | .null => True
  | .bool _ => True
  | _ => False

def NumberOrNil (value : Json) : Prop :=
  match value with
  | .null => True
  | .number _ => True
  | _ => False

theorem unlessNil_asBool_iff (value : Json) :
    (∃ b, value.unlessNil Json.asBool = .ok b) ↔ BoolOrNil value := by
  cases value <;> simp [Json.unlessNil, Json.asBool, BoolOrNil]

theorem unlessNil_asFloat64_iff (value : Json) :
    (∃ f, value.unlessNil Json.asFloat64 = .ok f) ↔ NumberOrNil value := by
  cases value <;> simp [Json.unlessNil, Json.asFloat64, NumberOrNil]

structure PositionFields (pdata : JsonObject) : Prop where
  relativepos : BoolOrNil (get pdata "relativepos")
  relativealt : BoolOrNil (get pdata "relativealt")
  heading : NumberOrNil (get pdata "heading")
  altitude : NumberOrNil (get pdata "altitude")
  lat : NumberOrNil (get pdata "lat")
  lon : NumberOrNil (get pdata "lon")

theorem bind_ok_iff {α β : Type} {x : Checked α} {f : α → Checked β} :
    (∃ y, x >>= f = .ok y) ↔ ∃ a, x = .ok a ∧ ∃ y, f a = .ok y := by
  cases x <;> simp

theorem takeoffParams_ok_iff (global : Coordinates) (MASLAlt : Float32)
    (pdata : JsonObject) :
    (∃ args, takeoffParams global MASLAlt pdata = .ok args) ↔
      PositionFields pdata := by
  simp only [takeoffParams, bind_ok_iff, pure_eq_ok, Except.ok.injEq,
    exists_eq', and_true, exists_and_right, unlessNil_asBool_iff,
    unlessNil_asFloat64_iff]
  constructor
  · rintro ⟨hpos, halt, hheading, haltitude, hlat, hlon⟩
    exact ⟨hpos, halt, hheading, haltitude, hlat, hlon⟩
  · rintro ⟨hpos, halt, hheading, haltitude, hlat, hlon⟩
    exact ⟨hpos, halt, hheading, haltitude, hlat, hlon⟩

theorem guidedParams_ok_iff (loc : Coordinates) (MASLAlt : Float32)
    (pdata : JsonObject) :
    (∃ args, guidedParams loc MASLAlt pdata = .ok args) ↔
      PositionFields pdata ∧ NumberOrNil (get pdata "speed") := by
  simp only [guidedParams, bind_ok_iff, pure_eq_ok, Except.ok.injEq,
    exists_eq', and_true, exists_and_right, unlessNil_asBool_iff,
    unlessNil_asFloat64_iff]
  constructor
  · rintro ⟨halt, hpos, hspeed, hheading, haltitude, hlat, hlon⟩
    exact ⟨⟨hpos, halt, hheading, haltitude, hlat, hlon⟩, hspeed⟩
  · rintro ⟨⟨hpos, halt, hheading, haltitude, hlat, hlon⟩, hspeed⟩
    exact ⟨halt, hpos, hspeed, hheading, haltitude, hlat, hlon⟩

/-! ## Requests -/

/-- The fields that are read after a mode change was queued have the type
that is asserted of them. -/
def ReadsLateFields (kind : String) (pdata : JsonObject) : Prop :=
  match kind with
  | "takeoff" => PositionFields pdata
  | "goto" => PositionFields pdata ∧ NumberOrNil (get pdata "speed")
  | _ => True

section Requests

variable (platform : Platform) (meanwhile : Meanwhile)

theorem handlePost_keepsQueue_iff (kind : String) (rest : List String)
    (pdata : JsonObject) (v : Vehicle) :
    (Failed IsError (handlePost platform meanwhile kind rest pdata v).1 →
      (handlePost platform meanwhile kind rest pdata v).2.commandQueue =
        v.commandQueue) ↔ ReadsLateFields kind pdata := by
  unfold handlePost
  split
  case h_1 => exact iff_of_true (handleArmDisarm_keepsQueue _ _ v) trivial
  case h_2 => exact iff_of_true (handleArmDisarm_keepsQueue _ _ v) trivial
  case h_3 =>
    rw [handleTakeoff_eq, pushThenRead_keepsQueue_iff, takeoffParams_ok_iff]
    rfl
  case h_4 => exact iff_of_true (handleLand_keepsQueue _ v) trivial
  case h_5 =>
    rw [handleGuided_eq, pushThenRead_keepsQueue_iff, guidedParams_ok_iff]
    rfl
  case h_6 => exact iff_of_true (handleInput_keepsQueue _ _ v) trivial
  case h_7 => exact iff_of_true (handleModeArm_keepsQueue _ _ v) trivial
  case h_8 => exact iff_of_true (handleCommand_keepsQueue _ _ _ v) trivial
  case h_9 =>
    refine iff_of_true ?_ trivial
    split
    · exact (Frames.pure _).cleanFailure v
    · exact handleSetParam_keepsQueue _ _ _ v
  case h_10 => exact iff_of_true (handleSetHome_keepsQueue _ _ v) trivial
  case h_11 =>
    refine iff_of_true ((Frames.pure _).cleanFailure v) ?_
    unfold ReadsLateFields
    split <;> simp_all

/-- The request reaches a handler that queues a mode change and then finds a
field of another type than it asserts. -/
def RejectedLate (req : PostRequest) : Prop :=
  match filteredPath req with
  | _ :: drone :: kind :: _ =>
      (idRgxp drone ∨ nameRgxp drone) ∧
        ∃ pdata, req.Body = .object pdata ∧
          ¬ ReadsLateFields kind (toLowerJSON platform pdata)
  | _ => False

theorem readsLateFields_empty (kind : String) : ReadsLateFields kind ∅ := by
  have hbool : ∀ key, BoolOrNil (get ∅ key) := fun key => trivial
  have hnumber : ∀ key, NumberOrNil (get ∅ key) := fun key => trivial
  have hfields : PositionFields ∅ := by
    constructor
    · exact hbool _
    · exact hbool _
    · exact hnumber _
    · exact hnumber _
    · exact hnumber _
    · exact hnumber _
  unfold ReadsLateFields
  split
  · exact hfields
  · exact ⟨hfields, hnumber _⟩
  · trivial

/-- A request that is answered with an error leaves the command queue as it
was, exactly unless it is a takeoff or a move with a field of the wrong
type. -/
theorem failed_request_keeps_queue_iff (req : PostRequest) (v : Vehicle) :
    (IsError (ServeHTTP platform meanwhile req v).1 →
      (ServeHTTP platform meanwhile req v).2.commandQueue =
        v.commandQueue) ↔ ¬ RejectedLate platform req := by
  have hpanicked : IsError panicked := by simp [IsError, panicked]
  rw [ServeHTTP, recover_error_iff hpanicked, recover_state]
  unfold servePost RejectedLate
  rcases filteredPath req with _ | ⟨root, _ | ⟨drone, _ | ⟨kind, rest⟩⟩⟩
  case cons.cons.cons =>
    dsimp only
    split
    next hnone =>
        refine iff_of_true ((Frames.pure _).cleanFailure v) ?_
        rintro ⟨hdrone, -⟩
        exact not_or.mpr hnone hdrone
    next hdrone =>
        rw [not_and_or, not_not, not_not] at hdrone
        cases req.Body with
        | invalid err =>
            refine iff_of_true ((Frames.pure _).cleanFailure v) ?_
            rintro ⟨-, pdata, hbody, -⟩
            cases hbody
        | empty =>
            dsimp only
            rw [handlePost_keepsQueue_iff]
            refine iff_of_true (readsLateFields_empty kind) ?_
            rintro ⟨-, pdata, hbody, -⟩
            cases hbody
        | object pdata =>
            dsimp only
            rw [handlePost_keepsQueue_iff]
            simp [hdrone]
  all_goals
    exact iff_of_true ((Frames.pure _).cleanFailure v) not_false

/-- A takeoff whose altitude is a string is answered with an error, and
leaves the mode change queued. -/
theorem rejected_takeoff_stays_queued :
    ¬ ∀ (platform : Platform) (meanwhile : Meanwhile) (req : PostRequest)
      (v : Vehicle),
      IsError (ServeHTTP platform meanwhile req v).1 →
        (ServeHTTP platform meanwhile req v).2.commandQueue =
          v.commandQueue := by
  intro hall
  let platform : Platform :=
    { ToLower := String.toLower
      rangeOrder := fun _ => ["altitude"]
      int := fun f => f.toInt64.toInt
      uint := Float.toUInt64
      uint16 := Float.toUInt16 }
  let meanwhile : Meanwhile := ⟨fun _ => (10, -1), ∅⟩
  let pdata : JsonObject := Finmap.insert "altitude" (.string "high") ∅
  let v : Vehicle := Vehicle.NewVehicle (Mavlink.NewEncoder none) 0
  have hserve :
      (fun served : Response × Vehicle =>
        (served.1.code, served.2.commandQueue.Size))
          (ServeHTTP platform meanwhile
            ⟨"/api/drone/takeoff", .object pdata⟩ v) = (500, 1) := by
    decide +kernel
  simp only [Prod.mk.injEq] at hserve
  have hqueue := hall platform meanwhile
    ⟨"/api/drone/takeoff", .object pdata⟩ v
    (by rw [IsError, hserve.1]; decide)
  rw [hqueue] at hserve
  exact absurd hserve.2 (by decide)

end Requests

end DronesmithEngine.Apiservice
