import DronesmithEngine.Vehicle
import Mathlib.Tactic

/-!
# The HTTP service

The requests of `apiservice/apiservice.go` that change a vehicle.  Their
bodies are untyped JSON, so a handler asserts the type of every field it
uses, and an assertion that fails panics; the server answers for the panic,
with the vehicle as the handler left it.  Writing an answer does not fail.
-/

namespace DronesmithEngine.Apiservice

open Go Api

inductive Json
  | null
  | bool (b : Bool)
  | number (f : Float)
  | string (s : String)
  | array (values : List Json)
  | object (members : List (String × Json))

namespace Json

def asBool : Json → Checked Bool
  | .bool b => .ok b
  | _ => .error .typeAssertion

def asFloat64 : Json → Checked Float
  | .number f => .ok f
  | _ => .error .typeAssertion

def asString : Json → Checked String
  | .string s => .ok s
  | _ => .error .typeAssertion

def asArray : Json → Checked (List Json)
  | .array values => .ok values
  | _ => .error .typeAssertion

/-- The assertion of a field that may be left out, or be null. -/
def unlessNil {α : Type} (assert : Json → Checked α) :
    Json → Checked (Option α)
  | .null => .ok none
  | value => some <$> assert value

end Json

abbrev JsonObject := GoMap String Json

/-- The value of a key, which is nil for a missing one. -/
def get (data : JsonObject) (key : String) : Json :=
  (data.lookup key).getD .null

inductive PostBody
  | invalid (err : String)
  | empty
  | object (pdata : JsonObject)

/-- What the language leaves open or takes from its library: lower-case
letters, the order of a range over a map, and conversions of numbers that do
not fit. -/
structure Platform where
  ToLower : String → String
  rangeOrder : JsonObject → List String
  int : Float → ℤ
  uint : Float → UInt64
  uint16 : Float → UInt16

/-- What other goroutines leave for a request that sleeps: the last command
and its result at each poll, and the parameters. -/
structure Meanwhile where
  lastCommand : ℕ → ℤ × ℤ
  params : GoMap (List UInt8) Param

inductive ResponseBody
  | none
  | text (s : String)
  | error (s : String)
  | entry (key value : String)
  | command (Status : String) (StatusCode Command : ℤ)

structure Response where
  code : ℕ
  body : ResponseBody

namespace Response

def SendAPIJSON (data : ResponseBody) : Response := ⟨200, data⟩

def SendAPIError (err : String) : Response := ⟨400, .error err⟩

def Send404 : Response := ⟨404, .none⟩

def panicked : Response where
  code := 500
  body := .text
    "I couldn't parse your request. Make sure you are formating your JSON properly, including types.\n"

def IsError (r : Response) : Prop := 400 ≤ r.code

end Response

open Response

abbrev Handler := Effect Vehicle Response

/-! ## Waiting for a command -/

/-- The polls that are left, after `attempts`, and what the last one saw. -/
def pollCommand (cmd : ℤ) (meanwhile : Meanwhile) :
    ℕ → ℕ → String × ℤ → Handler
  | 0, _, (ack, num) => pure (SendAPIJSON (.command ack num cmd))
  | left + 1, attempts, _ => do
      Effect.modify (fun veh =>
        { veh with
          commandLast := (meanwhile.lastCommand attempts).1
          commandLastInfo := (meanwhile.lastCommand attempts).2 })
      let (op, ack, num) ← Effect.read Vehicle.GetLastSuccessfulCmd
      if op = cmd ∧ num ≠ 10 then
        Effect.modify Vehicle.NullLastSuccessfulCmd
        pure (SendAPIJSON (.command ack num cmd))
      else pollCommand cmd meanwhile left (attempts + 1) (ack, num)

def commandBlock (cmd : ℤ) (meanwhile : Meanwhile) : Handler :=
  pollCommand cmd meanwhile 10 0 ("", 0)

/-! ## Handlers -/

section Handlers

variable (platform : Platform) (meanwhile : Meanwhile)

def handleArmDisarm (arming : Bool) : Handler := do
  Effect.modify (fun veh => veh.SetModeAndArm false true "" arming)
  commandBlock 176 meanwhile

def handleModeArm (postData : JsonObject) : Handler := do
  -- Here null is not taken for a missing field.
  let arming ← Effect.lift ((postData.lookup "arm").mapM Json.asBool)
  let mode ← Effect.lift ((postData.lookup "mode").mapM Json.asString)
  Effect.modify (fun veh =>
    veh.SetModeAndArm mode.isSome arming.isSome (mode.getD "")
      (arming.getD false))
  commandBlock 176 meanwhile

def handleSetHome (postData : JsonObject) : Handler := do
  let home ← Effect.read (fun veh => veh.api.GetHome)
  let lat ← Effect.lift ((get postData "lat").unlessNil Json.asFloat64)
  let lon ← Effect.lift ((get postData "lon").unlessNil Json.asFloat64)
  let alt ← Effect.lift ((get postData "alt").unlessNil Json.asFloat64)
  let rel ← Effect.lift ((get postData "relative").unlessNil Json.asBool)
  Effect.modify (fun veh =>
    veh.SetHome (lat.getD home.Latitude.toFloat).toFloat32
      (lon.getD home.Longitude.toFloat).toFloat32
      (alt.getD home.Altitude.toFloat).toFloat32 (rel.getD false))
  commandBlock 179 meanwhile

def handleSetParam (path : String) (data : JsonObject) : Handler := do
  let val ← Effect.lift (get data "value").asFloat64
  match ← Vehicle.SetParam path.toUTF8.toList val.toFloat32
      meanwhile.params with
  | some err => pure (SendAPIError err)
  | none => pure (SendAPIJSON (.entry "Status" "OK"))

def storeNumbers {α : Type} {n : ℕ} (convert : Float → α) :
    List Json → ℕ → Vector α n → Checked (Vector α n)
  | [], _, xs => .ok xs
  | e :: vals, i, xs => do
      let arg ← e.asFloat64
      if hi : i < n then
        storeNumbers convert vals (i + 1) (xs.set i (convert arg) hi)
      else .error .indexOutOfRange

def handleInput (postData : JsonObject) : Handler := do
  let t ← Effect.lift (get postData "type").asString
  let e ← Effect.lift (get postData "enabled").asBool
  let ts ← Effect.lift ((get postData "timeout").unlessNil Json.asFloat64)
  if t = "radio" then
    let vals ← Effect.lift (get postData "channels").asArray
    let channels ← Effect.lift
      (storeNumbers platform.uint16 vals 0 (Vector.replicate 8 65535))
    Effect.modify (fun veh =>
      veh.SendRCOverride channels e (platform.uint (ts.getD 0)))
    pure (SendAPIJSON (.entry "Status" "OK"))
  else pure (SendAPIError ("Invalid input type: " ++ t))

def handleCommand (postData : JsonObject) : Handler := do
  match get postData "command" with
  | .null => pure (SendAPIError "Command is required.")
  | command =>
      let cmd ← Effect.lift command.asFloat64
      let args ← Effect.lift
        ((get postData "args").unlessNil Json.asArray)
      let params ← Effect.lift
        (storeNumbers Float.toFloat32 (args.getD []) 0
          (Vector.replicate 7 0))
      Effect.modify (fun veh =>
        veh.DoGenericCommand (platform.int cmd) params)
      commandBlock (platform.int cmd) meanwhile

def handleLand : Handler := do
  Effect.modify (fun veh =>
    veh.DoGenericCommand 21 (Vector.replicate 7 0))
  commandBlock 21 meanwhile

def coordinate (useRelPos : Bool) (here : Float32) :
    Option Float → Float32
  | some val => if useRelPos then here + val.toFloat32 else val.toFloat32
  | none => here

/-- The arguments that `handleGuided` reads after it has pushed the mode. -/
def guidedParams (loc : Coordinates) (MASLAlt : Float32)
    (postData : JsonObject) : Checked (Vector Float32 7) := do
  let useRelAlt ← (get postData "relativealt").unlessNil Json.asBool
  let useRelPos ← (get postData "relativepos").unlessNil Json.asBool
  let speed ← (get postData "speed").unlessNil Json.asFloat64
  let heading ← (get postData "heading").unlessNil Json.asFloat64
  let altitude ← (get postData "altitude").unlessNil Json.asFloat64
  let lat ← (get postData "lat").unlessNil Json.asFloat64
  let lon ← (get postData "lon").unlessNil Json.asFloat64
  let alt :=
    match altitude with
    | some val =>
        if useRelAlt.getD true then val.toFloat32 + MASLAlt
        else val.toFloat32
    | none => MASLAlt
  pure
    #v[(speed.map Float.toFloat32).getD (-1), 0, 0,
      (heading.map Float.toFloat32).getD 0,
      coordinate (useRelPos.getD false) loc.Latitude lat,
      coordinate (useRelPos.getD false) loc.Longitude lon, alt]

def handleGuided (postData : JsonObject) : Handler := do
  let loc ← Effect.read (fun veh => veh.api.GetGlobal)
  Effect.modify (fun veh => veh.SetModeAndArm true false "Hold" true)
  let MASLAlt ← Effect.read (fun veh => veh.api.GetMASLAlt)
  let params ← Effect.lift (guidedParams loc MASLAlt postData)
  Effect.modify (fun veh => veh.DoGenericCommand 192 params)
  commandBlock 192 meanwhile

/-- The arguments that `handleTakeoff` reads after it has pushed the mode. -/
def takeoffParams (global : Coordinates) (MASLAlt : Float32)
    (postData : JsonObject) : Checked (Vector Float32 7) := do
  let useRelPos ← (get postData "relativepos").unlessNil Json.asBool
  let useRelAlt ← (get postData "relativealt").unlessNil Json.asBool
  let heading ← (get postData "heading").unlessNil Json.asFloat64
  let altitude ← (get postData "altitude").unlessNil Json.asFloat64
  let lat ← (get postData "lat").unlessNil Json.asFloat64
  let lon ← (get postData "lon").unlessNil Json.asFloat64
  let alt :=
    match altitude with
    | some val =>
        if useRelAlt.getD true then val.toFloat32 + MASLAlt
        else val.toFloat32
    | none => 10 + MASLAlt
  pure
    #v[0, 0, 0, (heading.map Float.toFloat32).getD 0,
      coordinate (useRelPos.getD false) global.Latitude lat,
      coordinate (useRelPos.getD false) global.Longitude lon, alt]

def handleTakeoff (postData : JsonObject) : Handler := do
  let global ← Effect.read (fun veh => veh.api.GetGlobal)
  Effect.modify (fun veh => veh.SetModeAndArm true true "Takeoff" true)
  let MASLAlt ← Effect.read (fun veh => veh.api.GetMASLAlt)
  let params ← Effect.lift (takeoffParams global MASLAlt postData)
  Effect.modify (fun veh => veh.DoGenericCommand 22 params)
  commandBlock 22 meanwhile

/-! ## Routing -/

structure PostRequest where
  Path : String
  Body : PostBody

def filteredPath (req : PostRequest) : List String :=
  ((req.Path.toList.splitOn '/').map String.ofList).filter (· ≠ "")

/-- The pattern of `n` characters of a class, anywhere in the string. -/
def matchRun (inClass : Char → Bool) (n : ℕ) (s : String) : Bool :=
  s.toList.tails.any fun rest => n ≤ (rest.takeWhile inClass).length

/-- `[a-z0-9]{24}` -/
def idRgxp (s : String) : Bool :=
  matchRun (fun c => c.isLower || c.isDigit) 24 s

/-- `[A-Za-z0-9-]{5,24}` -/
def nameRgxp (s : String) : Bool :=
  matchRun (fun c => c.isAlphanum || c == '-') 5 s

def toLowerJSON (data : JsonObject) : JsonObject :=
  (platform.rangeOrder data).foldl
    (fun data str =>
      match data.lookup str with
      | some value => data.insert (platform.ToLower str) value
      | none => data)
    data

def handlePost (kind : String) (rest : List String) (pdata : JsonObject) :
    Handler :=
  match kind with
  | "arm" => handleArmDisarm meanwhile true
  | "disarm" => handleArmDisarm meanwhile false
  | "takeoff" => handleTakeoff meanwhile pdata
  | "land" => handleLand meanwhile
  | "goto" => handleGuided meanwhile pdata
  | "input" => handleInput platform pdata
  | "mode" => handleModeArm meanwhile pdata
  | "command" => handleCommand platform meanwhile pdata
  | "param" =>
      match rest with
      | [] => pure Send404
      | path :: _ => handleSetParam meanwhile path pdata
  | "home" => handleSetHome meanwhile pdata
  | _ => pure Send404

def servePost (req : PostRequest) : Handler :=
  match filteredPath req with
  | _ :: drone :: kind :: rest =>
      if ¬ idRgxp drone ∧ ¬ nameRgxp drone then pure Send404
      else
        match req.Body with
        | .invalid err => pure (SendAPIError err)
        | .empty => handlePost platform meanwhile kind rest ∅
        | .object pdata =>
            handlePost platform meanwhile kind rest
              (toLowerJSON platform pdata)
  | _ => pure (SendAPIJSON (.entry "status" "OK"))

/-- `ServeHTTP`, for a request to post. -/
def ServeHTTP (req : PostRequest) : Vehicle → Response × Vehicle :=
  Effect.recover panicked (servePost platform meanwhile req)

end Handlers

end DronesmithEngine.Apiservice
