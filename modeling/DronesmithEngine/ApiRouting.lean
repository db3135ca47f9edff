import DronesmithEngine.ApiService
import Mathlib.Tactic

/-!
# Routing of the HTTP service

`ServeHTTP` of `apiservice/apiservice.go` for any method: which handler it
calls for the segments of a path, with the arguments it takes from them.
Every index into the segments can be out of range.
-/

namespace DronesmithEngine.Apiservice

open Go

inductive PostRoute
  | handleArmDisarm (arming : Bool)
  | handleTakeoff
  | handleLand
  | handleGuided
  | handleInput
  | handleModeArm
  | handleCommand
  | handleSetParam (path : String)
  | handleSetHome
  | Send404

inductive Route
  /-- All telemetry. -/
  | Telem
  /-- The status page. -/
  | status
  | redirect
  | handleTelem (kind : String)
  | handleLog
  | handleGetSingleParam (name : String)
  | handleGetAllParams
  | handleRefreshParams
  | post (route : PostRoute)
  | Send404

/-- The key of the telemetry that a segment stands for. -/
def telemKind : String → Option String
  | "info" => some "Info"
  | "status" => some "Status"
  | "gps" => some "Gps"
  | "mode" => some "Mode"
  | "attitude" => some "Attitude"
  | "position" => some "Position"
  | "motors" => some "Motors"
  | "input" => some "Input"
  | "rates" => some "Rates"
  | "target" => some "Target"
  | "sensors" => some "Sensors"
  | "home" => some "Home"
  | _ => none

def routeGet (filteredPath : List String) : Checked Route := do
  let kind ← index filteredPath 2
  match telemKind kind with
  | some key => pure (.handleTelem key)
  | none =>
      if kind = "log" then pure .handleLog
      else if kind = "param" then
        if filteredPath.length < 4 then pure .Send404
        else do
          let name ← index filteredPath 4
          pure (.handleGetSingleParam name)
      else if kind = "params" then
        if filteredPath.length < 4 then pure .handleGetAllParams
        else do
          let sub ← index filteredPath 3
          if sub = "refresh" then pure .handleRefreshParams
          else pure .Send404
      else pure .Send404

def routePost (filteredPath : List String) : Checked PostRoute := do
  match ← index filteredPath 2 with
  | "arm" => pure (.handleArmDisarm true)
  | "disarm" => pure (.handleArmDisarm false)
  | "takeoff" => pure .handleTakeoff
  | "land" => pure .handleLand
  | "goto" => pure .handleGuided
  | "input" => pure .handleInput
  | "mode" => pure .handleModeArm
  | "command" => pure .handleCommand
  | "param" =>
      if filteredPath.length < 4 then pure .Send404
      else do
        let path ← index filteredPath 3
        pure (.handleSetParam path)
  | "home" => pure .handleSetHome
  | _ => pure .Send404

/-- A request to get everything. -/
def getsAll (method : String) (filteredPath : List String) :
    Checked Bool :=
  if 2 < filteredPath.length then do
    let kind ← index filteredPath 2
    pure (kind == "*" && method == "GET")
  else pure false

def route (method : String) (filteredPath : List String) :
    Checked Route := do
  if ← getsAll method filteredPath then pure .Telem
  else if filteredPath.length ≤ 2 then pure .status
  else do
    let drone ← index filteredPath 1
    if ¬ idRgxp drone ∧ ¬ nameRgxp drone then pure .Send404
    else if method = "GET" then
      -- No requests.
      if filteredPath.length < 3 then pure .redirect
      else routeGet filteredPath
    else if method = "POST" then do
      let handler ← routePost filteredPath
      pure (.post handler)
    else pure .Send404

/-! ## Requests to post -/

section

variable (platform : Platform) (meanwhile : Meanwhile)

def PostRoute.serve (pdata : JsonObject) : PostRoute → Handler
  | .handleArmDisarm arming => Apiservice.handleArmDisarm meanwhile arming
  | .handleTakeoff => Apiservice.handleTakeoff meanwhile pdata
  | .handleLand => Apiservice.handleLand meanwhile
  | .handleGuided => Apiservice.handleGuided meanwhile pdata
  | .handleInput => Apiservice.handleInput platform pdata
  | .handleModeArm => Apiservice.handleModeArm meanwhile pdata
  | .handleCommand => Apiservice.handleCommand platform meanwhile pdata
  | .handleSetParam path => Apiservice.handleSetParam meanwhile path pdata
  | .handleSetHome => Apiservice.handleSetHome meanwhile pdata
  | .Send404 => pure Response.Send404

/-- The handler of a request to post is the one that it is routed to. -/
theorem handlePost_eq_serve (first drone kind : String)
    (rest : List String) (pdata : JsonObject) :
    ∃ handler, routePost (first :: drone :: kind :: rest) = .ok handler ∧
      handlePost platform meanwhile kind rest pdata =
        handler.serve platform meanwhile pdata := by
  unfold routePost
  simp only [index, List.getElem?_cons_succ, List.getElem?_cons_zero,
    ok_bind]
  split
  case h_9 =>
    cases rest with
    | nil => exact ⟨.Send404, rfl, rfl⟩
    | cons path rest => exact ⟨.handleSetParam path, rfl, rfl⟩
  case h_11 =>
    refine ⟨.Send404, rfl, ?_⟩
    unfold handlePost
    split
    case h_11 => rfl
    all_goals contradiction
  all_goals exact ⟨_, rfl, rfl⟩

end

/-! ## Indices in range -/

variable (method first drone kind : String) (rest : List String)

def ValidDrone (drone : String) : Prop := idRgxp drone ∨ nameRgxp drone

theorem not_validDrone_iff :
    (¬ idRgxp drone ∧ ¬ nameRgxp drone) ↔ ¬ ValidDrone drone :=
  not_or.symm

theorem routePost_ok :
    ∃ handler, routePost (first :: drone :: kind :: rest) = .ok handler := by
  unfold routePost
  simp only [index, List.getElem?_cons_succ, List.getElem?_cons_zero,
    ok_bind]
  split
  case h_9 => cases rest <;> exact ⟨_, rfl⟩
  all_goals exact ⟨_, rfl⟩

theorem route_cons :
    route method (first :: drone :: kind :: rest) =
      if kind == "*" && method == "GET" then .ok .Telem
      else if ¬ idRgxp drone ∧ ¬ nameRgxp drone then .ok .Send404
      else if method = "GET" then routeGet (first :: drone :: kind :: rest)
      else if method = "POST" then
        Route.post <$> routePost (first :: drone :: kind :: rest)
      else .ok .Send404 := by
  have hlong : 2 < (first :: drone :: kind :: rest).length := by simp
  have hgets : getsAll method (first :: drone :: kind :: rest) =
      .ok (kind == "*" && method == "GET") := if_pos hlong
  have hdrone : index (first :: drone :: kind :: rest) 1 = .ok drone := rfl
  unfold route
  rw [hgets, ok_bind]
  by_cases hall : (kind == "*" && method == "GET") = true
  · rw [if_pos hall, if_pos hall]
    rfl
  · rw [if_neg hall, if_neg hall, if_neg (not_le.mpr hlong), hdrone, ok_bind,
      if_neg (not_lt.mpr hlong)]
    rfl

theorem routeGet_ok_iff :
    (∃ r, routeGet (first :: drone :: kind :: rest) = .ok r) ↔
      ¬ (kind = "param" ∧ rest.length = 1) := by
  have hkind : index (first :: drone :: kind :: rest) 2 = .ok kind := rfl
  unfold routeGet
  rw [hkind, ok_bind]
  by_cases hparam : kind = "param"
  · subst hparam
    match rest with
    | [] => exact iff_of_true ⟨_, rfl⟩ (by simp)
    | [name] => exact iff_of_false (fun ⟨_, hok⟩ => by cases hok) (by simp)
    | name :: next :: rest => exact iff_of_true ⟨_, rfl⟩ (by simp)
  · refine iff_of_true ?_ fun hone => hparam hone.1
    cases telemKind kind with
    | some key => exact ⟨_, rfl⟩
    | none =>
        simp only [if_neg hparam]
        by_cases hlog : kind = "log"
        · exact ⟨_, if_pos hlog⟩
        · rw [if_neg hlog]
          by_cases hparams : kind = "params"
          · rw [if_pos hparams]
            cases rest with
            | nil => exact ⟨_, rfl⟩
            | cons sub rest =>
                by_cases hrefresh : sub = "refresh"
                · exact ⟨_, if_pos hrefresh⟩
                · exact ⟨_, if_neg hrefresh⟩
          · exact ⟨_, if_neg hparams⟩

theorem route_ok_iff :
    (∀ method, ∃ r, route method (first :: drone :: kind :: rest) = .ok r) ↔
      ¬ (ValidDrone drone ∧ kind = "param" ∧ rest.length = 1) := by
  constructor
  · rintro hall ⟨hvalid, hone⟩
    obtain ⟨r, hr⟩ := hall "GET"
    have hstar : ¬ (kind == "*" && "GET" == "GET") = true := by
      rw [hone.1]
      decide
    rw [route_cons, if_neg hstar, if_neg (fun h => (not_validDrone_iff drone).mp h hvalid),
      if_pos rfl] at hr
    exact (routeGet_ok_iff first drone kind rest).mp ⟨r, hr⟩ hone
  · intro hnot method
    rw [route_cons]
    split
    · exact ⟨_, rfl⟩
    · split
      · exact ⟨_, rfl⟩
      next hvalid =>
        split
        · rw [routeGet_ok_iff]
          rw [not_validDrone_iff, not_not] at hvalid
          exact fun hone => hnot ⟨hvalid, hone⟩
        · split
          · obtain ⟨handler, hhandler⟩ := routePost_ok first drone kind rest
            exact ⟨.post handler, by rw [hhandler]; rfl⟩
          · exact ⟨_, rfl⟩

/-! ## The parameter that a path names -/

/-- The non-empty segments of a path. -/
def segments (Path : String) : List String := filteredPath ⟨Path, .empty⟩

def parameter : Checked Route → Option String
  | .ok (.handleGetSingleParam name) => some name
  | .ok (.post (.handleSetParam path)) => some path
  | _ => none

/-- No index is out of range, and to get a parameter and to set it is to
name it in the same way. -/
structure RoutesWell (Path : String) : Prop where
  inRange : ∀ method, ∃ r, route method (segments Path) = .ok r
  sameParameter : ∀ name, segments Path = ["api", "drone", "param", name] →
    parameter (route "GET" (segments Path)) = some name ∧
      parameter (route "POST" (segments Path)) = some name

theorem validDrone_drone : ValidDrone "drone" := Or.inr (by decide)

/-- A path is routed well unless it names a parameter of a drone and nothing
more. -/
theorem routesWell_iff (Path : String) :
    RoutesWell Path ↔
      ¬ ∃ first drone name, segments Path = [first, drone, "param", name] ∧
        ValidDrone drone := by
  generalize hsegments : segments Path = path
  have hwell : RoutesWell Path ↔
      (∀ method, ∃ r, route method path = .ok r) ∧
        ∀ name, path = ["api", "drone", "param", name] →
          parameter (route "GET" path) = some name ∧
            parameter (route "POST" path) = some name := by
    rw [← hsegments]
    exact ⟨fun h => ⟨h.1, h.2⟩, fun h => ⟨h.1, h.2⟩⟩
  rw [hwell]
  match path with
  | first :: drone :: kind :: rest =>
      rw [route_ok_iff]
      constructor
      · rintro ⟨hnot, -⟩ ⟨first', drone', name, heq, hvalid⟩
        simp only [List.cons.injEq] at heq
        obtain ⟨-, rfl, rfl, rfl⟩ := heq
        exact hnot ⟨hvalid, rfl, rfl⟩
      · intro hnot
        refine ⟨?_, fun name heq => ?_⟩
        · rintro ⟨hvalid, rfl, hlength⟩
          obtain ⟨name, rfl⟩ := List.length_eq_one_iff.mp hlength
          exact hnot ⟨first, drone, name, rfl, hvalid⟩
        · exact absurd ⟨"api", "drone", name, heq, validDrone_drone⟩ hnot
  | [] | [_] | [_, _] =>
      refine iff_of_true ⟨fun method => ⟨.status, rfl⟩, nofun⟩ ?_
      rintro ⟨_, _, _, heq, -⟩
      cases heq

/-- Where there is a further segment, it is the one that names the parameter
to get, and not the one that names the parameter to set. -/
theorem parameter_of_longer {drone : String} (hvalid : ValidDrone drone)
    (first path name : String) (rest : List String) :
    parameter (route "GET" (first :: drone :: "param" :: path :: name ::
        rest)) = some name ∧
      parameter (route "POST" (first :: drone :: "param" :: path :: name ::
        rest)) = some path := by
  have hdrone : ¬ (¬ idRgxp drone ∧ ¬ nameRgxp drone) := fun h =>
    (not_validDrone_iff drone).mp h hvalid
  rw [route_cons, route_cons, if_neg (by decide), if_neg hdrone, if_pos rfl,
    if_neg (by decide), if_neg hdrone, if_neg (by decide), if_pos rfl]
  exact ⟨rfl, rfl⟩

theorem get_parameter_out_of_range :
    ¬ ∀ Path, RoutesWell Path := by
  intro hall
  have hsegments : segments "/api/drone/param/RATE" =
      ["api", "drone", "param", "RATE"] := by
    decide
  have hrange := (hall "/api/drone/param/RATE").inRange
  rw [hsegments, route_ok_iff] at hrange
  exact hrange ⟨validDrone_drone, rfl, rfl⟩

end DronesmithEngine.Apiservice
