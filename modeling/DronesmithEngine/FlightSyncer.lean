import DronesmithEngine.ApiService
import Mathlib.Tactic

/-!
# Uploading flights

`upload` of `cloudlink/flightsyncer.go`.  What the file system and the server
do is an environment; a removal that fails leaves the file, and is not
recorded.  The answers of both requests are decoded into one map.
-/

namespace DronesmithEngine.Cloudlink

open Go Apiservice

def MAX_UPLOAD_SIZE : ℕ := 50000000

structure FlightSyncer where
  DroneId : String
  UserId : String

/-! ## Decoding answers -/

/-- The body of a response: no JSON text, or the value of one. -/
inductive Body
  | invalid
  | json (value : Json)

inductive UnmarshalError
  | invalidText
  | wrongType
  deriving DecidableEq

abbrev StringMap := GoMap String String

/-- `m[key]`, which is empty for a missing key. -/
def get (m : StringMap) (key : String) : String := (m.lookup key).getD ""

/-- Storing a member; a value that is no string is stored as an empty one, and
is an error unless it is null. -/
def storeMember (acc : Option UnmarshalError × StringMap) :
    String × Json → Option UnmarshalError × StringMap
  | (key, .string s) => (acc.1, acc.2.insert key s)
  | (key, .null) => (acc.1, acc.2.insert key "")
  | (key, _) => (some .wrongType, acc.2.insert key "")

/-- `json.Unmarshal` keeps the entries that the map has already.  A null makes
it a nil map, which reads like an empty one. -/
def Unmarshal (m : StringMap) : Body → Option UnmarshalError × StringMap
  | .invalid => (some .invalidText, m)
  | .json .null => (none, ∅)
  | .json (.object members) => members.foldl storeMember (none, m)
  | .json _ => (some .wrongType, m)

/-! ## The upload -/

/-- The result of one `Read` from the start of a file.  It fills at most the
buffer, and finds the end of an empty file only. -/
inductive ReadResult (size : ℕ)
  | failed
  | eof (hempty : size = 0)
  | bytes (n : ℕ) (hpos : 0 < n) (hn : n ≤ size) (hcap : n ≤ MAX_UPLOAD_SIZE)

/-- The outcome of a request and of reading the body of its response. -/
inductive HttpResult
  | failed
  | unreadable
  | response (body : Body)

structure Environment where
  DSCHttp : String
  content : List UInt8
  opens : Bool
  read : ReadResult content.length
  post : HttpResult
  validURL : String → Bool
  put : HttpResult
  removes : Bool

inductive Action
  | post (url ctype : String) (data : List UInt8)
  | put (url ctype : String) (data : StringMap)
  | remove

abbrev Syncing := Effect (List Action)

def perform (action : Action) : Syncing Unit :=
  Effect.modify (· ++ [action])

/-- `os.Remove`, with whether it succeeded. -/
def Remove (env : Environment) : Syncing Bool := do
  if env.removes then
    perform .remove
    pure true
  else pure false

/-- The error of `NewRequest` is ignored, and the request is nil then. -/
def put (env : Environment) (url ctype : String) (data : StringMap) :
    Syncing (Option Body) := do
  if env.validURL url then
    perform (.put url ctype data)
    match env.put with
    | .failed => pure none
    | .unreadable => pure none
    | .response body => pure (some body)
  else Effect.lift (.error .nilDereference)

def associateURL (env : Environment) (resMap : StringMap) : String :=
  env.DSCHttp ++ "/rt/mission/" ++ get resMap "id" ++ "/associate"

/-- The part of `upload` after a POST that was answered `OK`. -/
def associate (fs : FlightSyncer) (env : Environment) (resMap : StringMap) :
    Syncing Bool := do
  let sendMap : StringMap :=
    ((∅ : StringMap).insert "user" fs.UserId).insert "drone" fs.DroneId
  match ← put env (associateURL env resMap) "application/json" sendMap with
  | none => pure false
  | some body =>
      match Unmarshal resMap body with
      | (some _, _) => pure false
      | (none, resMap) =>
          if get resMap "status" = "OK" then Remove env else pure false

/-- The part of `upload` after a successful `Read`. -/
def send (fs : FlightSyncer) (env : Environment) (chunk : List UInt8) :
    Syncing Bool := do
  perform
    (.post (env.DSCHttp ++ "/rt/mission/mavlinkBinary")
      "application/octet-stream" chunk)
  match env.post with
  | .failed => pure false
  | .unreadable => pure false
  | .response body =>
      match Unmarshal ∅ body with
      | (some _, _) => pure false
      | (none, resMap) =>
          if get resMap "status" = "OK" then associate fs env resMap
          else pure false

def upload (fs : FlightSyncer) (env : Environment) : Syncing Bool := do
  if fs.DroneId = "" then pure false
  else if ¬ env.opens then pure false
  else
    match env.read with
    | .failed => pure false
    | .eof _ => do
        let _ ← Remove env
        pure false
    | .bytes n _ _ _ => send fs env (env.content.take n)

def actions (fs : FlightSyncer) (env : Environment) : List Action :=
  (upload fs env []).2

/-! ## What an answer says by itself -/

/-- The answer is `OK` when it is decoded into a map of its own. -/
def ReportsOK (body : Body) : Prop :=
  ∃ m, Unmarshal ∅ body = (none, m) ∧ get m "status" = "OK"

/-- The answer can be decoded, and says nothing about a status. -/
def Silent (body : Body) : Prop :=
  ∃ members : List (String × Json), body = .json (.object members) ∧
    (Unmarshal ∅ body).1 = none ∧ "status" ∉ members.map Prod.fst

/-- The whole file was sent, and both requests were answered `OK`. -/
structure Synced (fs : FlightSyncer) (env : Environment) : Prop where
  posted : ∃ url ctype, .post url ctype env.content ∈ actions fs env
  accepted : ∃ body, env.post = .response body ∧ ReportsOK body
  associated : ∃ body, env.put = .response body ∧ ReportsOK body

def RemovesSafely (fs : FlightSyncer) (env : Environment) : Prop :=
  .remove ∈ actions fs env → env.content = [] ∨ Synced fs env

structure PostOK (env : Environment) (resMap : StringMap) : Prop where
  answer : ∃ body, env.post = .response body ∧
    Unmarshal ∅ body = (none, resMap)
  status : get resMap "status" = "OK"

/-- The file was opened, and `Read` returned its first `n` bytes. -/
structure Chunk (fs : FlightSyncer) (env : Environment) (n : ℕ) : Prop where
  droneId : fs.DroneId ≠ ""
  opens : env.opens
  read : ∃ hpos hn hcap, env.read = .bytes n hpos hn hcap

/-- The first `n` bytes were sent and the POST was answered `OK`, so that the
answer of the PUT decides about the file. -/
structure Accepted (fs : FlightSyncer) (env : Environment) (n : ℕ)
    (resMap : StringMap) : Prop where
  chunk : Chunk fs env n
  post : PostOK env resMap
  validURL : env.validURL (associateURL env resMap)

/-- Once the POST was answered `OK`, the answer of the PUT has a status of
its own, and if that is `OK`, the one `Read` had returned the whole file. -/
def Careful (fs : FlightSyncer) (env : Environment) : Prop :=
  ∀ n resMap body, env.removes → Accepted fs env n resMap →
    env.put = .response body →
      ¬ Silent body ∧ (ReportsOK body → n = env.content.length)

/-! ## Decoding into a map that has entries -/

theorem storeMember_error (err : Option UnmarshalError) (m m' : StringMap)
    (member : String × Json) :
    (storeMember (err, m) member).1 = (storeMember (err, m') member).1 := by
  obtain ⟨key, value⟩ := member
  cases value <;> rfl

theorem storeMember_lookup_self (err : Option UnmarshalError)
    (m m' : StringMap) (member : String × Json) :
    (storeMember (err, m) member).2.lookup member.1 =
      (storeMember (err, m') member).2.lookup member.1 := by
  obtain ⟨key, value⟩ := member
  cases value <;> simp [storeMember]

theorem storeMember_lookup_of_ne (err : Option UnmarshalError)
    (m : StringMap) {member : String × Json} {key : String}
    (hkey : key ≠ member.1) :
    (storeMember (err, m) member).2.lookup key = m.lookup key := by
  obtain ⟨name, value⟩ := member
  cases value <;> exact Finmap.lookup_insert_of_ne m hkey

/-- Whether decoding fails does not depend on the map. -/
theorem storeMembers_error (members : List (String × Json))
    (err : Option UnmarshalError) (m m' : StringMap) :
    (members.foldl storeMember (err, m)).1 =
      (members.foldl storeMember (err, m')).1 := by
  induction members generalizing err m m' with
  | nil => rfl
  | cons member members ih =>
      have herr := storeMember_error err m m' member
      rw [List.foldl_cons, List.foldl_cons,
        ← Prod.mk.eta (p := storeMember (err, m) member),
        ← Prod.mk.eta (p := storeMember (err, m') member), herr]
      exact ih _ _ _

/-- An entry after decoding is that of a member, or the one before. -/
theorem storeMembers_lookup (members : List (String × Json))
    (err : Option UnmarshalError) (m m' : StringMap) {key : String}
    (hkey : m.lookup key = m'.lookup key ∨ key ∈ members.map Prod.fst) :
    (members.foldl storeMember (err, m)).2.lookup key =
      (members.foldl storeMember (err, m')).2.lookup key := by
  induction members generalizing err m m' with
  | nil => simpa using hkey
  | cons member members ih =>
      have herr := storeMember_error err m m' member
      rw [List.foldl_cons, List.foldl_cons,
        ← Prod.mk.eta (p := storeMember (err, m) member),
        ← Prod.mk.eta (p := storeMember (err, m') member), herr]
      apply ih
      by_cases hname : key = member.1
      · left
        rw [hname]
        exact storeMember_lookup_self err m m' member
      · rcases hkey with hsame | hmem
        · left
          rw [storeMember_lookup_of_ne err m hname,
            storeMember_lookup_of_ne err m' hname, hsame]
        · right
          exact (List.mem_cons.mp hmem).resolve_left hname

theorem storeMembers_lookup_of_notMem (members : List (String × Json))
    (acc : Option UnmarshalError × StringMap) {key : String}
    (hkey : key ∉ members.map Prod.fst) :
    (members.foldl storeMember acc).2.lookup key = acc.2.lookup key := by
  induction members generalizing acc with
  | nil => rfl
  | cons member members ih =>
      rw [List.map_cons, List.mem_cons, not_or] at hkey
      rw [List.foldl_cons, ih _ hkey.2]
      exact storeMember_lookup_of_ne acc.1 acc.2 hkey.1

/-- A body that can be decoded is null or an object. -/
theorem Unmarshal_cases {m merged : StringMap} {body : Body}
    (hdecoded : Unmarshal m body = (none, merged)) :
    merged = ∅ ∨ ∃ members : List (String × Json),
      body = .json (.object members) ∧
        members.foldl storeMember (none, m) = (none, merged) := by
  cases body with
  | invalid => cases hdecoded
  | json value =>
      cases value with
      | null =>
          left
          exact (Prod.mk.inj hdecoded).2.symm
      | object members => exact Or.inr ⟨members, rfl, hdecoded⟩
      | _ => cases hdecoded

theorem get_of_lookup {m m' : StringMap} {key : String}
    (hsame : m.lookup key = m'.lookup key) : get m key = get m' key :=
  congrArg (fun entry => entry.getD "") hsame

/-- A status can be read from a map of its own only if a member has it. -/
theorem mem_of_status {members : List (String × Json)} {own : StringMap}
    (hfold : members.foldl storeMember (none, ∅) = (none, own))
    (hstatus : get own "status" = "OK") :
    "status" ∈ members.map Prod.fst := by
  by_contra hnot
  have hlookup := storeMembers_lookup_of_notMem members (none, ∅) hnot
  rw [hfold, Finmap.lookup_empty] at hlookup
  rw [get, hlookup] at hstatus
  exact absurd hstatus (by decide)

theorem Silent.not_reportsOK {body : Body} (hsilent : Silent body) :
    ¬ ReportsOK body := by
  rintro ⟨own, hdecoded, hstatus⟩
  obtain ⟨members, rfl, -, hnot⟩ := hsilent
  exact hnot (mem_of_status hdecoded hstatus)

/-- The status that decides after the second answer is that of the answer, or
is left from the first one. -/
theorem status_iff {m : StringMap} (hm : get m "status" = "OK") (body : Body) :
    (∃ merged, Unmarshal m body = (none, merged) ∧
        get merged "status" = "OK") ↔ ReportsOK body ∨ Silent body := by
  constructor
  · rintro ⟨merged, hdecoded, hstatus⟩
    rcases Unmarshal_cases hdecoded with rfl | ⟨members, rfl, hfold⟩
    · exact absurd hstatus (by decide)
    · have herr := storeMembers_error members none m ∅
      rw [hfold] at herr
      by_cases hmem : "status" ∈ members.map Prod.fst
      · left
        have hsame := storeMembers_lookup members none m ∅ (Or.inr hmem)
        rw [hfold] at hsame
        refine ⟨(members.foldl storeMember (none, ∅)).2,
          Prod.ext herr.symm rfl, ?_⟩
        rw [← get_of_lookup hsame]
        exact hstatus
      · exact Or.inr ⟨members, rfl, herr.symm, hmem⟩
  · rintro (⟨own, hdecoded, hstatus⟩ | ⟨members, rfl, herr, hmem⟩)
    · rcases Unmarshal_cases hdecoded with rfl | ⟨members, rfl, hfold⟩
      · exact absurd hstatus (by decide)
      · have herr := storeMembers_error members none m ∅
        have hmem := mem_of_status hfold hstatus
        have hsame := storeMembers_lookup members none m ∅ (Or.inr hmem)
        rw [hfold] at herr hsame
        refine ⟨(members.foldl storeMember (none, m)).2,
          Prod.ext herr rfl, ?_⟩
        rw [get_of_lookup hsame]
        exact hstatus
    · have hsame := storeMembers_error members none m ∅
      refine ⟨(members.foldl storeMember (none, m)).2,
        Prod.ext (hsame.trans herr) rfl, ?_⟩
      rw [get_of_lookup (storeMembers_lookup_of_notMem members (none, m) hmem)]
      exact hm

/-! ## What is sent and removed -/

/-- The computation adds the actions `rest` to those before. -/
def Adds {α : Type} (x : Syncing α) (rest : List Action) : Prop :=
  ∀ before, (x before).2 = before ++ rest

theorem adds_nil {α : Type} (a : α) : Adds (pure a : Syncing α) [] :=
  fun before => (List.append_nil before).symm

theorem Adds.perform {α : Type} {x : Syncing α} {rest : List Action}
    (hx : Adds x rest) (action : Action) :
    Adds (perform action >>= fun _ => x) (action :: rest) := by
  intro before
  have hnext := hx (before ++ [action])
  rw [List.append_assoc, List.singleton_append] at hnext
  exact hnext

theorem Adds.discard {α β : Type} {x : Syncing α} {rest : List Action}
    (hx : Adds x rest) (b : β) : Adds (x >>= fun _ => pure b) rest := by
  intro before
  rw [← hx before]
  rcases hstep : x before with ⟨e | a, after⟩
  · rw [Effect.bind_of_error hstep]
  · rw [Effect.bind_of_ok hstep]
    rfl

theorem remove_adds (env : Environment) :
    Adds (Remove env) (if env.removes then [.remove] else []) := by
  unfold Remove
  split
  · exact (adds_nil true).perform .remove
  · exact adds_nil false

/-- The PUT is answered, and the map then has the status `OK`. -/
structure Associates (env : Environment) (resMap : StringMap) : Prop where
  validURL : env.validURL (associateURL env resMap)
  answer : ∃ body merged, env.put = .response body ∧
    Unmarshal resMap body = (none, merged) ∧ get merged "status" = "OK"

section

variable (fs : FlightSyncer) (env : Environment) (resMap : StringMap)

def associateAction : Action :=
  .put (associateURL env resMap) "application/json"
    (((∅ : StringMap).insert "user" fs.UserId).insert "drone" fs.DroneId)

/-- What `associate` goes on with after the PUT. -/
def associated : Syncing Bool :=
  match env.put with
  | .response body =>
      match Unmarshal resMap body with
      | (some _, _) => pure false
      | (none, resMap) =>
          if get resMap "status" = "OK" then Remove env else pure false
  | _ => pure false

theorem associate_of_valid
    (hurl : env.validURL (associateURL env resMap)) :
    associate fs env resMap =
      (perform (associateAction fs env resMap) >>= fun _ =>
        associated env resMap) := by
  funext before
  simp only [associate, put, hurl, if_true, associated, associateAction]
  cases env.put <;> rfl

theorem associate_of_invalid
    (hurl : ¬ env.validURL (associateURL env resMap)) :
    Adds (associate fs env resMap) [] := by
  intro before
  simp only [associate, put, if_neg hurl, Effect.lift_error_bind,
    List.append_nil]

theorem associated_eq_remove (hassociates : Associates env resMap) :
    associated env resMap = Remove env := by
  obtain ⟨-, body, merged, hput, hdecode, hstatus⟩ := hassociates
  simp only [associated, hput, hdecode, hstatus, if_true]

theorem associated_eq_pure (hurl : env.validURL (associateURL env resMap))
    (hnot : ¬ Associates env resMap) :
    associated env resMap = pure false := by
  unfold associated
  cases hput : env.put with
  | response body =>
      rcases hdecode : Unmarshal resMap body with ⟨_ | err, merged⟩
      · have hstatus : ¬ get merged "status" = "OK" := fun hstatus =>
          hnot ⟨hurl, body, merged, hput, hdecode, hstatus⟩
        simp only [hdecode, if_neg hstatus]
      · simp only [hdecode]
  | _ => rfl

/-- What a list of actions says about the POST and the removal. -/
structure Records (rest : List Action) (posted : List (List UInt8))
    (removed : Prop) : Prop where
  post : ∀ data, (∃ url ctype, .post url ctype data ∈ rest) ↔ data ∈ posted
  remove : .remove ∈ rest ↔ removed

theorem associate_adds : ∃ rest, Adds (associate fs env resMap) rest ∧
    Records rest [] (env.removes ∧ Associates env resMap) := by
  by_cases hurl : env.validURL (associateURL env resMap)
  · rw [associate_of_valid fs env resMap hurl]
    by_cases hassociates : Associates env resMap
    · rw [associated_eq_remove env resMap hassociates]
      refine ⟨_, (remove_adds env).perform _, ⟨?_, ?_⟩⟩
      · intro data
        split <;> simp [associateAction]
      · split <;> simp_all [associateAction]
    · rw [associated_eq_pure env resMap hurl hassociates]
      refine ⟨_, (adds_nil false).perform _, ⟨?_, ?_⟩⟩
      · simp [associateAction]
      · simp [associateAction, hassociates]
  · refine ⟨[], associate_of_invalid fs env resMap hurl, ⟨by simp, ?_⟩⟩
    exact iff_of_false List.not_mem_nil (fun h => hurl h.2.validURL)

def postAction (chunk : List UInt8) : Action :=
  .post (env.DSCHttp ++ "/rt/mission/mavlinkBinary")
    "application/octet-stream" chunk

/-- What `send` goes on with after the POST. -/
def answered : Syncing Bool :=
  match env.post with
  | .response body =>
      match Unmarshal ∅ body with
      | (some _, _) => pure false
      | (none, resMap) =>
          if get resMap "status" = "OK" then associate fs env resMap
          else pure false
  | _ => pure false

theorem send_eq (chunk : List UInt8) :
    send fs env chunk =
      (perform (postAction env chunk) >>= fun _ => answered fs env) := by
  unfold send answered
  cases env.post <;> rfl

variable {env resMap}

theorem PostOK.unique {other : StringMap} (h : PostOK env resMap)
    (h' : PostOK env other) : resMap = other := by
  obtain ⟨⟨body, hbody, hdecode⟩, -⟩ := h
  obtain ⟨⟨body', hbody', hdecode'⟩, -⟩ := h'
  rw [hbody, HttpResult.response.injEq] at hbody'
  subst hbody'
  exact (Prod.mk.inj (hdecode.symm.trans hdecode')).2

theorem answered_eq_associate (hpost : PostOK env resMap) :
    answered fs env = associate fs env resMap := by
  obtain ⟨⟨body, hbody, hdecode⟩, hstatus⟩ := hpost
  simp only [answered, hbody, hdecode, hstatus, if_true]

theorem answered_eq_pure (hnot : ∀ resMap, ¬ PostOK env resMap) :
    answered fs env = pure false := by
  unfold answered
  cases hbody : env.post with
  | response body =>
      rcases hdecode : Unmarshal ∅ body with ⟨_ | err, resMap⟩
      · have hstatus : ¬ get resMap "status" = "OK" := fun hstatus =>
          hnot resMap ⟨⟨body, hbody, hdecode⟩, hstatus⟩
        simp only [hdecode, if_neg hstatus]
      · simp only [hdecode]
  | _ => rfl

theorem Records.afterPost {rest : List Action} {removed : Prop}
    (hrest : Records rest [] removed) (chunk : List UInt8) :
    Records (postAction env chunk :: rest) [chunk] removed where
  post data := by
    have hnone := hrest.post data
    simp only [List.not_mem_nil, iff_false, not_exists] at hnone
    simp [postAction, hnone]
  remove := by
    rw [← hrest.remove]
    simp [postAction]

variable (env) in
theorem send_adds (chunk : List UInt8) :
    ∃ rest, Adds (send fs env chunk) rest ∧
      Records rest [chunk]
        (env.removes ∧
          ∃ resMap, PostOK env resMap ∧ Associates env resMap) := by
  rw [send_eq]
  by_cases hpost : ∃ resMap, PostOK env resMap
  · obtain ⟨resMap, hpost⟩ := hpost
    obtain ⟨rest, hadds, hrecords⟩ := associate_adds fs env resMap
    rw [answered_eq_associate fs hpost]
    have hiff : (∃ resMap, PostOK env resMap ∧ Associates env resMap) ↔
        Associates env resMap :=
      ⟨fun ⟨other, hother, hassociates⟩ =>
        hpost.unique hother ▸ hassociates, fun h => ⟨resMap, hpost, h⟩⟩
    rw [hiff]
    exact ⟨_, hadds.perform _, hrecords.afterPost chunk⟩
  · rw [answered_eq_pure fs (not_exists.mp hpost)]
    have hnone : Records [] []
        (env.removes ∧
          ∃ resMap, PostOK env resMap ∧ Associates env resMap) :=
      ⟨by simp, iff_of_false List.not_mem_nil
        fun ⟨_, resMap, hok, _⟩ => hpost ⟨resMap, hok⟩⟩
    exact ⟨_, (adds_nil false).perform _, hnone.afterPost chunk⟩

end

variable {fs : FlightSyncer} {env : Environment} {n : ℕ}

/-- With a chunk in hand, it is all that is posted, and the removal depends on
the two answers. -/
theorem Chunk.records (hchunk : Chunk fs env n) :
    Records (actions fs env) [env.content.take n]
      (env.removes ∧
        ∃ resMap, PostOK env resMap ∧ Associates env resMap) := by
  obtain ⟨hid, hopens, hpos, hn, hcap, hread⟩ := hchunk
  have heq : upload fs env = send fs env (env.content.take n) := by
    simp only [upload, if_neg hid, hopens, not_true_eq_false, if_false,
      hread]
  obtain ⟨rest, hadds, hrecords⟩ :=
    send_adds fs env (env.content.take n)
  have hactions : actions fs env = rest := by
    rw [actions, heq, hadds, List.nil_append]
  rw [hactions]
  exact hrecords

/-- Without one, only an empty file is removed. -/
theorem removed_cases (hremoved : .remove ∈ actions fs env) :
    env.content = [] ∨ ∃ n, Chunk fs env n := by
  unfold actions upload at hremoved
  split at hremoved
  next => cases hremoved
  next hid =>
    split at hremoved
    next => cases hremoved
    next hopens =>
      simp only [not_not] at hopens
      cases hread : env.read with
      | failed =>
          rw [hread] at hremoved
          cases hremoved
      | eof hempty => exact Or.inl (List.length_eq_zero_iff.mp hempty)
      | bytes n hpos hn hcap =>
          exact Or.inr ⟨n, hid, hopens, hpos, hn, hcap, hread⟩

/-- A file is removed safely exactly when the environment keeps to the
condition. -/
theorem removesSafely_iff (fs : FlightSyncer) (env : Environment) :
    RemovesSafely fs env ↔ Careful fs env := by
  constructor
  · rintro hsafe n resMap body hremoves ⟨hchunk, hpost, hurl⟩ hput
    obtain ⟨hpos, hn, hcap, hread⟩ := hchunk.read
    have hsynced : (ReportsOK body ∨ Silent body) → Synced fs env := by
      intro hanswer
      obtain ⟨merged, hdecode, hstatus⟩ :=
        (status_iff hpost.status body).mpr hanswer
      have hremoved : .remove ∈ actions fs env :=
        hchunk.records.remove.mpr
          ⟨hremoves, resMap, hpost, hurl, body, merged, hput, hdecode,
            hstatus⟩
      apply (hsafe hremoved).resolve_left
      rintro hempty
      rw [hempty] at hn
      exact absurd hpos (Nat.not_lt_of_le hn)
    constructor
    · intro hsilent
      obtain ⟨other, hother, hok⟩ := (hsynced (Or.inr hsilent)).associated
      rw [hput, HttpResult.response.injEq] at hother
      subst hother
      exact hsilent.not_reportsOK hok
    · intro hok
      have hposted := (hsynced (Or.inl hok)).posted
      have hall := List.mem_singleton.mp
        ((hchunk.records.post env.content).mp hposted)
      have hlength := congrArg List.length hall
      rw [List.length_take] at hlength
      omega
  · intro hcareful hremoved
    rcases removed_cases hremoved with hempty | ⟨n, hchunk⟩
    · exact Or.inl hempty
    · right
      obtain ⟨hremoves, resMap, hpost, hurl, body, merged, hput, hdecode,
        hstatus⟩ := hchunk.records.remove.mp hremoved
      obtain ⟨hspoken, hwhole⟩ :=
        hcareful n resMap body hremoves ⟨hchunk, hpost, hurl⟩ hput
      have hok : ReportsOK body :=
        ((status_iff hpost.status body).mp
          ⟨merged, hdecode, hstatus⟩).resolve_right hspoken
      have hall : env.content ∈ [env.content.take n] := by
        rw [hwhole hok, List.take_length]
        exact List.mem_singleton_self _
      obtain ⟨answer, hanswer, hfirst⟩ := hpost.answer
      exact ⟨(hchunk.records.post env.content).mpr hall,
        ⟨answer, hanswer, resMap, hfirst, hpost.status⟩, body, hput, hok⟩

/-- The POST is answered `OK`, and the answer of the PUT is an error without a
status: the status of the first answer is still in the map. -/
theorem association_error_removes :
    ¬ ∀ (fs : FlightSyncer) (env : Environment), RemovesSafely fs env := by
  intro hall
  let fs : FlightSyncer := ⟨"drone", "user"⟩
  let answer : Body :=
    .json (.object [("status", .string "OK"), ("id", .string "7")])
  let refusal : Body := .json (.object [("error", .string "Unknown drone")])
  let env : Environment :=
    { DSCHttp := "http://127.0.0.1:4000"
      content := [1, 2, 3]
      opens := true
      read := .bytes 3 (by decide) (by decide) (by decide)
      post := .response answer
      validURL := fun _ => true
      put := .response refusal
      removes := true }
  have hchunk : Chunk fs env 3 := by
    refine ⟨?_, rfl, ⟨_, _, _, rfl⟩⟩
    decide
  have hpost : PostOK env (Unmarshal ∅ answer).2 :=
    ⟨⟨answer, rfl, rfl⟩, by decide⟩
  have hsilent : Silent refusal :=
    ⟨[("error", .string "Unknown drone")], rfl, rfl, by decide⟩
  obtain ⟨merged, hdecode, hstatus⟩ :=
    (status_iff hpost.status refusal).mpr (Or.inr hsilent)
  have hremoved : .remove ∈ actions fs env :=
    hchunk.records.remove.mpr
      ⟨rfl, _, hpost, rfl, refusal, merged, rfl, hdecode, hstatus⟩
  rcases hall fs env hremoved with hempty | hsynced
  · cases hempty
  · obtain ⟨body, hbody, hok⟩ := hsynced.associated
    rw [← HttpResult.response.inj hbody] at hok
    exact hsilent.not_reportsOK hok

end DronesmithEngine.Cloudlink
