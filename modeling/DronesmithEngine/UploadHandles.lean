import DronesmithEngine.FlightSyncer

/-!
# Handles of an upload

The same `upload` of `cloudlink/flightsyncer.go`, as what it does with the
file and with the bodies of the responses, and which value it sends over the
channel `done`.  A response is received unless the request failed.
-/

namespace DronesmithEngine.Cloudlink

open Go

inductive Handle
  | file
  | postBody
  | putBody
  deriving DecidableEq

inductive UploadEvent
  | opened (handle : Handle)
  | closed (handle : Handle)
  | done (synced : Bool)
  deriving DecidableEq

abbrev Tracing := Effect (List UploadEvent)

def record (event : UploadEvent) : Tracing Unit :=
  Effect.modify (· ++ [event])

/-! ## The upload -/

/-- The body is closed by a deferred call, also when it cannot be read. -/
def tracePut (env : Environment) (url : String) : Tracing (Option Body) := do
  if env.validURL url then
    match env.put with
    | .failed => pure none
    | .unreadable => do
        record (.opened .putBody)
        record (.closed .putBody)
        pure none
    | .response body => do
        record (.opened .putBody)
        record (.closed .putBody)
        pure (some body)
  else Effect.lift (.error .nilDereference)

/-- The part of `upload` after the answer to the PUT. -/
def traceRemoval (env : Environment) (resMap : StringMap) (body : Body) :
    Tracing Unit :=
  match Unmarshal resMap body with
  | (some _, _) => record (.done false)
  | (none, resMap) =>
      if get resMap "status" = "OK" then record (.done env.removes)
      else record (.done false)

def traceAssociate (env : Environment) (resMap : StringMap) :
    Tracing Unit := do
  match ← tracePut env (associateURL env resMap) with
  | none => record (.done false)
  | some body => traceRemoval env resMap body

def traceSend (env : Environment) : Tracing Unit := do
  match env.post with
  | .failed => record (.done false)
  | .unreadable => do
      record (.opened .postBody)
      record (.done false)
  | .response body => do
      record (.opened .postBody)
      record (.closed .postBody)
      record (.closed .file)
      match Unmarshal ∅ body with
      | (some _, _) => record (.done false)
      | (none, resMap) =>
          if get resMap "status" = "OK" then traceAssociate env resMap
          else record (.done false)

def traceUpload (fs : FlightSyncer) (env : Environment) : Tracing Unit := do
  if fs.DroneId = "" then record (.done false)
  else if ¬ env.opens then record (.done false)
  else do
    record (.opened .file)
    match env.read with
    | .failed => record (.done false)
    | .eof _ => record (.done false)
    | .bytes _ _ _ _ => traceSend env

def trace (fs : FlightSyncer) (env : Environment) : List UploadEvent :=
  (traceUpload fs env []).2

/-- Whatever was opened or received has been closed exactly once. -/
def ClosesAll (events : List UploadEvent) : Prop :=
  ∀ handle, .opened handle ∈ events → events.count (.closed handle) = 1

instance (events : List UploadEvent) : Decidable (ClosesAll events) :=
  decidable_of_iff
    (∀ handle ∈ [Handle.file, .postBody, .putBody],
      .opened handle ∈ events → events.count (.closed handle) = 1)
    ⟨fun hall handle => hall handle (by cases handle <;> decide),
      fun hall handle _ => hall handle⟩

/-- The file has something to read, and the answer to the POST comes whole. -/
structure Readable (env : Environment) : Prop where
  read : ∃ n hpos hn hcap, env.read = .bytes n hpos hn hcap
  post : ∃ body, env.post = .response body

/-! ## Traces -/

section

variable (env : Environment)

/-- Both ways in which a call of `put` that returns leaves the trace. -/
inductive PutTrace : List UploadEvent → Prop
  | noBody : PutTrace []
  | body : PutTrace [.opened .putBody, .closed .putBody]

theorem tracePut_trace (url : String) (before : List UploadEvent) :
    ∃ events, PutTrace events ∧
      (tracePut env url before).2 = before ++ events := by
  unfold tracePut
  by_cases hurl : env.validURL url
  · rw [if_pos hurl]
    cases env.put with
    | failed => exact ⟨[], .noBody, (List.append_nil before).symm⟩
    | unreadable => exact ⟨_, .body, List.append_assoc before _ _⟩
    | response body => exact ⟨_, .body, List.append_assoc before _ _⟩
  · rw [if_neg hurl]
    exact ⟨[], .noBody, (List.append_nil before).symm⟩

/-- After the answer to the POST there is at most the PUT left. -/
inductive LateTrace : List UploadEvent → Prop
  | panicked {events : List UploadEvent} (hput : PutTrace events) :
      LateTrace events
  | finished {events : List UploadEvent} (hput : PutTrace events)
      (synced : Bool) : LateTrace (events ++ [.done synced])

theorem LateTrace.done (synced : Bool) : LateTrace [.done synced] :=
  .finished .noBody synced

/-- With an answer in hand, all that is left is to send one value. -/
theorem traceRemoval_eq (resMap : StringMap) (body : Body) :
    ∃ synced, traceRemoval env resMap body = record (.done synced) := by
  unfold traceRemoval
  rcases Unmarshal resMap body with ⟨_ | err, merged⟩
  · by_cases hstatus : get merged "status" = "OK"
    · simp only [if_pos hstatus]
      exact ⟨env.removes, rfl⟩
    · simp only [if_neg hstatus]
      exact ⟨false, rfl⟩
  · exact ⟨false, rfl⟩

theorem traceAssociate_trace (resMap : StringMap)
    (before : List UploadEvent) :
    ∃ events, LateTrace events ∧
      (traceAssociate env resMap before).2 = before ++ events := by
  obtain ⟨events, hput, hlog⟩ :=
    tracePut_trace env (associateURL env resMap) before
  unfold traceAssociate
  rcases hstep : tracePut env (associateURL env resMap) before with
    ⟨e | body, after⟩
  · rw [hstep] at hlog
    rw [Effect.bind_of_error hstep]
    exact ⟨events, .panicked hput, hlog⟩
  · rw [hstep] at hlog
    rw [Effect.bind_of_ok hstep, show after = before ++ events from hlog]
    cases body with
    | none => exact ⟨_, .finished hput false, List.append_assoc _ _ _⟩
    | some body =>
        obtain ⟨synced, hremoval⟩ := traceRemoval_eq env resMap body
        simp only [hremoval]
        exact ⟨_, .finished hput synced, List.append_assoc _ _ _⟩

/-- The file and the body are closed before the answer is decoded. -/
theorem traceSend_of_response {body : Body}
    (hpost : env.post = .response body) (before : List UploadEvent) :
    ∃ events, LateTrace events ∧
      (traceSend env before).2 =
        before ++ [.opened .postBody, .closed .postBody, .closed .file] ++
          events := by
  simp only [traceSend, hpost, record, Effect.modify_bind,
    List.append_assoc, List.cons_append, List.nil_append]
  rcases Unmarshal ∅ body with ⟨_ | err, resMap⟩
  · by_cases hstatus : get resMap "status" = "OK"
    · simp only [if_pos hstatus]
      obtain ⟨events, hlate, hlog⟩ :=
        traceAssociate_trace env resMap
          (before ++ [.opened .postBody, .closed .postBody, .closed .file])
      rw [List.append_assoc] at hlog
      exact ⟨events, hlate, hlog⟩
    · simp only [if_neg hstatus]
      exact ⟨_, .done false, List.append_assoc _ _ _⟩
  · exact ⟨_, .done false, List.append_assoc _ _ _⟩

end

variable {fs : FlightSyncer} {env : Environment}

theorem LateTrace.closesAll {events : List UploadEvent}
    (hlate : LateTrace events) :
    ClosesAll
      ([.opened .file, .opened .postBody, .closed .postBody,
        .closed .file] ++ events) := by
  rcases hlate with ⟨⟨⟩⟩ | ⟨⟨⟩, synced⟩
  · decide
  · decide
  · cases synced <;> decide
  · cases synced <;> decide

/-- Once the file is open, everything is closed exactly when the answer to the
POST comes whole. -/
theorem traceUpload_opened (hid : fs.DroneId ≠ "") (hopens : env.opens) :
    ClosesAll (trace fs env) ↔ Readable env := by
  have hleft : ¬ ClosesAll [.opened .file, .done false] := by decide
  have hbody : ¬ ClosesAll
      [.opened .file, .opened .postBody, .done false] := by decide
  unfold trace traceUpload
  simp only [if_neg hid, hopens, not_true_eq_false, if_false, record,
    Effect.modify_bind, List.nil_append]
  cases hread : env.read with
  | failed =>
      refine iff_of_false hleft ?_
      rintro ⟨⟨n, hpos, hn, hcap, hbytes⟩, -⟩
      cases hread.symm.trans hbytes
  | eof hempty =>
      refine iff_of_false hleft ?_
      rintro ⟨⟨n, hpos, hn, hcap, hbytes⟩, -⟩
      cases hread.symm.trans hbytes
  | bytes n hpos hn hcap =>
      simp only
      cases hpost : env.post with
      | failed =>
          simp only [traceSend, hpost]
          refine iff_of_false hleft ?_
          rintro ⟨-, body, hanswer⟩
          cases hpost.symm.trans hanswer
      | unreadable =>
          simp only [traceSend, hpost]
          refine iff_of_false hbody ?_
          rintro ⟨-, body, hanswer⟩
          cases hpost.symm.trans hanswer
      | response body =>
          obtain ⟨events, hlate, hlog⟩ :=
            traceSend_of_response env hpost [.opened .file]
          rw [hlog]
          exact iff_of_true hlate.closesAll
            ⟨⟨n, hpos, hn, hcap, hread⟩, body, hpost⟩

/-- Everything is closed exactly when a file that was opened can be read and
the answer to the POST comes whole. -/
theorem upload_closesAll_iff (fs : FlightSyncer) (env : Environment) :
    ClosesAll (trace fs env) ↔
      (fs.DroneId ≠ "" → env.opens → Readable env) := by
  by_cases hid : fs.DroneId = ""
  · have htrace : trace fs env = [.done false] := by
      simp only [trace, traceUpload, if_pos hid]
      rfl
    rw [htrace]
    exact iff_of_true (by decide) (fun hne => absurd hid hne)
  · by_cases hopens : env.opens
    · rw [traceUpload_opened hid hopens]
      exact ⟨fun h _ _ => h, fun h => h hid hopens⟩
    · have htrace : trace fs env = [.done false] := by
        simp only [trace, traceUpload, if_neg hid, if_pos hopens]
        rfl
      rw [htrace]
      exact iff_of_true (by decide) (fun _ h => absurd h hopens)

/-- The server cannot be reached, and the file stays open. -/
theorem unreachable_leaves_file_open :
    ¬ ∀ (fs : FlightSyncer) (env : Environment), ClosesAll (trace fs env) := by
  intro hall
  let env : Environment :=
    { DSCHttp := "http://127.0.0.1:4000"
      content := [1, 2, 3]
      opens := true
      read := .bytes 3 (by decide) (by decide) (by decide)
      post := .failed
      validURL := fun _ => true
      put := .failed
      removes := true }
  have hclosed := hall ⟨"drone", "user"⟩ env
  have htrace : trace ⟨"drone", "user"⟩ env =
      [.opened .file, .done false] := by
    decide
  rw [htrace] at hclosed
  exact absurd hclosed (by decide)

/-! ## The value that is sent -/

/-- The values sent over the channel, in order. -/
def sent (events : List UploadEvent) : List Bool :=
  events.filterMap fun
    | .done synced => some synced
    | _ => none

/-- What a computation that returns sends is its result, and one that panics
sends nothing. -/
def Sends (x : Syncing Bool) (y : Tracing Unit) : Prop :=
  ∀ acts before, sent (y before).2 = sent before ++ (x acts).1.toOption.toList

theorem sent_append (events later : List UploadEvent) :
    sent (events ++ later) = sent events ++ sent later :=
  List.filterMap_append

theorem Sends.done (synced : Bool) :
    Sends (pure synced) (record (.done synced)) :=
  fun _ before => sent_append before [.done synced]

theorem Sends.perform {x : Syncing Bool} {y : Tracing Unit}
    (h : Sends x y) (action : Action) :
    Sends (perform action >>= fun _ => x) y :=
  fun acts before => h (acts ++ [action]) before

theorem Sends.record {x : Syncing Bool} {y : Tracing Unit}
    (h : Sends x y) {event : UploadEvent} (hnone : sent [event] = []) :
    Sends x (record event >>= fun _ => y) := by
  intro acts before
  have hafter := h acts (before ++ [event])
  rw [sent_append, hnone, List.append_nil] at hafter
  exact hafter

section

variable (fs : FlightSyncer) (env : Environment)

theorem associated_sends (resMap : StringMap) {body : Body}
    (hput : env.put = .response body) :
    Sends (associated env resMap) (traceRemoval env resMap body) := by
  simp only [associated, hput, traceRemoval]
  rcases Unmarshal resMap body with ⟨_ | err, merged⟩
  · by_cases hstatus : get merged "status" = "OK"
    · simp only [if_pos hstatus, Remove]
      cases env.removes with
      | true => exact (Sends.done true).perform .remove
      | false => exact Sends.done false
    · simp only [if_neg hstatus]
      exact Sends.done false
  · exact Sends.done false

theorem associate_sends (resMap : StringMap) :
    Sends (associate fs env resMap) (traceAssociate env resMap) := by
  by_cases hurl : env.validURL (associateURL env resMap)
  · rw [associate_of_valid fs env resMap hurl]
    apply Sends.perform
    unfold traceAssociate tracePut
    rw [if_pos hurl]
    cases hput : env.put with
    | failed =>
        simp only [associated, hput]
        exact Sends.done false
    | unreadable =>
        simp only [associated, hput]
        exact ((Sends.done false).record rfl).record rfl
    | response body =>
        exact ((associated_sends env resMap hput).record rfl).record rfl
  · intro acts before
    simp only [associate, put, traceAssociate, tracePut, if_neg hurl,
      Effect.lift_error_bind]
    exact (List.append_nil _).symm

theorem send_sends (chunk : List UInt8) :
    Sends (send fs env chunk) (traceSend env) := by
  rw [send_eq]
  apply Sends.perform
  unfold answered traceSend
  cases env.post with
  | failed => exact Sends.done false
  | unreadable => exact (Sends.done false).record rfl
  | response body =>
      simp only
      refine Sends.record ?_ rfl
      refine Sends.record ?_ rfl
      refine Sends.record ?_ rfl
      rcases Unmarshal ∅ body with ⟨_ | err, resMap⟩
      · by_cases hstatus : get resMap "status" = "OK"
        · simp only [if_pos hstatus]
          exact associate_sends fs env resMap
        · simp only [if_neg hstatus]
          exact Sends.done false
      · exact Sends.done false

theorem upload_sends : Sends (upload fs env) (traceUpload fs env) := by
  unfold upload traceUpload
  by_cases hid : fs.DroneId = ""
  · simp only [if_pos hid]
    exact Sends.done false
  · by_cases hopens : env.opens
    · simp only [if_neg hid, hopens, not_true_eq_false, if_false]
      refine Sends.record ?_ rfl
      cases env.read with
      | failed => exact Sends.done false
      | eof hempty =>
          simp only [Remove]
          cases env.removes with
          | true => exact (Sends.done false).perform .remove
          | false => exact Sends.done false
      | bytes n hpos hn hcap => exact send_sends fs env _
    · simp only [if_neg hid, hopens]
      exact Sends.done false

/-- An upload that returns sends its result once, and one that panics sends
nothing. -/
theorem sent_trace :
    sent (trace fs env) = (upload fs env []).1.toOption.toList :=
  upload_sends fs env [] []

variable {fs env}

theorem upload_of_sent {synced : Bool}
    (hsent : sent (trace fs env) = [synced]) :
    (upload fs env []).1 = .ok synced := by
  have hresult := sent_trace fs env
  rw [hsent] at hresult
  cases hupload : (upload fs env []).1 with
  | error panic =>
      rw [hupload] at hresult
      cases hresult
  | ok result =>
      rw [hupload] at hresult
      cases hresult
      rfl

end

/-! ## Exit paths -/

/-- The computation ends with this result, and has sent these values. -/
def Ends (y : Tracing Unit) (result : Checked Unit) (values : List Bool) :
    Prop :=
  ∀ before, ∃ after, y before = (result, after) ∧
    sent after = sent before ++ values

/-- The POST was answered `OK`, and there is no request for the PUT. -/
def NilRequest (env : Environment) : Prop :=
  ∃ resMap, PostOK env resMap ∧ ¬ env.validURL (associateURL env resMap)

theorem Ends.trace {fs : FlightSyncer} {env : Environment}
    {result : Checked Unit} {values : List Bool}
    (h : Ends (traceUpload fs env) result values) :
    (traceUpload fs env []).1 = result ∧
      sent (Cloudlink.trace fs env) = values := by
  obtain ⟨after, hrun, hsent⟩ := h []
  rw [Cloudlink.trace, hrun]
  exact ⟨rfl, hsent⟩

theorem Ends.done (synced : Bool) :
    Ends (record (.done synced)) (.ok ()) [synced] :=
  fun before =>
    ⟨before ++ [.done synced], rfl, sent_append before [.done synced]⟩

theorem Ends.record {y : Tracing Unit} {result : Checked Unit}
    {values : List Bool} (h : Ends y result values) {event : UploadEvent}
    (hnone : sent [event] = []) :
    Ends (record event >>= fun _ => y) result values := by
  intro before
  obtain ⟨after, hrun, hsent⟩ := h (before ++ [event])
  rw [sent_append, hnone, List.append_nil] at hsent
  exact ⟨after, hrun, hsent⟩

section

variable (fs : FlightSyncer) (env : Environment)

theorem traceRemoval_ends (resMap : StringMap) (body : Body) :
    ∃ synced, Ends (traceRemoval env resMap body) (.ok ()) [synced] := by
  obtain ⟨synced, hremoval⟩ := traceRemoval_eq env resMap body
  rw [hremoval]
  exact ⟨synced, .done synced⟩

theorem traceAssociate_ends {resMap : StringMap}
    (hurl : env.validURL (associateURL env resMap)) :
    ∃ synced, Ends (traceAssociate env resMap) (.ok ()) [synced] := by
  unfold traceAssociate tracePut
  rw [if_pos hurl]
  cases env.put with
  | failed => exact ⟨false, .done false⟩
  | unreadable => exact ⟨false, ((Ends.done false).record rfl).record rfl⟩
  | response body =>
      obtain ⟨synced, hremoval⟩ := traceRemoval_ends env resMap body
      exact ⟨synced, (hremoval.record rfl).record rfl⟩

theorem traceAssociate_panics {resMap : StringMap}
    (hurl : ¬ env.validURL (associateURL env resMap)) :
    Ends (traceAssociate env resMap) (.error .nilDereference) [] := by
  intro before
  refine ⟨before, ?_, (List.append_nil _).symm⟩
  simp only [traceAssociate, tracePut, if_neg hurl, Effect.lift_error_bind]

/-- What `traceSend` goes on with when the answer to the POST is whole. -/
def traceAnswered (body : Body) : Tracing Unit :=
  match Unmarshal ∅ body with
  | (some _, _) => record (.done false)
  | (none, resMap) =>
      if get resMap "status" = "OK" then traceAssociate env resMap
      else record (.done false)

theorem Ends.response {body : Body} {result : Checked Unit}
    {values : List Bool} (hpost : env.post = .response body)
    (h : Ends (traceAnswered env body) result values) :
    Ends (traceSend env) result values := by
  simp only [traceSend, hpost]
  exact ((h.record rfl).record rfl).record rfl

theorem traceSend_ends (hvalid : ¬ NilRequest env) :
    ∃ synced, Ends (traceSend env) (.ok ()) [synced] := by
  cases hpost : env.post with
  | failed =>
      simp only [traceSend, hpost]
      exact ⟨false, .done false⟩
  | unreadable =>
      simp only [traceSend, hpost]
      exact ⟨false, (Ends.done false).record rfl⟩
  | response body =>
      suffices h : ∃ synced,
          Ends (traceAnswered env body) (.ok ()) [synced] by
        obtain ⟨synced, hanswered⟩ := h
        exact ⟨synced, hanswered.response env hpost⟩
      unfold traceAnswered
      rcases hdecode : Unmarshal ∅ body with ⟨_ | err, resMap⟩
      · by_cases hstatus : get resMap "status" = "OK"
        · have hurl : env.validURL (associateURL env resMap) := by
            by_contra hurl
            exact hvalid ⟨resMap, ⟨⟨body, hpost, hdecode⟩, hstatus⟩, hurl⟩
          simp only [if_pos hstatus]
          exact traceAssociate_ends env hurl
        · simp only [if_neg hstatus]
          exact ⟨false, .done false⟩
      · exact ⟨false, .done false⟩

theorem traceSend_panics (hnil : NilRequest env) :
    Ends (traceSend env) (.error .nilDereference) [] := by
  obtain ⟨resMap, ⟨⟨body, hpost, hdecode⟩, hstatus⟩, hurl⟩ := hnil
  apply Ends.response env hpost
  simp only [traceAnswered, hdecode, if_pos hstatus]
  exact traceAssociate_panics env hurl

/-- Whatever the steps of an upload come to, it returns after it has sent one
value, unless it is given no request for the PUT. -/
theorem traceUpload_ends
    (hvalid : ¬ ((∃ n, Chunk fs env n) ∧ NilRequest env)) :
    ∃ synced, Ends (traceUpload fs env) (.ok ()) [synced] := by
  unfold traceUpload
  by_cases hid : fs.DroneId = ""
  · simp only [if_pos hid]
    exact ⟨false, .done false⟩
  · by_cases hopens : env.opens
    · simp only [if_neg hid, hopens, not_true_eq_false, if_false]
      cases hread : env.read with
      | failed => exact ⟨false, (Ends.done false).record rfl⟩
      | eof hempty => exact ⟨false, (Ends.done false).record rfl⟩
      | bytes n hpos hn hcap =>
          have hchunk : Chunk fs env n := ⟨hid, hopens, hpos, hn, hcap, hread⟩
          obtain ⟨synced, hsend⟩ :=
            traceSend_ends env fun hnil => hvalid ⟨⟨n, hchunk⟩, hnil⟩
          exact ⟨synced, hsend.record rfl⟩
    · simp only [if_neg hid, hopens]
      exact ⟨false, .done false⟩

variable {fs env}

theorem Chunk.traceUpload_panics {n : ℕ} (hchunk : Chunk fs env n)
    (hnil : NilRequest env) :
    Ends (traceUpload fs env) (.error .nilDereference) [] := by
  obtain ⟨hid, hopens, hpos, hn, hcap, hread⟩ := hchunk
  simp only [traceUpload, if_neg hid, hopens, not_true_eq_false, if_false,
    hread]
  exact (traceSend_panics env hnil).record rfl

end

end DronesmithEngine.Cloudlink
