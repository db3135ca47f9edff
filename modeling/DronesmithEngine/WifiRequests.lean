import DronesmithEngine.FlightSyncer
import Mathlib.Tactic

/-!
# Requests that change the network

A POST to `apsResponse` of `statusServer/statusServer.go`, with the name
commands of `statusServer/utils.go`.  One error variable goes through both, and
a flag of its own says whether the network is changed after the response was
written.
-/

namespace DronesmithEngine.StatusServer

open Go
open Cloudlink (StringMap Body UnmarshalError Unmarshal get)

/-- An error has some text, so that an empty one in a response is none. -/
structure ErrorText where
  text : String
  nonempty : text ≠ ""

def ErrorText.ofString (text : String) (h : text ≠ "" := by decide) :
    ErrorText := ⟨text, h⟩

structure APIPostApsReq where
  SysName : String
  Ssid : String
  Protocol : String
  Password : String
  Username : String

structure APIPostApsRes where
  Ssid : String
  Name : String
  Error : String

/-- A request with all that decides its course: the body, the outcomes of the
name commands, and whether the response can be written. -/
structure ApsPost where
  obj : Except ErrorText APIPostApsReq
  names : Except ErrorText Body
  changeName : Option ErrorText
  namesAfter : Except ErrorText Body
  unmarshalText : UnmarshalError → ErrorText
  writeErr : Option ErrorText

inductive ApsEvent
  | ran (args : List String)
  | wrote (res : APIPostApsRes)
  | panicked (err : ErrorText)

abbrev ApsHandler := Effect (List ApsEvent)

def emit (event : ApsEvent) : ApsHandler Unit :=
  Effect.modify (· ++ [event])

/-! ## The name commands -/

/-- The map is nil for a command that fails or prints null. -/
def readNames (unmarshalText : UnmarshalError → ErrorText) :
    Except ErrorText Body → Option StringMap × Option ErrorText
  | .error err => (none, some err)
  | .ok (.json .null) => (none, none)
  | .ok out =>
      match Unmarshal ∅ out with
      | (some err, _) => (none, some (unmarshalText err))
      | (none, obj) => (some obj, none)

def getNames (unmarshalText : UnmarshalError → ErrorText)
    (out : Except ErrorText Body) :
    ApsHandler (Option StringMap × Option ErrorText) := do
  emit (.ran ["--showNames"])
  pure (readNames unmarshalText out)

def setName (name : String) (changeErr : Option ErrorText) :
    ApsHandler (Option ErrorText) :=
  if name.utf8ByteSize < 4 then
    pure (some (.ofString "Name must be at least 4 characters."))
  else do
    emit (.ran ["--changeName", name])
    pure changeErr

def APIPostApsReq.name (obj : APIPostApsReq) : String :=
  if obj.SysName ≠ "" then obj.SysName else "luci"

/-- The error of `setName` is overwritten. -/
def changeNames (post : ApsPost) (name : String) :
    ApsHandler (Option StringMap × Option ErrorText) := do
  match ← getNames post.unmarshalText post.names with
  | (some namesMap, err) =>
      if get namesMap "ssid" ≠ name then do
        let _ ← setName name post.changeName
        getNames post.unmarshalText post.namesAfter
      else pure (some namesMap, err)
  | (none, err) => pure (none, err)

/-! ## The request -/

/-- The error after the protocols were checked, and `updateWifi`. -/
def checkProtocol (obj : APIPostApsReq) (err : Option ErrorText) :
    Option ErrorText × Bool :=
  match obj.Protocol with
  | "OPEN" => (err, true)
  | "WEP" =>
      if obj.Password.utf8ByteSize ≠ 5 ∨ obj.Password.utf8ByteSize ≠ 13 then
        (some (.ofString
          "Network password must be either 5 or 13 characters in length."),
          false)
      else (err, true)
  | "WPA-PSK" =>
      if obj.Password.utf8ByteSize < 8 ∨ 63 < obj.Password.utf8ByteSize then
        (some (.ofString
          "Network password must be between 8 and 63 characters in length."),
          false)
      else (err, true)
  | _ =>
      (some (.ofString "Invalid or unsupported network protocol."), false)

def response (obj : APIPostApsReq) (namesMap : Option StringMap) :
    Option ErrorText → APIPostApsRes
  | some err => ⟨"", "", err.text⟩
  | none => ⟨obj.Ssid, get (namesMap.getD ∅) "ssid", ""⟩

def changeWiFi (obj : APIPostApsReq) : ApsHandler Unit :=
  match obj.Protocol with
  | "OPEN" => emit (.ran ["--changeWiFi", obj.Protocol, obj.Ssid])
  | "WEP" | "WPA-PSK" =>
      emit (.ran ["--changeWiFi", obj.Protocol, obj.Ssid, obj.Password])
  | "WPA_EAP" =>
      emit (.ran ["--changeWiFi", obj.Protocol, obj.Ssid, obj.Username,
        obj.Password])
  | _ => pure ()

def answerAps (post : ApsPost) (obj : APIPostApsReq) : ApsHandler Unit := do
  let (namesMap, err) ← changeNames post obj.name
  let (err, updateWifi) := checkProtocol obj err
  match post.writeErr with
  | some err => emit (.panicked err)
  | none => do
      emit (.wrote (response obj namesMap err))
      if updateWifi then changeWiFi obj else pure ()

def apsResponse (post : ApsPost) : ApsHandler Unit :=
  match post.obj with
  | .error err => emit (.panicked err)
  | .ok obj => answerAps post obj

def apsEvents (post : ApsPost) : List ApsEvent := (apsResponse post []).2

/-! ## What the response says -/

def StartsWiFi (events : List ApsEvent) : Prop :=
  ∃ args, .ran ("--changeWiFi" :: args) ∈ events

def ReportsNoError (events : List ApsEvent) : Prop :=
  ∃ res, .wrote res ∈ events ∧ res.Error = ""

/-- The protocol and the characters of the password are right. -/
def APIPostApsReq.Acceptable (obj : APIPostApsReq) : Prop :=
  obj.Protocol = "OPEN" ∨
    (obj.Protocol = "WEP" ∧
      (obj.Password.length = 5 ∨ obj.Password.length = 13)) ∨
    (obj.Protocol = "WPA-PSK" ∧
      8 ≤ obj.Password.length ∧ obj.Password.length ≤ 63)

/-- The protocol and the bytes of the password are accepted. -/
def APIPostApsReq.Accepted (obj : APIPostApsReq) : Prop :=
  obj.Protocol = "OPEN" ∨
    (obj.Protocol = "WPA-PSK" ∧
      8 ≤ obj.Password.utf8ByteSize ∧ obj.Password.utf8ByteSize ≤ 63)

/-- A password for WEP has neither of its lengths, and one for WPA-PSK has as
many bytes as it may have characters. -/
structure APIPostApsReq.PasswordFits (obj : APIPostApsReq) : Prop where
  wep : obj.Protocol = "WEP" →
    obj.Password.length ≠ 5 ∧ obj.Password.length ≠ 13
  wpa : obj.Protocol = "WPA-PSK" →
    (8 ≤ obj.Password.utf8ByteSize ∧ obj.Password.utf8ByteSize ≤ 63 ↔
      8 ≤ obj.Password.length ∧ obj.Password.length ≤ 63)

namespace ApsPost

/-- The drone has another name than the one that is asked for. -/
def Renames (post : ApsPost) (obj : APIPostApsReq) : Prop :=
  ∃ namesMap err, readNames post.unmarshalText post.names =
    (some namesMap, err) ∧ get namesMap "ssid" ≠ obj.name

/-- The names that are read last can be read. -/
def NamesRead (post : ApsPost) (obj : APIPostApsReq) : Prop :=
  (post.Renames obj →
    (readNames post.unmarshalText post.namesAfter).2 = none) ∧
  (¬ post.Renames obj → (readNames post.unmarshalText post.names).2 = none)

structure NamesSucceed (post : ApsPost) (obj : APIPostApsReq) : Prop where
  names : (readNames post.unmarshalText post.names).2 = none
  changed : post.Renames obj →
    ¬ obj.name.utf8ByteSize < 4 ∧ post.changeName = none ∧
      (readNames post.unmarshalText post.namesAfter).2 = none

/-- The network is changed exactly when the response reports no error, and
with the names in order, exactly for an acceptable password. -/
structure Agrees (post : ApsPost) : Prop where
  started : StartsWiFi (apsEvents post) ↔ ReportsNoError (apsEvents post)
  checked : ∀ obj, post.obj = .ok obj → post.NamesSucceed obj →
    ∀ res, .wrote res ∈ apsEvents post → (res.Error = "" ↔ obj.Acceptable)

/-- Where a response is written to a request that is accepted, the names could
be read; and where the names are in order, the password fits. -/
def Fits (post : ApsPost) : Prop :=
  ∀ obj, post.obj = .ok obj → post.writeErr = none →
    (obj.Accepted → post.NamesRead obj) ∧
      (post.NamesSucceed obj → obj.PasswordFits)

end ApsPost

/-! ## Protocols -/

section

variable {obj : APIPostApsReq}

theorem accepted_iff_acceptable :
    (obj.Accepted ↔ obj.Acceptable) ↔ obj.PasswordFits := by
  unfold APIPostApsReq.Accepted APIPostApsReq.Acceptable
  constructor
  · intro hiff
    constructor
    · intro hwep
      simp only [hwep, String.reduceEq, false_and, true_and, false_or,
        or_false, false_iff, not_or] at hiff
      exact hiff
    · intro hwpa
      simpa [hwpa] using hiff
  · rintro ⟨hwep, hwpa⟩
    by_cases hprotocol : obj.Protocol = "WEP"
    · have hlength := hwep hprotocol
      simp [hprotocol, hlength.1, hlength.2]
    · by_cases hpsk : obj.Protocol = "WPA-PSK"
      · simpa [hpsk] using hwpa hpsk
      · simp [hprotocol, hpsk]

/-- No length is both 5 and 13, so that WEP is always refused. -/
theorem checkProtocol_cases (obj : APIPostApsReq) (err : Option ErrorText) :
    (obj.Accepted ∧ checkProtocol obj err = (err, true)) ∨
      (¬ obj.Accepted ∧
        ∃ text, checkProtocol obj err = (some text, false)) := by
  unfold checkProtocol APIPostApsReq.Accepted
  split
  next hopen => exact Or.inl ⟨Or.inl hopen, rfl⟩
  next hwep =>
    right
    rw [if_pos (by omega)]
    exact ⟨by simp [hwep], _, rfl⟩
  next hwpa =>
    by_cases hbytes : obj.Password.utf8ByteSize < 8 ∨
        63 < obj.Password.utf8ByteSize
    · right
      rw [if_pos hbytes]
      refine ⟨?_, _, rfl⟩
      simp only [hwpa, String.reduceEq, true_and, false_or]
      omega
    · left
      rw [if_neg hbytes]
      exact ⟨Or.inr ⟨hwpa, by omega⟩, rfl⟩
  next hopen hwep hwpa =>
    right
    refine ⟨?_, _, rfl⟩
    rintro (hprotocol | ⟨hprotocol, -⟩)
    · exact hopen hprotocol
    · exact hwpa hprotocol

theorem changeWiFi_of_accepted (haccepted : obj.Accepted)
    (before : List ApsEvent) :
    ∃ args, (changeWiFi obj before).2 =
      before ++ [.ran ("--changeWiFi" :: args)] := by
  unfold changeWiFi
  rcases haccepted with hopen | ⟨hwpa, -⟩
  · rw [hopen]
    exact ⟨_, rfl⟩
  · rw [hwpa]
    exact ⟨_, rfl⟩

end

/-! ## Names -/

def OnlyNames (events : List ApsEvent) : Prop :=
  ∀ event ∈ events, ∃ command args, event = .ran (command :: args) ∧
    command ≠ "--changeWiFi"

theorem onlyNames_showNames : OnlyNames [.ran ["--showNames"]] := by
  intro event hevent
  rw [List.mem_singleton.mp hevent]
  exact ⟨_, _, rfl, by decide⟩

theorem OnlyNames.append {events later : List ApsEvent}
    (h : OnlyNames events) (h' : OnlyNames later) :
    OnlyNames (events ++ later) :=
  List.forall_mem_append.mpr ⟨h, h'⟩

theorem getNames_eq (unmarshalText : UnmarshalError → ErrorText)
    (out : Except ErrorText Body) (before : List ApsEvent) :
    getNames unmarshalText out before =
      (.ok (readNames unmarshalText out),
        before ++ [.ran ["--showNames"]]) := rfl

theorem setName_events (name : String) (changeErr : Option ErrorText)
    (before : List ApsEvent) :
    ∃ err events, setName name changeErr before =
      (.ok err, before ++ events) ∧ OnlyNames events := by
  unfold setName
  by_cases hshort : name.utf8ByteSize < 4
  · rw [if_pos hshort]
    refine ⟨_, [], Prod.ext rfl (List.append_nil before).symm, ?_⟩
    exact List.forall_mem_nil _
  · rw [if_neg hshort]
    refine ⟨changeErr, [.ran ["--changeName", name]], rfl, ?_⟩
    intro event hevent
    rw [List.mem_singleton.mp hevent]
    exact ⟨_, _, rfl, by decide⟩

variable (post : ApsPost)

theorem namesRead_of_renames {obj : APIPostApsReq}
    (hrenames : post.Renames obj) :
    post.NamesRead obj ↔
      (readNames post.unmarshalText post.namesAfter).2 = none :=
  ⟨fun h => h.1 hrenames,
    fun h => ⟨fun _ => h, fun hnot => absurd hrenames hnot⟩⟩

theorem namesRead_of_same {obj : APIPostApsReq}
    (hsame : ¬ post.Renames obj) :
    post.NamesRead obj ↔
      (readNames post.unmarshalText post.names).2 = none :=
  ⟨fun h => h.2 hsame,
    fun h => ⟨fun hrenames => absurd hrenames hsame, fun _ => h⟩⟩

theorem ApsPost.NamesSucceed.read {post : ApsPost} {obj : APIPostApsReq}
    (hnames : post.NamesSucceed obj) : post.NamesRead obj :=
  ⟨fun hrenames => (hnames.changed hrenames).2.2, fun _ => hnames.names⟩

/-- The error that the name commands leave is that of the last `getNames`. -/
theorem changeNames_events (obj : APIPostApsReq) (before : List ApsEvent) :
    ∃ names events,
      changeNames post obj.name before = (.ok names, before ++ events) ∧
      OnlyNames events ∧ (names.2 = none ↔ post.NamesRead obj) := by
  unfold changeNames
  rw [Effect.bind_of_ok (getNames_eq post.unmarshalText post.names before)]
  rcases hnames : readNames post.unmarshalText post.names with
    ⟨_ | namesMap, err⟩
  · have hsame : ¬ post.Renames obj := by
      rintro ⟨namesMap, err', hread, -⟩
      rw [hnames] at hread
      cases hread
    refine ⟨(none, err), _, rfl, onlyNames_showNames, ?_⟩
    rw [namesRead_of_same post hsame, hnames]
  · by_cases hother : get namesMap "ssid" ≠ obj.name
    · have hrenames : post.Renames obj := ⟨namesMap, err, hnames, hother⟩
      obtain ⟨changed, events, hset, honly⟩ :=
        setName_events obj.name post.changeName
          (before ++ [.ran ["--showNames"]])
      have hlast : getNames post.unmarshalText post.namesAfter
          (before ++ [.ran ["--showNames"]] ++ events) =
          (.ok (readNames post.unmarshalText post.namesAfter),
            before ++ ([.ran ["--showNames"]] ++ events ++
              [.ran ["--showNames"]])) := by
        rw [getNames_eq]
        simp only [List.append_assoc]
      simp only [if_pos hother]
      rw [Effect.bind_of_ok hset, hlast]
      refine ⟨_, _, rfl,
        (onlyNames_showNames.append honly).append onlyNames_showNames, ?_⟩
      rw [namesRead_of_renames post hrenames]
    · have hsame : ¬ post.Renames obj := by
        rintro ⟨namesMap', err', hread, hne⟩
        rw [hnames] at hread
        cases hread
        exact hother hne
      simp only [if_neg hother]
      refine ⟨(some namesMap, err), _, rfl, onlyNames_showNames, ?_⟩
      rw [namesRead_of_same post hsame, hnames]

/-! ## The whole request -/

section

variable {events : List ApsEvent}

theorem OnlyNames.not_starts (h : OnlyNames events) : ¬ StartsWiFi events := by
  rintro ⟨args, hran⟩
  obtain ⟨command, args', heq, hne⟩ := h _ hran
  cases heq
  exact hne rfl

theorem OnlyNames.not_wrote (h : OnlyNames events)
    (res : APIPostApsRes) : .wrote res ∉ events := by
  intro hwrote
  obtain ⟨command, args, heq, -⟩ := h _ hwrote
  cases heq

theorem OnlyNames.starts_append_iff (h : OnlyNames events)
    (later : List ApsEvent) :
    StartsWiFi (events ++ later) ↔ StartsWiFi later := by
  simp only [StartsWiFi, List.mem_append]
  constructor
  · rintro ⟨args, hran | hran⟩
    · exact absurd ⟨args, hran⟩ h.not_starts
    · exact ⟨args, hran⟩
  · rintro ⟨args, hran⟩
    exact ⟨args, Or.inr hran⟩

theorem OnlyNames.wrote_append_iff (h : OnlyNames events)
    (later : List ApsEvent) (res : APIPostApsRes) :
    .wrote res ∈ events ++ later ↔ .wrote res ∈ later := by
  rw [List.mem_append, or_iff_right (h.not_wrote res)]

end

theorem apsEvents_panicked
    (hpanics : ∀ obj, post.obj = .ok obj → post.writeErr ≠ none) :
    ∃ events err, apsEvents post = events ++ [.panicked err] ∧
      OnlyNames events := by
  unfold apsEvents apsResponse
  cases hobj : post.obj with
  | error err =>
      exact ⟨[], err, rfl, List.forall_mem_nil _⟩
  | ok obj =>
      obtain ⟨names, events, hnames, honly, -⟩ :=
        changeNames_events post obj []
      cases hwrite : post.writeErr with
      | none => exact absurd hwrite (hpanics obj hobj)
      | some err =>
          refine ⟨events, err, ?_, honly⟩
          simp only [answerAps, hwrite]
          rw [Effect.bind_of_ok hnames]
          rfl

theorem response_error_iff (obj : APIPostApsReq)
    (namesMap : Option StringMap) (err : Option ErrorText) :
    (response obj namesMap err).Error = "" ↔ err = none := by
  cases err with
  | none => exact iff_of_true rfl rfl
  | some err => exact iff_of_false err.nonempty (Option.some_ne_none err)

/-- Otherwise a response is written, and the network is changed afterwards if
the request is accepted. -/
theorem apsEvents_written {obj : APIPostApsReq} (hobj : post.obj = .ok obj)
    (hwrite : post.writeErr = none) :
    ∃ events res rest,
      apsEvents post = events ++ .wrote res :: rest ∧ OnlyNames events ∧
      (res.Error = "" ↔ obj.Accepted ∧ post.NamesRead obj) ∧
      (obj.Accepted → ∃ args, rest = [.ran ("--changeWiFi" :: args)]) ∧
      (¬ obj.Accepted → rest = []) := by
  obtain ⟨names, events, hnames, honly, hread⟩ :=
    changeNames_events post obj []
  unfold apsEvents apsResponse
  simp only [hobj, answerAps, hwrite]
  rw [Effect.bind_of_ok hnames]
  rcases checkProtocol_cases obj names.2 with
    ⟨haccepted, hcheck⟩ | ⟨hrefused, text, hcheck⟩
  · obtain ⟨args, hchange⟩ :=
      changeWiFi_of_accepted haccepted
        (events ++ [.wrote (response obj names.1 names.2)])
    refine ⟨events, response obj names.1 names.2,
      [.ran ("--changeWiFi" :: args)], ?_, honly, ?_, ?_, ?_⟩
    · simp only [hcheck, if_true, emit, Effect.modify_bind,
        List.nil_append]
      rw [hchange, List.append_assoc]
      rfl
    · rw [← hread, response_error_iff, and_iff_right haccepted]
    · exact fun _ => ⟨args, rfl⟩
    · exact fun hnot => absurd haccepted hnot
  · refine ⟨events, response obj names.1 (some text), [], ?_, honly, ?_, ?_,
      ?_⟩
    · simp only [hcheck, emit, Effect.modify_bind, List.nil_append]
      rfl
    · exact iff_of_false text.nonempty (fun h => hrefused h.1)
    · exact fun haccepted => absurd haccepted hrefused
    · exact fun _ => rfl

structure Answers (post : ApsPost) (obj : APIPostApsReq)
    (res : APIPostApsRes) : Prop where
  wrote : ∀ other, .wrote other ∈ apsEvents post ↔ other = res
  error : res.Error = "" ↔ obj.Accepted ∧ post.NamesRead obj
  starts : StartsWiFi (apsEvents post) ↔ obj.Accepted

theorem exists_answers {obj : APIPostApsReq} (hobj : post.obj = .ok obj)
    (hwrite : post.writeErr = none) : ∃ res, Answers post obj res := by
  obtain ⟨events, res, rest, hevents, honly, herror, haccepted, hrefused⟩ :=
    apsEvents_written post hobj hwrite
  refine ⟨res, ?_, herror, ?_⟩
  · intro other
    have hrest : .wrote other ∉ rest := by
      intro hother
      by_cases hacc : obj.Accepted
      · obtain ⟨args, rfl⟩ := haccepted hacc
        simp at hother
      · rw [hrefused hacc] at hother
        cases hother
    rw [hevents, honly.wrote_append_iff, List.mem_cons, or_iff_left hrest,
      ApsEvent.wrote.injEq]
  · rw [hevents, honly.starts_append_iff]
    by_cases hacc : obj.Accepted
    · obtain ⟨args, rfl⟩ := haccepted hacc
      exact iff_of_true ⟨args, by simp⟩ hacc
    · rw [hrefused hacc]
      exact iff_of_false (fun ⟨args, hran⟩ => by simp at hran) hacc

theorem agrees_iff_of_written {obj : APIPostApsReq}
    (hobj : post.obj = .ok obj) (hwrite : post.writeErr = none) :
    post.Agrees ↔ (obj.Accepted → post.NamesRead obj) ∧
      (post.NamesSucceed obj → obj.PasswordFits) := by
  obtain ⟨res, hwrote, herror, hstarts⟩ := exists_answers post hobj hwrite
  have hreports : ReportsNoError (apsEvents post) ↔
      obj.Accepted ∧ post.NamesRead obj := by
    simp only [ReportsNoError, hwrote, exists_eq_left, herror]
  constructor
  · rintro ⟨hstarted, hchecked⟩
    rw [hstarts, hreports] at hstarted
    refine ⟨fun hacc => (hstarted.mp hacc).2, fun hnames => ?_⟩
    have hiff := hchecked obj hobj hnames res ((hwrote res).mpr rfl)
    rw [herror, and_iff_left hnames.read] at hiff
    exact accepted_iff_acceptable.mp hiff
  · rintro ⟨hread, hpassword⟩
    constructor
    · rw [hstarts, hreports]
      exact ⟨fun hacc => ⟨hacc, hread hacc⟩, And.left⟩
    · intro other hother hnames answer hanswer
      cases hobj.symm.trans hother
      rw [(hwrote answer).mp hanswer, herror, and_iff_left hnames.read]
      exact accepted_iff_acceptable.mpr (hpassword hnames)

theorem agrees_of_panicked
    (hpanics : ∀ obj, post.obj = .ok obj → post.writeErr ≠ none) :
    post.Agrees := by
  obtain ⟨events, err, hevents, honly⟩ := apsEvents_panicked post hpanics
  have hwrote : ∀ res, .wrote res ∉ apsEvents post := by
    intro res
    rw [hevents, honly.wrote_append_iff]
    simp
  have hstarts : ¬ StartsWiFi (apsEvents post) := by
    rw [hevents, honly.starts_append_iff]
    rintro ⟨args, hran⟩
    simp at hran
  constructor
  · exact iff_of_false hstarts (fun ⟨res, hres, _⟩ => hwrote res hres)
  · intro obj _ _ res hres
    exact absurd hres (hwrote res)

/-- The network is changed exactly when no error is reported, and passwords
are checked as they should be, exactly where the request fits. -/
theorem apsResponse_agrees_iff : post.Agrees ↔ post.Fits := by
  by_cases hwritten : ∃ obj, post.obj = .ok obj ∧ post.writeErr = none
  · obtain ⟨obj, hobj, hwrite⟩ := hwritten
    rw [agrees_iff_of_written post hobj hwrite]
    constructor
    · intro h obj' hobj' _
      cases hobj.symm.trans hobj'
      exact h
    · intro hfits
      exact hfits obj hobj hwrite
  · have hpanics : ∀ obj, post.obj = .ok obj → post.writeErr ≠ none :=
      fun obj hobj hwrite => hwritten ⟨obj, hobj, hwrite⟩
    refine iff_of_true (agrees_of_panicked post hpanics) ?_
    intro obj hobj hwrite
    exact absurd hwrite (hpanics obj hobj)

/-- A WEP password of five characters is refused. -/
theorem wep_password_refused : ¬ ∀ post : ApsPost, post.Agrees := by
  intro hall
  let obj : APIPostApsReq :=
    { SysName := ""
      Ssid := "home"
      Protocol := "WEP"
      Password := "12345"
      Username := "" }
  let post : ApsPost :=
    { obj := .ok obj
      names := .ok (.json (.object [("ssid", .string "luci")]))
      changeName := none
      namesAfter := .ok (.json (.object [("ssid", .string "luci")]))
      unmarshalText := fun _ => .ofString "not a map"
      writeErr := none }
  have hnames : post.NamesSucceed obj := by
    constructor
    · rfl
    · rintro ⟨namesMap, err, hread, hne⟩
      cases hread
      exact absurd (by decide) hne
  have hfits := ((agrees_iff_of_written post rfl rfl).mp (hall post)).2 hnames
  exact (hfits.wep rfl).1 (by decide)

end DronesmithEngine.StatusServer
