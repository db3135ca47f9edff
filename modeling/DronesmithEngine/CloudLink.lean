import DronesmithEngine.DronedpFrames
import DronesmithEngine.FlightSyncer
import DronesmithEngine.GoEffects
import Mathlib.Tactic

/-!
# The cloud link

The messages of the server and the status timer, from
`cloudlink/cloudlink.go`.  What a call starts in another goroutine, hands to
one, or sends is recorded.  The store is what `Get` reads from it.
-/

namespace DronesmithEngine.Cloudlink

open Go Apiservice

def TIME_OUT_CNT : ℤ := 15

/-- The syncer, with whether a listener was started for it. -/
structure Syncer extends FlightSyncer where
  isRunning : Bool

def NewFlightSyncer : Syncer := ⟨⟨"", ""⟩, false⟩

namespace Syncer

def Start (fs : Syncer) (userId droneId : String) : Option Syncer :=
  if droneId = "" ∨ fs.isRunning then none
  else some { DroneId := droneId, UserId := userId, isRunning := true }

def Stop (_ : Syncer) : Syncer :=
  { DroneId := "", UserId := "", isRunning := false }

end Syncer

inductive CloudAction
  | listener
  | quit
  | openTerminal
  | closeTerminal
  | write (ddpdata : List UInt8)
  deriving DecidableEq

structure CloudLink where
  sessionId : UInt32
  messageCnt : ℤ
  terminalOnline : Bool
  uid : String
  SimId : String
  syncer : Syncer
  store : StringMap
  rawFmuCmd : Option (List UInt8)
  recorded : List CloudAction

namespace CloudLink

def record (action : CloudAction) (cl : CloudLink) : CloudLink :=
  { cl with recorded := cl.recorded ++ [action] }

def SetRawFmuCmd (chunk : List UInt8) (cl : CloudLink) : CloudLink :=
  { cl with rawFmuCmd := some chunk }

def stopSyncer (cl : CloudLink) : CloudLink :=
  { cl with syncer := cl.syncer.Stop }.record .quit

/-- An error of `Start` is ignored. -/
def startSyncer (userId droneId : String) (cl : CloudLink) : CloudLink :=
  match cl.syncer.Start userId droneId with
  | some fs => { cl with syncer := fs }.record .listener
  | none => cl

/-! ## The read thread -/

def heard (session : UInt32) (cl : CloudLink) : CloudLink :=
  { cl with messageCnt := TIME_OUT_CNT, sessionId := session }

/-- Avoids sending to the wrong person. -/
def stopOther (userId droneId : String) (cl : CloudLink) : CloudLink :=
  if cl.syncer.isRunning ∧
      (cl.syncer.UserId ≠ userId ∨ cl.syncer.DroneId ≠ droneId) then
    cl.stopSyncer
  else cl

def startStopped (userId droneId : String) (cl : CloudLink) : CloudLink :=
  if cl.syncer.isRunning then cl else cl.startSyncer userId droneId

/-- `terminalOnline` is false again only after `Close` succeeded. -/
def handleTerminal (terminal : Bool) (cl : CloudLink) : CloudLink :=
  if terminal then
    if cl.terminalOnline then cl
    else { cl with terminalOnline := true }.record .openTerminal
  else if cl.terminalOnline then cl.record .closeTerminal
  else cl

def handleStatus (statusMsg : StatusMsg) (droneId : String)
    (cl : CloudLink) : CloudLink :=
  ((cl.stopOther statusMsg.User droneId).startStopped statusMsg.User
    droneId).handleTerminal statusMsg.Terminal

def handleMessage (decoded : Msg) : Effect CloudLink Unit := do
  Effect.modify (heard decoded.Session)
  if decoded.Op = OP_MAVLINK_BIN then
    match decoded.Data with
    | .bytes chunk => Effect.modify (SetRawFmuCmd chunk)
    | _ => Effect.lift (.error .typeAssertion)
  else if decoded.Op = OP_STATUS then
    match decoded.Data with
    | .status statusMsg => do
        let droneId ← Effect.lift (Apiservice.get statusMsg.Drone "_id").asString
        Effect.modify (handleStatus statusMsg droneId)
    -- The assertion has a second result, and leaves a nil pointer.
    | _ => Effect.lift (.error .nilDereference)
  else pure ()

/-- What the read thread does with a datagram of at least one byte (it skips
an empty one), and the error that it logs when the datagram is rejected. -/
def receive (json : Unmarshaler) (data : List UInt8) :
    Effect CloudLink (Option ParseError) := do
  match ← Effect.lift (ParseMsg json data) with
  | .error err => pure (some err)
  | .ok decoded => do
      handleMessage decoded
      pure none

def readFailed (cl : CloudLink) : CloudLink := { cl with sessionId := 0 }

/-! ## The timer -/

def checkOnline (cl : CloudLink) : CloudLink :=
  if cl.messageCnt - 1 = 0 then
    { cl with sessionId := 0, messageCnt := TIME_OUT_CNT }
  else { cl with messageCnt := cl.messageCnt - 1 }

def stopOffline (cl : CloudLink) : CloudLink :=
  if cl.sessionId = 0 ∧ cl.syncer.isRunning then cl.stopSyncer else cl

def statusMsg (cl : CloudLink) : StatusMsg where
  Op := if cl.sessionId = 0 then "connect" else "status"
  Serial := if cl.sessionId = 0 then cl.uid else ""
  SimId := if cl.sessionId = 0 then cl.SimId else ""
  Email := if cl.sessionId = 0 then get cl.store "email" else ""
  Password := if cl.sessionId = 0 then get cl.store "pass" else ""
  Drone := ∅
  User := ""
  Terminal := false

section

variable {ε : Type} (Marshal : Outgoing StatusMsg → Except ε (List UInt8))

def sendStatus : Effect CloudLink Unit := do
  Effect.modify stopOffline
  let cl ← Effect.read id
  match ← Effect.lift
      (GenerateMsg Marshal OP_STATUS cl.sessionId (.value cl.statusMsg)) with
  | .error _ => Effect.modify checkOnline
  | .ok ddpdata => do
      Effect.modify (record (.write ddpdata))
      Effect.modify checkOnline

end

/-! ## Starting and leaving a session -/

/-- What `Serve` sets before it starts the read thread. -/
def Serve (cl : CloudLink) : CloudLink :=
  { cl with
    sessionId := 0, messageCnt := TIME_OUT_CNT, terminalOnline := false }

/-- `Logout`, with what its `Del` and `Set` leave in the store. -/
def Logout (left : StringMap) (cl : CloudLink) : CloudLink :=
  { cl with
    sessionId := 0, messageCnt := TIME_OUT_CNT, terminalOnline := false
    store := left }

/-! ## Receiving any datagram -/

/-- A datagram is processed or rejected, and a rejected one changes
nothing. -/
structure ReceivesSafely (json : Unmarshaler) (data : List UInt8)
    (cl : CloudLink) : Prop where
  answers : ∃ answer, (cl.receive json data).1 = .ok answer
  rejected : ∀ err, (cl.receive json data).1 = .ok (some err) →
    (cl.receive json data).2 = cl

/-- The server names a drone. -/
def NamesDrone (statusMsg : StatusMsg) : Prop :=
  ∃ droneId, Apiservice.get statusMsg.Drone "_id" = .string droneId

theorem asString_ok_iff {value : Json} {s : String} :
    value.asString = .ok s ↔ value = .string s := by
  cases value <;> simp [Json.asString]

theorem handleMessage_status {decoded : Msg} {statusMsg : StatusMsg}
    (hop : decoded.Op = OP_STATUS) (hdata : decoded.Data = .status statusMsg)
    (cl : CloudLink) :
    (∃ cl', handleMessage decoded cl = (.ok (), cl')) ↔
      NamesDrone statusMsg := by
  have hbinary : OP_STATUS ≠ OP_MAVLINK_BIN := by decide
  simp only [handleMessage, hop, hdata, if_neg hbinary, if_true,
    Effect.modify_bind]
  cases hid : (Apiservice.get statusMsg.Drone "_id").asString with
  | ok droneId =>
      refine iff_of_true ⟨_, rfl⟩ ⟨droneId, ?_⟩
      exact asString_ok_iff.mp hid
  | error e =>
      apply iff_of_false
      · rintro ⟨cl', hok⟩
        cases hok
      · rintro ⟨droneId, hname⟩
        rw [hname] at hid
        cases hid

/-- A message that was parsed holds data of the type that its op stands
for. -/
theorem handleMessage_parsed {json : Unmarshaler} {decoded : Msg}
    {payload : List UInt8}
    (hdata : parseData json decoded.Op payload = .ok decoded.Data)
    (hop : decoded.Op ≠ OP_STATUS) (cl : CloudLink) :
    ∃ cl', handleMessage decoded cl = (.ok (), cl') := by
  by_cases hbinary : decoded.Op = OP_MAVLINK_BIN
  · rw [parseData, if_pos hbinary, Except.ok.injEq] at hdata
    simp only [handleMessage, hbinary, ← hdata, if_true, Effect.modify_bind]
    exact ⟨_, rfl⟩
  · simp only [handleMessage, if_neg hbinary, if_neg hop, Effect.modify_bind]
    exact ⟨_, rfl⟩

theorem parseData_status_iff {json : Unmarshaler} {payload : List UInt8}
    {data : MsgData} :
    parseData json OP_STATUS payload = .ok data ↔
      ∃ statusMsg, json.status payload = some statusMsg ∧
        data = .status statusMsg := by
  have hbin : OP_STATUS ≠ OP_MAVLINK_BIN := by decide
  have htext : OP_STATUS ≠ OP_MAVLINK_TEXT := by decide
  rw [parseData, if_neg hbin, if_neg htext, if_pos rfl]
  cases json.status payload <;> simp [eq_comm]

theorem not_receivesSafely_tiny (json : Unmarshaler) {data : List UInt8}
    (hlen : data.length < 2) (cl : CloudLink) :
    ¬ cl.ReceivesSafely json data := by
  rintro ⟨⟨answer, hok⟩, -⟩
  rw [receive, ParseMsg_tiny json hlen] at hok
  cases hok

theorem receive_rejected {json : Unmarshaler} {data : List UInt8}
    {err : ParseError} (hparse : ParseMsg json data = .ok (.error err))
    (cl : CloudLink) : cl.receive json data = (.ok (some err), cl) := by
  unfold receive
  rw [hparse]
  rfl

theorem receive_parsed {json : Unmarshaler} {data : List UInt8}
    {decoded : Msg} (hparse : ParseMsg json data = .ok (.ok decoded))
    (cl : CloudLink) :
    cl.receive json data =
      (handleMessage decoded >>= fun _ => pure none) cl := by
  unfold receive
  rw [hparse]
  rfl

theorem receive_handled {json : Unmarshaler} {data : List UInt8}
    {decoded : Msg} (hparse : ParseMsg json data = .ok (.ok decoded))
    (cl : CloudLink) :
    cl.ReceivesSafely json data ↔
      ∃ cl', handleMessage decoded cl = (.ok (), cl') := by
  have hreceive := receive_parsed hparse cl
  rcases hhandled : handleMessage decoded cl with ⟨e | _, cl'⟩
  · rw [Effect.bind_of_error hhandled] at hreceive
    apply iff_of_false
    · rintro ⟨⟨answer, hok⟩, -⟩
      rw [hreceive] at hok
      cases hok
    · rintro ⟨next, hok⟩
      cases hok
  · rw [Effect.bind_of_ok hhandled] at hreceive
    refine iff_of_true ⟨⟨none, ?_⟩, ?_⟩ ⟨cl', rfl⟩
    · rw [hreceive]
      rfl
    · intro err herr
      rw [hreceive] at herr
      cases herr

theorem ParseMsg_status {json : Unmarshaler} {data : List UInt8}
    {statusMsg : StatusMsg} (hpasses : PassesAs OP_STATUS data)
    (hdecoded : json.status (payloadOf data) = some statusMsg) :
    ∃ session, ParseMsg json data =
      .ok (.ok ⟨OP_STATUS, session, .status statusMsg⟩) := by
  obtain ⟨session, hsession⟩ :=
    BigEndian.PutUint32_surjective (data.take 4) (by
      have hbehind := hpasses.behind
      rw [List.length_take]
      omega)
  have hdata := parseData_status_iff.mpr ⟨statusMsg, hdecoded, rfl⟩
  exact ⟨session,
    (ParseMsg_ok_iff json).mpr ⟨hpasses, hsession.symm, hdata⟩⟩

/-- A datagram is received safely exactly when it has two bytes at least, and
a status message in it names a drone. -/
theorem receivesSafely_iff (json : Unmarshaler) (data : List UInt8)
    (cl : CloudLink) :
    cl.ReceivesSafely json data ↔
      2 ≤ data.length ∧
        ∀ statusMsg, PassesAs OP_STATUS data →
          json.status (payloadOf data) = some statusMsg →
            NamesDrone statusMsg := by
  by_cases hlen : 2 ≤ data.length
  · obtain ⟨answer, hparse⟩ := ParseMsg_answers json hlen
    rw [and_iff_right hlen]
    rcases answer with err | decoded
    · apply iff_of_true
      · have hreceive := receive_rejected hparse cl
        exact ⟨⟨some err, by rw [hreceive]⟩, fun _ _ => by rw [hreceive]⟩
      · intro statusMsg hpasses hdecoded
        obtain ⟨session, hstatus⟩ := ParseMsg_status hpasses hdecoded
        rw [hparse] at hstatus
        cases hstatus
    · rw [receive_handled hparse]
      obtain ⟨hpasses, -, hdata⟩ := (ParseMsg_ok_iff json).mp hparse
      by_cases hop : decoded.Op = OP_STATUS
      · rw [hop] at hdata
        obtain ⟨statusMsg, hdecoded, hstatus⟩ :=
          parseData_status_iff.mp hdata
        rw [handleMessage_status hop hstatus]
        constructor
        · intro hnames other _ hother
          rw [hdecoded, Option.some.injEq] at hother
          exact hother ▸ hnames
        · intro hcond
          exact hcond statusMsg (hop ▸ hpasses) hdecoded
      · apply iff_of_true
        · exact handleMessage_parsed hdata hop cl
        · intro statusMsg hstatus
          have hsame := hpasses.op.symm.trans hstatus.op
          exact absurd (Option.some.inj hsame) hop
  · apply iff_of_false
    · exact not_receivesSafely_tiny json (Nat.not_le.mp hlen) cl
    · exact fun hcond => hlen hcond.1

/-- A datagram of one byte makes `ParseMsg` panic. -/
theorem short_datagram_panics :
    ¬ ∀ (json : Unmarshaler) (data : List UInt8) (cl : CloudLink),
      1 ≤ data.length → cl.ReceivesSafely json data := by
  intro hall
  let cl : CloudLink :=
    { sessionId := 0, messageCnt := TIME_OUT_CNT, terminalOnline := false
      uid := "", SimId := "", syncer := NewFlightSyncer, store := ∅
      rawFmuCmd := none, recorded := [] }
  exact not_receivesSafely_tiny ⟨fun _ => none, fun _ => none⟩ (by decide) cl
    (hall _ [0] cl le_rfl)

end CloudLink

end DronesmithEngine.Cloudlink
