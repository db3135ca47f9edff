import DronesmithEngine.CloudSessions
import Mathlib.Tactic

/-!
# Replies that are late

The client of `cloudlink/cloudlink.go` and its server exchange datagrams that
arrive in any order, or never.  A datagram of the server may answer a message
of the client; nothing in it says which.  `Logout` and the timeout of
`checkOnline` clear the session, and `setupResponse` of
`statusServer/statusServer.go` waits for one after it has stored credentials.
-/

namespace DronesmithEngine.Cloudlink

open Go Apiservice LabelledRuns

/-! ## Starting the syncer -/

/-- The syncer is started for these ids, unless it runs for them already. -/
def Syncer.Starts (fs : Syncer) (ids : FlightSyncer) : Prop :=
  ids.DroneId ≠ "" ∧
    ¬ (fs.isRunning ∧ fs.UserId = ids.UserId ∧ fs.DroneId = ids.DroneId)

instance (fs : Syncer) (ids : FlightSyncer) : Decidable (fs.Starts ids) :=
  inferInstanceAs (Decidable (_ ∧ _))

namespace CloudLink

variable {cl cl' : CloudLink}

def IsOnlineNonBlock (cl : CloudLink) : Prop := cl.sessionId ≠ 0

instance (cl : CloudLink) : Decidable cl.IsOnlineNonBlock :=
  inferInstanceAs (Decidable (_ ≠ _))

/-- How often the syncer has been started. -/
def listeners (cl : CloudLink) : ℕ := cl.recorded.count .listener

def StartsSyncer (cl : CloudLink) (decoded : Msg) : Prop :=
  ∃ ids ∈ named decoded, cl.syncer.Starts ids

instance (cl : CloudLink) (decoded : Msg) :
    Decidable (cl.StartsSyncer decoded) :=
  inferInstanceAs (Decidable (∃ ids ∈ named decoded, _))

@[simp] theorem listeners_record {action : CloudAction}
    (haction : action ≠ .listener) (cl : CloudLink) :
    (cl.record action).listeners = cl.listeners := by
  rw [listeners, record, List.count_append,
    List.count_singleton, if_neg (by simpa using haction), add_zero,
    listeners]

theorem stopOther_spec (userId droneId : String) (cl : CloudLink) :
    (cl.stopOther userId droneId).listeners = cl.listeners ∧
      (cl.stopOther userId droneId).sessionId = cl.sessionId ∧
      ((cl.stopOther userId droneId).syncer.isRunning ↔
        cl.syncer.isRunning ∧ cl.syncer.UserId = userId ∧
          cl.syncer.DroneId = droneId) := by
  unfold stopOther
  split
  next hother =>
    refine ⟨listeners_record (by decide) _, rfl, ?_⟩
    refine iff_of_false Bool.false_ne_true fun ⟨_, huser, hdrone⟩ => ?_
    exact hother.2.elim (· huser) (· hdrone)
  next hsame =>
    refine ⟨rfl, rfl, fun hrunning => ?_, And.left⟩
    simp only [hrunning, true_and, not_or, not_not] at hsame
    exact ⟨hrunning, hsame⟩

theorem startStopped_spec (userId droneId : String) (cl : CloudLink) :
    (cl.startStopped userId droneId).listeners =
        cl.listeners +
          (if droneId ≠ "" ∧ ¬ cl.syncer.isRunning then 1 else 0) ∧
      (cl.startStopped userId droneId).sessionId = cl.sessionId := by
  unfold startStopped
  split
  next hrunning =>
    rw [if_neg fun h => h.2 hrunning]
    exact ⟨rfl, rfl⟩
  next hstopped =>
    unfold startSyncer Syncer.Start
    by_cases hid : droneId = ""
    · rw [if_pos (Or.inl hid), if_neg fun h => h.1 hid]
      exact ⟨rfl, rfl⟩
    · rw [if_neg (by simp [hid, hstopped]), if_pos ⟨hid, hstopped⟩]
      refine ⟨?_, rfl⟩
      change (cl.recorded ++ [CloudAction.listener]).count .listener = _
      rw [List.count_append, List.count_singleton_self]
      rfl

theorem handleTerminal_spec (terminal : Bool) (cl : CloudLink) :
    (cl.handleTerminal terminal).listeners = cl.listeners ∧
      (cl.handleTerminal terminal).sessionId = cl.sessionId := by
  unfold handleTerminal
  split
  · split
    · exact ⟨rfl, rfl⟩
    · exact ⟨listeners_record (by decide) _, rfl⟩
  · split
    · exact ⟨listeners_record (by decide) _, rfl⟩
    · exact ⟨rfl, rfl⟩

theorem handleStatus_spec (statusMsg : StatusMsg) (droneId : String)
    (cl : CloudLink) :
    (cl.handleStatus statusMsg droneId).listeners =
        cl.listeners +
          (if cl.syncer.Starts ⟨droneId, statusMsg.User⟩ then 1 else 0) ∧
      (cl.handleStatus statusMsg droneId).sessionId = cl.sessionId := by
  obtain ⟨hstop, hstopSession, hrunning⟩ :=
    cl.stopOther_spec statusMsg.User droneId
  obtain ⟨hstart, hstartSession⟩ :=
    (cl.stopOther statusMsg.User droneId).startStopped_spec statusMsg.User
      droneId
  obtain ⟨hterminal, hterminalSession⟩ :=
    ((cl.stopOther statusMsg.User droneId).startStopped statusMsg.User
      droneId).handleTerminal_spec statusMsg.Terminal
  have hstarts : droneId ≠ "" ∧
      ¬ (cl.stopOther statusMsg.User droneId).syncer.isRunning ↔
        cl.syncer.Starts ⟨droneId, statusMsg.User⟩ :=
    and_congr_right fun _ => not_congr hrunning
  refine ⟨?_, ?_⟩
  · rw [handleStatus, hterminal, hstart, hstop]
    exact congrArg (cl.listeners + ·) (if_congr hstarts rfl rfl)
  · rw [handleStatus, hterminalSession, hstartSession, hstopSession]

theorem handleMessage_spec {decoded : Msg}
    (hhandled : after (handleMessage decoded) cl = some cl') :
    cl'.sessionId = decoded.Session ∧
      cl'.listeners =
        cl.listeners + (if cl.StartsSyncer decoded then 1 else 0) := by
  rcases handleMessage_cases hhandled with
    ⟨hnone, chunk, rfl⟩ | ⟨statusMsg, droneId, hnamed, rfl⟩
  · have hnot : ¬ cl.StartsSyncer decoded := by
      rw [StartsSyncer, hnone]
      rintro ⟨ids, hids, -⟩
      cases hids
    rw [if_neg hnot]
    exact ⟨rfl, rfl⟩
  · obtain ⟨hlisteners, hsession⟩ :=
      (cl.heard decoded.Session).handleStatus_spec statusMsg droneId
    have hstarts : cl.StartsSyncer decoded ↔
        (cl.heard decoded.Session).syncer.Starts
          ⟨droneId, statusMsg.User⟩ := by
      rw [StartsSyncer, hnamed]
      simp [heard]
    refine ⟨hsession, hlisteners.trans ?_⟩
    exact congrArg (cl.listeners + ·) (if_congr hstarts.symm rfl rfl)

/-- The message of the timer, if it can be generated. -/
def sentStatus {ε : Type}
    (Marshal : Outgoing StatusMsg → Except ε (List UInt8))
    (cl : CloudLink) : Option StatusMsg :=
  match GenerateMsg Marshal OP_STATUS cl.stopOffline.sessionId
      (.value cl.stopOffline.statusMsg) with
  | .ok (.ok _) => some cl.stopOffline.statusMsg
  | _ => none

theorem checkOnline_spec (cl : CloudLink) :
    cl.checkOnline.listeners = cl.listeners ∧
      cl.checkOnline.sessionId =
        if cl.messageCnt - 1 = 0 then 0 else cl.sessionId := by
  unfold checkOnline
  split
  next => exact ⟨rfl, rfl⟩
  next => exact ⟨rfl, rfl⟩

theorem stopOffline_spec (cl : CloudLink) :
    cl.stopOffline.listeners = cl.listeners ∧
      cl.stopOffline.sessionId = cl.sessionId ∧
      cl.stopOffline.messageCnt = cl.messageCnt := by
  unfold stopOffline
  split
  · exact ⟨listeners_record (by decide) _, rfl, rfl⟩
  · exact ⟨rfl, rfl, rfl⟩

theorem sendStatus_spec {ε : Type}
    {Marshal : Outgoing StatusMsg → Except ε (List UInt8)}
    (hsent : after (sendStatus Marshal) cl = some cl') :
    cl'.listeners = cl.listeners ∧
      cl'.sessionId =
        if cl.messageCnt - 1 = 0 then 0 else cl.sessionId := by
  obtain ⟨hlisteners, hsession, hcount⟩ := cl.stopOffline_spec
  rcases sendStatus_cases hsent with rfl | ⟨ddpdata, rfl⟩
  · obtain ⟨hchecked, hcheckedSession⟩ := cl.stopOffline.checkOnline_spec
    rw [hsession, hcount] at hcheckedSession
    exact ⟨hchecked.trans hlisteners, hcheckedSession⟩
  · obtain ⟨hchecked, hcheckedSession⟩ :=
      (cl.stopOffline.record (.write ddpdata)).checkOnline_spec
    have haction : CloudAction.write ddpdata ≠ .listener := nofun
    have hwritten := listeners_record haction cl.stopOffline
    refine ⟨hchecked.trans (hwritten.trans hlisteners), ?_⟩
    change _ = if cl.stopOffline.messageCnt - 1 = 0 then 0
      else cl.stopOffline.sessionId at hcheckedSession
    rwa [hsession, hcount] at hcheckedSession

end CloudLink

/-! ## `POST /index/setup` -/

/-- What a call of the store's `Set` meets: it succeeds, or it fails to open
or to write the file. -/
inductive SetOutcome
  | succeeds
  | unopened (err : String)
  | unwritten (err : String)
  deriving DecidableEq

/-- `Set`, with its error. -/
def storeSet (name value : String) :
    SetOutcome → StringMap → Option String × StringMap
  | .succeeds, store => (none, store.insert name value)
  | .unopened err, store => (some err, store)
  | .unwritten err, store => (some err, (store.insert name value).erase name)

def SETUP_STEP_DSSCOMPLETE : String := "setupDss"

structure APIPostSetupRes where
  Status : String
  Error : String
  deriving DecidableEq

/-- A request that waits in `IsOnline`, with the credentials that are in the
store since so many messages were transmitted. -/
structure Waiting where
  email : String
  pass : String
  since : ℕ
  attempts : ℕ
  deriving DecidableEq

/-! ## The exchange -/

/-- A datagram of the server, and the number of the message that it
answers. -/
structure Datagram where
  answers : Option ℕ
  decoded : Msg

/-- The session was cleared when so many messages had been transmitted and
the syncer had been started so often. -/
structure Clear where
  since : ℕ
  listeners : ℕ

/-- The client, the server and the datagrams on their way.  Messages are
numbered in the order in which the client transmits them.  `cleared` is there
from the last `Logout` or timeout until a connect message transmitted since
then has been answered. -/
structure Exchange where
  cl : CloudLink
  transmitted : List StatusMsg
  uplink : List ℕ
  received : List ℕ
  replied : List ℕ
  downlink : List Datagram
  cleared : Option Clear
  waiting : List Waiting
  answered : List (Option Waiting × APIPostSetupRes)

inductive ExchangeEvent
  | sendStatus
  /-- A message reaches the server. -/
  | arrive (k : ℕ)
  /-- The server sends a datagram. -/
  | reply (answers : Option ℕ) (decoded : Msg)
  /-- A datagram reaches the client. -/
  | deliver (k : ℕ)
  | readFailed
  | Serve
  | Logout (left : StringMap)
  | setIdentity (uid : String) (store : StringMap)
  | setup (email pass : String) (first second : SetOutcome)
  /-- A request that waits looks at the session. -/
  | poll (k : ℕ) (outcome : SetOutcome)

namespace Exchange

def clear (s : Exchange) : Exchange :=
  { s with cleared := some ⟨s.transmitted.length, s.cl.listeners⟩ }

def transmit (s : Exchange) : Option StatusMsg → Exchange
  | none => s
  | some msg =>
      { s with
        transmitted := s.transmitted ++ [msg]
        uplink := s.uplink ++ [s.transmitted.length] }

def setStore (store : StringMap) (s : Exchange) : Exchange :=
  { s with cl := { s.cl with store := store } }

def answer (wait : Option Waiting) (res : APIPostSetupRes) (s : Exchange) :
    Exchange :=
  { s with answered := s.answered ++ [(wait, res)] }

/-- The datagram answers a connect message that was transmitted since. -/
def AnswersConnect (s : Exchange) (since : ℕ) (d : Datagram) : Prop :=
  ∃ i ∈ d.answers, since ≤ i ∧ ∃ msg ∈ s.transmitted[i]?, msg.Op = "connect"

instance (s : Exchange) (since : ℕ) (d : Datagram) :
    Decidable (s.AnswersConnect since d) :=
  inferInstanceAs (Decidable (∃ i ∈ d.answers, _))

/-- The server answers what it has received, or nothing. -/
def reply (answers : Option ℕ) (decoded : Msg) (s : Exchange) :
    Option Exchange :=
  if ∀ i ∈ answers, i ∈ s.received then
    some
      { s with
        replied := s.replied ++ answers.toList
        downlink := s.downlink ++ [⟨answers, decoded⟩] }
  else none

def settle (d : Datagram) (s : Exchange) : Option Clear :=
  s.cleared.filter fun c => ¬ s.AnswersConnect c.since d

/-- The part of `setupResponse` before it waits.  The error of the first `Set`
is overwritten. -/
def setupResponse (email pass : String) (first second : SetOutcome)
    (s : Exchange) : Exchange :=
  if get s.cl.store "email" ≠ "" ∨ get s.cl.store "pass" ≠ "" then
    s.answer none ⟨"error", "Already activated."⟩
  else
    let store := (storeSet "email" email first s.cl.store).2
    let (err, store) := storeSet "pass" pass second store
    match err with
    | some err => (s.setStore store).answer none ⟨"error", err⟩
    | none =>
        { s.setStore store with
          waiting := s.waiting ++
            [⟨get store "email", get store "pass", s.transmitted.length,
              0⟩] }

/-- One pass of the loop in `IsOnline`, and what `setupResponse` does when it
is the last one. -/
def poll (wait : Waiting) (k : ℕ) (outcome : SetOutcome) (s : Exchange) :
    Exchange :=
  let gone := { s with waiting := s.waiting.eraseIdx k }
  if s.cl.IsOnlineNonBlock then
    let (err, store) :=
      storeSet "step" SETUP_STEP_DSSCOMPLETE outcome s.cl.store
    (gone.setStore store).answer (some wait)
      (match err with
      | some err => ⟨"error", err⟩
      | none => ⟨"OK", ""⟩)
  else if 5 ≤ wait.attempts + 1 then
    (gone.setStore ∅).answer (some wait) ⟨"error", "Authentication failed."⟩
  else
    { s with
      waiting := s.waiting.set k { wait with attempts := wait.attempts + 1 } }

section

variable {ε : Type} (Marshal : Outgoing StatusMsg → Except ε (List UInt8))

def step (s : Exchange) : ExchangeEvent → Option Exchange
  | .sendStatus =>
      (after (CloudLink.sendStatus Marshal) s.cl).map fun cl =>
        let t := { s with cl := cl }.transmit (s.cl.sentStatus Marshal)
        if s.cl.messageCnt - 1 = 0 then t.clear else t
  | .arrive k =>
      s.uplink[k]?.map fun i =>
        { s with
          uplink := s.uplink.eraseIdx k, received := s.received ++ [i] }
  | .reply answers decoded => s.reply answers decoded
  | .deliver k => do
      let d ← s.downlink[k]?
      let cl ← after (CloudLink.handleMessage d.decoded) s.cl
      some
        { s with
          cl := cl, downlink := s.downlink.eraseIdx k, cleared := s.settle d }
  | .readFailed => some { s with cl := s.cl.readFailed }
  | .Serve => some { s with cl := s.cl.Serve }
  | .Logout left => some { s with cl := s.cl.Logout left }.clear
  | .setIdentity uid store =>
      some { s with cl := { s.cl with uid := uid, store := store } }
  | .setup email pass first second =>
      some (s.setupResponse email pass first second)
  | .poll k outcome =>
      s.waiting[k]?.map fun wait => s.poll wait k outcome

end

/-- `Serve` starts with nothing on its way. -/
def initial (cl : CloudLink) : Exchange where
  cl := { cl.Serve with syncer := NewFlightSyncer }
  transmitted := []
  uplink := []
  received := []
  replied := []
  downlink := []
  cleared := none
  waiting := []
  answered := []

/-! ## What an answer is worth -/

/-- Since the session was cleared it stays so, and the syncer is not
started. -/
def StaysOut (s : Exchange) : Prop :=
  ∀ c ∈ s.cleared,
    ¬ s.cl.IsOnlineNonBlock ∧ s.cl.listeners = c.listeners

instance (s : Exchange) : Decidable s.StaysOut :=
  inferInstanceAs (Decidable (∀ c ∈ s.cleared, _))

/-- The server replied to a connect message with the credentials of the
request, transmitted after they had been stored. -/
def Replied (s : Exchange) (wait : Waiting) : Prop :=
  ∃ i ∈ s.replied, wait.since ≤ i ∧ ∃ msg ∈ s.transmitted[i]?,
    msg.Op = "connect" ∧ msg.Email = wait.email ∧ msg.Password = wait.pass

instance (s : Exchange) (wait : Waiting) : Decidable (s.Replied wait) :=
  inferInstanceAs (Decidable (∃ i ∈ s.replied, _))

def Authentic (s : Exchange) : Prop :=
  ∀ a ∈ s.answered, a.2.Status = "OK" → ∃ wait ∈ a.1, s.Replied wait

instance (s : Exchange) : Decidable s.Authentic :=
  inferInstanceAs (Decidable (∀ a ∈ s.answered, _))

/-- A datagram without a session that starts no syncer. -/
def Quiet (s : Exchange) (d : Datagram) : Prop :=
  d.decoded.Session = 0 ∧ ¬ s.cl.StartsSyncer d.decoded

instance (s : Exchange) (d : Datagram) : Decidable (s.Quiet d) :=
  inferInstanceAs (Decidable (_ ∧ _))

/-- While the session is cleared, a datagram that does not answer a connect
message transmitted since is quiet.  While requests wait, a datagram with a
session comes after the server replied to each of them, and a request begins
to wait without a session. -/
def Expects (s : Exchange) : ExchangeEvent → Prop
  | .deliver k => ∀ d ∈ s.downlink[k]?,
      (∀ c ∈ s.cleared, s.AnswersConnect c.since d ∨ s.Quiet d) ∧
        (d.decoded.Session ≠ 0 → ∀ wait ∈ s.waiting, s.Replied wait)
  | .setup _ _ _ second =>
      get s.cl.store "email" = "" → get s.cl.store "pass" = "" →
        second = .succeeds → ¬ s.cl.IsOnlineNonBlock
  | _ => True

instance (s : Exchange) :
    (event : ExchangeEvent) → Decidable (s.Expects event)
  | .deliver k => inferInstanceAs (Decidable (∀ d ∈ s.downlink[k]?, _))
  | .setup _ _ _ _ => inferInstanceAs (Decidable (_ → _))
  | .sendStatus | .arrive _ | .reply _ _ | .readFailed | .Serve | .Logout _
  | .setIdentity _ _ | .poll _ _ => isTrue trivial

/-! ## Steps -/

section

variable {s t : Exchange} {wait : Waiting}

/-- Messages and replies are never taken back. -/
structure Extends (s t : Exchange) : Prop where
  transmitted : s.transmitted <+: t.transmitted
  replied : s.replied ⊆ t.replied

theorem Extends.of_eq (htransmitted : t.transmitted = s.transmitted)
    (hreplied : t.replied = s.replied) : s.Extends t :=
  ⟨htransmitted ▸ List.prefix_refl _, hreplied ▸ List.Subset.refl _⟩

theorem Replied.mono (h : s.Replied wait) (hextends : s.Extends t) :
    t.Replied wait := by
  obtain ⟨i, hi, hsince, msg, hmsg, hcredentials⟩ := h
  refine ⟨i, hextends.replied hi, hsince, msg, ?_, hcredentials⟩
  obtain ⟨rest, hrest⟩ := hextends.transmitted
  obtain ⟨hlt, -⟩ := List.getElem?_eq_some_iff.mp hmsg
  rw [← hrest, List.getElem?_append_left hlt]
  exact hmsg

/-- The session is cleared as long as it has to be, every request that was
answered `OK` was authentic, and so will be those that wait. -/
structure Sound (s : Exchange) : Prop where
  staysOut : s.StaysOut
  authentic : s.Authentic
  waiting : s.cl.IsOnlineNonBlock → ∀ wait ∈ s.waiting, s.Replied wait

theorem initial_sound (cl : CloudLink) : (initial cl).Sound where
  staysOut _ hc := absurd hc (Option.not_mem_none _)
  authentic _ ha := absurd ha List.not_mem_nil
  waiting _ _ hwait := absurd hwait List.not_mem_nil

theorem staysOut_clear (hoffline : ¬ s.cl.IsOnlineNonBlock) :
    s.clear.StaysOut := by
  intro c hc
  obtain rfl := Option.some.inj hc
  exact ⟨hoffline, rfl⟩

theorem StaysOut.of_same (hs : s.StaysOut) (hcleared : t.cleared = s.cleared)
    (honline : t.cl.IsOnlineNonBlock → s.cl.IsOnlineNonBlock)
    (hlisteners : t.cl.listeners = s.cl.listeners) : t.StaysOut := by
  intro c hc
  rw [hcleared] at hc
  exact ⟨mt honline (hs c hc).1, hlisteners.trans (hs c hc).2⟩

/-- A step that neither answers a request nor begins a session. -/
theorem Sound.of_extends (hs : s.Sound) (hextends : s.Extends t)
    (hanswered : t.answered = s.answered) (hwaiting : t.waiting = s.waiting)
    (honline : t.cl.IsOnlineNonBlock → s.cl.IsOnlineNonBlock)
    (hstaysOut : t.StaysOut) : t.Sound where
  staysOut := hstaysOut
  authentic a ha hok := by
    rw [hanswered] at ha
    obtain ⟨wait, hwait, hreplied⟩ := hs.authentic a ha hok
    exact ⟨wait, hwait, hreplied.mono hextends⟩
  waiting hon wait hwait := by
    rw [hwaiting] at hwait
    exact (hs.waiting (honline hon) wait hwait).mono hextends

theorem transmit_frame (msg : Option StatusMsg) (s : Exchange) :
    s.Extends (s.transmit msg) ∧ (s.transmit msg).cl = s.cl ∧
      (s.transmit msg).cleared = s.cleared ∧
      (s.transmit msg).waiting = s.waiting ∧
      (s.transmit msg).answered = s.answered := by
  cases msg with
  | none => exact ⟨.of_eq rfl rfl, rfl, rfl, rfl, rfl⟩
  | some msg =>
      exact ⟨⟨List.prefix_append _ _, List.Subset.refl _⟩, rfl, rfl, rfl, rfl⟩

end

section

variable {ε : Type} {Marshal : Outgoing StatusMsg → Except ε (List UInt8)}
  {s t : Exchange}

theorem sendStatus_sound (hs : s.Sound)
    (hstep : step Marshal s .sendStatus = some t) : t.Sound := by
  obtain ⟨cl, hsent, ht⟩ := Option.map_eq_some_iff.mp hstep
  obtain ⟨hlisteners, hsession⟩ := CloudLink.sendStatus_spec hsent
  obtain ⟨hextends, hcl, hcleared, hwaiting, hanswered⟩ :=
    transmit_frame (s.cl.sentStatus Marshal) { s with cl := cl }
  by_cases htimeout : s.cl.messageCnt - 1 = 0
  · rw [if_pos htimeout] at ht hsession
    subst ht
    have hoffline : ¬ ({ s with cl := cl }.transmit
        (s.cl.sentStatus Marshal)).cl.IsOnlineNonBlock := by
      rw [hcl]
      exact not_not_intro hsession
    exact hs.of_extends ⟨hextends.transmitted, hextends.replied⟩ hanswered
      hwaiting (fun hon => absurd hon hoffline) (staysOut_clear hoffline)
  · rw [if_neg htimeout] at ht hsession
    subst ht
    have honline : ({ s with cl := cl }.transmit
        (s.cl.sentStatus Marshal)).cl.IsOnlineNonBlock →
          s.cl.IsOnlineNonBlock := by
      rw [hcl, CloudLink.IsOnlineNonBlock, CloudLink.IsOnlineNonBlock,
        hsession]
      exact id
    exact hs.of_extends ⟨hextends.transmitted, hextends.replied⟩ hanswered
      hwaiting honline
      (hs.staysOut.of_same hcleared honline (by rw [hcl, hlisteners]))

theorem deliver_sound {k : ℕ} (hs : s.Sound)
    (hexpects : s.Expects (.deliver k))
    (hstep : step Marshal s (.deliver k) = some t) : t.Sound := by
  obtain ⟨d, hd, hhandled⟩ := Option.bind_eq_some_iff.mp hstep
  obtain ⟨cl, hcl, ht⟩ := Option.bind_eq_some_iff.mp hhandled
  obtain ⟨hsession, hlisteners⟩ := CloudLink.handleMessage_spec hcl
  obtain ⟨hquiet, hreplied⟩ := hexpects d hd
  cases ht
  have hextends : s.Extends
      { s with
        cl := cl, downlink := s.downlink.eraseIdx k, cleared := s.settle d } :=
    .of_eq rfl rfl
  refine ⟨?_, ?_, ?_⟩
  · intro c hc
    obtain ⟨hc, hunanswered⟩ := Option.mem_filter_iff.mp hc
    obtain ⟨hzero, hstopped⟩ :=
      (hquiet c hc).resolve_left (of_decide_eq_true hunanswered)
    rw [if_neg hstopped, add_zero] at hlisteners
    exact ⟨not_not_intro (hsession.trans hzero),
      hlisteners.trans (hs.staysOut c hc).2⟩
  · intro a ha hok
    obtain ⟨wait, hwait, hauthentic⟩ := hs.authentic a ha hok
    exact ⟨wait, hwait, hauthentic.mono hextends⟩
  · intro hon wait hwait
    have hsome : d.decoded.Session ≠ 0 := fun hzero =>
      hon (hsession.trans hzero)
    exact (hreplied hsome wait hwait).mono hextends

theorem Sound.answer (hs : s.Sound) {waiting : List Waiting}
    (hwaiting : waiting ⊆ s.waiting) (store : StringMap)
    {wait : Option Waiting} {res : APIPostSetupRes}
    (hok : res.Status = "OK" → ∃ w ∈ wait, s.Replied w) :
    (({ s with waiting := waiting }.setStore store).answer wait
      res).Sound where
  staysOut := hs.staysOut
  authentic a ha hstatus := by
    rcases List.mem_append.mp ha with hold | hnew
    · exact hs.authentic a hold hstatus
    · obtain rfl := List.mem_singleton.mp hnew
      exact hok hstatus
  waiting hon w hw := hs.waiting hon w (hwaiting hw)

theorem setupResponse_cases (email pass : String) (first second : SetOutcome)
    (s : Exchange) :
    (∃ store err, s.setupResponse email pass first second =
      (s.setStore store).answer none ⟨"error", err⟩) ∨
    (get s.cl.store "email" = "" ∧ get s.cl.store "pass" = "" ∧
      second = .succeeds ∧
        ∃ store e p, s.setupResponse email pass first second =
          { s.setStore store with
            waiting := s.waiting ++ [⟨e, p, s.transmitted.length, 0⟩] }) := by
  unfold setupResponse
  split
  next => exact Or.inl ⟨s.cl.store, _, rfl⟩
  next hnone =>
    rw [not_or, not_not, not_not] at hnone
    cases second with
    | succeeds => exact Or.inr ⟨hnone.1, hnone.2, rfl, _, _, _, rfl⟩
    | unopened err => exact Or.inl ⟨_, err, rfl⟩
    | unwritten err => exact Or.inl ⟨_, err, rfl⟩

theorem setup_sound {email pass : String} {first second : SetOutcome}
    (hs : s.Sound)
    (hexpects : s.Expects (.setup email pass first second)) :
    (s.setupResponse email pass first second).Sound := by
  rcases setupResponse_cases email pass first second s with
    ⟨store, err, heq⟩ | ⟨hemail, hpass, hsecond, store, e, p, heq⟩
  · rw [heq]
    exact hs.answer (List.Subset.refl _) store
      fun hok => absurd (show "error" = "OK" from hok) (by decide)
  · have hoffline := hexpects hemail hpass hsecond
    rw [heq]
    exact ⟨hs.staysOut, hs.authentic, fun hon => absurd hon hoffline⟩

theorem poll_cases (wait : Waiting) (k : ℕ) (outcome : SetOutcome)
    (s : Exchange) :
    (∃ store res, (res.Status = "OK" → s.cl.IsOnlineNonBlock) ∧
      s.poll wait k outcome =
        ({ s with waiting := s.waiting.eraseIdx k }.setStore store).answer
          (some wait) res) ∨
    (¬ s.cl.IsOnlineNonBlock ∧
      s.poll wait k outcome =
        { s with
          waiting := s.waiting.set k
            { wait with attempts := wait.attempts + 1 } }) := by
  unfold poll
  by_cases hon : s.cl.IsOnlineNonBlock
  · rw [if_pos hon]
    exact Or.inl ⟨_, _, fun _ => hon, rfl⟩
  · rw [if_neg hon]
    split
    · exact Or.inl ⟨_, _, fun hok => absurd hok (by decide), rfl⟩
    · exact Or.inr ⟨hon, rfl⟩

theorem poll_sound {wait : Waiting} {k : ℕ} {outcome : SetOutcome}
    (hs : s.Sound) (hwait : s.waiting[k]? = some wait) :
    (s.poll wait k outcome).Sound := by
  rcases poll_cases wait k outcome s with
    ⟨store, res, hok, heq⟩ | ⟨hoffline, heq⟩
  · rw [heq]
    refine hs.answer (List.eraseIdx_subset ..) store fun hstatus => ?_
    exact ⟨wait, rfl, hs.waiting (hok hstatus) wait
      (List.mem_of_getElem? hwait)⟩
  · rw [heq]
    exact ⟨hs.staysOut, hs.authentic, fun hon => absurd hon hoffline⟩

theorem Sound.step {event : ExchangeEvent} (hs : s.Sound)
    (hexpects : s.Expects event) (hstep : step Marshal s event = some t) :
    t.Sound := by
  have hsame : s.Extends s := .of_eq rfl rfl
  cases event with
  | sendStatus => exact sendStatus_sound hs hstep
  | arrive k =>
      obtain ⟨i, -, rfl⟩ := Option.map_eq_some_iff.mp hstep
      exact hs.of_extends ⟨hsame.1, hsame.2⟩ rfl rfl id hs.staysOut
  | reply answers decoded =>
      rw [Exchange.step, Exchange.reply] at hstep
      split at hstep
      · cases hstep
        exact hs.of_extends ⟨hsame.1, List.subset_append_left _ _⟩ rfl rfl id
          hs.staysOut
      · cases hstep
  | deliver k => exact deliver_sound hs hexpects hstep
  | readFailed | Serve =>
      cases hstep
      exact hs.of_extends ⟨hsame.1, hsame.2⟩ rfl rfl
        (fun hon => absurd rfl hon)
        (hs.staysOut.of_same rfl (fun hon => absurd rfl hon) rfl)
  | Logout left =>
      cases hstep
      have hoffline : ¬ ({ s with cl := s.cl.Logout left } :
          Exchange).cl.IsOnlineNonBlock := not_not_intro rfl
      exact hs.of_extends ⟨hsame.1, hsame.2⟩ rfl rfl
        (fun hon => absurd hon hoffline) (staysOut_clear hoffline)
  | setIdentity uid store =>
      cases hstep
      exact hs.of_extends ⟨hsame.1, hsame.2⟩ rfl rfl id hs.staysOut
  | setup email pass first second =>
      cases hstep
      exact setup_sound hs hexpects
  | poll k outcome =>
      obtain ⟨wait, hwait, rfl⟩ := Option.map_eq_some_iff.mp hstep
      exact poll_sound hs hwait

/-! ## Unexpected datagrams -/

/-- A request that waits is answered `OK` as soon as it sees a session. -/
theorem reaches_unauthentic {wait : Waiting}
    (hon : s.cl.IsOnlineNonBlock) (hwait : wait ∈ s.waiting)
    (hnot : ¬ s.Replied wait) :
    Reaches (step Marshal) (fun u => ¬ (u.StaysOut ∧ u.Authentic)) s := by
  obtain ⟨k, hk⟩ := List.getElem?_of_mem hwait
  have hpoll : step Marshal s (.poll k .succeeds) =
      some (s.poll wait k .succeeds) := by
    rw [Exchange.step, hk, Option.map_some]
  refine Reaches.after _ hpoll (Reaches.now fun ⟨_, hauthentic⟩ => ?_)
  have hanswer : (some wait, ⟨"OK", ""⟩) ∈
      (s.poll wait k .succeeds).answered := by
    rw [poll, if_pos hon]
    exact List.mem_append_right _ (List.mem_singleton_self _)
  obtain ⟨w, hw, hreplied⟩ := hauthentic _ hanswer rfl
  obtain rfl := Option.some.inj hw
  have hsame : (s.poll wait k .succeeds).transmitted = s.transmitted ∧
      (s.poll wait k .succeeds).replied = s.replied := by
    rw [poll, if_pos hon]
    exact ⟨rfl, rfl⟩
  exact hnot (hreplied.mono (.of_eq hsame.1.symm hsame.2.symm))

/-- The session is back, or the syncer is. -/
theorem deliver_unexpected {k : ℕ} (hs : s.Sound)
    (hunexpected : ¬ s.Expects (.deliver k))
    (hstep : step Marshal s (.deliver k) = some t) :
    Reaches (step Marshal) (fun u => ¬ (u.StaysOut ∧ u.Authentic)) t := by
  obtain ⟨d, hd, hhandled⟩ := Option.bind_eq_some_iff.mp hstep
  obtain ⟨cl, hcl, ht⟩ := Option.bind_eq_some_iff.mp hhandled
  obtain ⟨hsession, hlisteners⟩ := CloudLink.handleMessage_spec hcl
  cases ht
  by_cases hquiet : ∀ c ∈ s.cleared, s.AnswersConnect c.since d ∨ s.Quiet d
  · have hnot : ¬ (d.decoded.Session ≠ 0 →
        ∀ wait ∈ s.waiting, s.Replied wait) := fun hreplied =>
      hunexpected fun d' hd' => by
        obtain rfl := Option.some.inj (hd.symm.trans hd')
        exact ⟨hquiet, hreplied⟩
    push Not at hnot
    obtain ⟨hsome, wait, hwait, hnotReplied⟩ := hnot
    refine reaches_unauthentic (fun hzero => hsome ?_) hwait
      fun hreplied => hnotReplied (hreplied.mono (.of_eq rfl rfl))
    exact hsession.symm.trans hzero
  · push Not at hquiet
    obtain ⟨c, hc, hunanswered, hloud⟩ := hquiet
    have hsettle : c ∈ s.settle d :=
      Option.mem_filter_iff.mpr ⟨hc, decide_eq_true hunanswered⟩
    refine Reaches.now fun ⟨hstaysOut, _⟩ => hloud ?_
    obtain ⟨hoffline, hcount⟩ := hstaysOut c hsettle
    refine ⟨hsession.symm.trans (not_not.mp hoffline), fun hstarts => ?_⟩
    rw [if_pos hstarts] at hlisteners
    have hbefore := (hs.staysOut c hc).2
    have hafter : cl.listeners = c.listeners := hcount
    omega

theorem setup_unexpected {email pass : String} {first second : SetOutcome}
    (hunexpected : ¬ s.Expects (.setup email pass first second)) :
    Reaches (step Marshal) (fun u => ¬ (u.StaysOut ∧ u.Authentic))
      (s.setupResponse email pass first second) := by
  simp only [Expects, Classical.not_imp, not_not] at hunexpected
  obtain ⟨hemail, hpass, hsecond, hon⟩ := hunexpected
  obtain ⟨store, e, p, heq⟩ : ∃ store e p,
      s.setupResponse email pass first second =
        { s.setStore store with
          waiting := s.waiting ++ [⟨e, p, s.transmitted.length, 0⟩] } := by
    rw [setupResponse, if_neg (by rw [hemail, hpass]; simp), hsecond]
    exact ⟨_, _, _, rfl⟩
  rw [heq]
  refine reaches_unauthentic hon
    (List.mem_append_right _ (List.mem_singleton_self _)) ?_
  -- No message has been transmitted since.
  rintro ⟨i, -, hsince, msg, hmsg, -⟩
  exact absurd (List.getElem?_eq_some_iff.mp hmsg).1 (Nat.not_lt.mpr hsince)

/-- A run whose datagrams and requests are all expected keeps its promises,
and the first one that is not leads to a run that breaks them. -/
theorem staysOut_while_expected {cl : CloudLink}
    {events : List ExchangeEvent}
    (hrun : GuardedRun (step Marshal) Expects (initial cl) events s) :
    (s.StaysOut ∧ s.Authentic) ∧
      ∀ event next, step Marshal s event = some next → ¬ s.Expects event →
        Reaches (step Marshal) (fun u => ¬ (u.StaysOut ∧ u.Authentic))
          next := by
  apply hrun.until_unguarded _ _ _ (initial_sound cl)
  · intro state event next hs hexpects hstep
    exact hs.step hexpects hstep
  · intro state hs
    exact ⟨hs.staysOut, hs.authentic⟩
  · intro state event next hs hunexpected hstep
    cases event with
    | deliver k => exact deliver_unexpected hs hunexpected hstep
    | setup email pass first second =>
        cases hstep
        exact setup_unexpected hunexpected
    | _ => exact absurd trivial hunexpected

end

def jsonMember (key value : String) : String :=
  "\"" ++ key ++ "\":\"" ++ value ++ "\""

/-- `json.Marshal` of the messages that the client sends, for texts without
escapes. -/
def marshalSent : Outgoing StatusMsg → Except Unit (List UInt8)
  | .bytes _ => .error ()
  | .value msg =>
      let members := [("serialId", msg.Serial), ("simid", msg.SimId),
        ("email", msg.Email), ("password", msg.Password)].filter
          fun member => member.2 ≠ ""
      let text := ",".intercalate
        ((("op", msg.Op) :: members).map fun member =>
          jsonMember member.1 member.2)
      .ok ("\x7b" ++ text ++ "\x7d").toUTF8.toList

/-- A client whose user is stored. -/
def activated : CloudLink :=
  { sessionId := 0, messageCnt := TIME_OUT_CNT, terminalOnline := false
    uid := "1", SimId := "", syncer := NewFlightSyncer
    store := ((∅ : StringMap).insert "email" "a").insert "pass" "b"
    rawFmuCmd := none, recorded := [] }

/-- The server's answer with session 7. -/
def accepted : Msg :=
  ⟨OP_STATUS, 7, .status
    { Op := "status", Serial := "", SimId := "", Email := "", Password := ""
      Drone := (∅ : GoMap String Json).insert "_id" (.string "d")
      User := "u", Terminal := false }⟩

/-- What `Logout` leaves in the store. -/
def loggedOut : StringMap := (∅ : StringMap).insert "step" "setupWifi"

/-- After `Logout` a user is set up, and the answer comes to the connect
message with the new credentials. -/
theorem staysOut_while_expected_setup :
    ∃ s, GuardedRun (step marshalSent) Expects (initial activated)
        [.Logout loggedOut, .setup "c" "d" .succeeds .succeeds, .sendStatus,
          .arrive 0, .reply (some 0) accepted, .deliver 0,
          .poll 0 .succeeds] s ∧
      s.answered.map Prod.snd = [⟨"OK", ""⟩] ∧
      s.StaysOut ∧ s.Authentic := by
  have hexec : (exec (step marshalSent) Expects (initial activated)
      [.Logout loggedOut, .setup "c" "d" .succeeds .succeeds, .sendStatus,
        .arrive 0, .reply (some 0) accepted, .deliver 0,
        .poll 0 .succeeds]).map (fun s => s.answered.map Prod.snd) =
          some [⟨"OK", ""⟩] := by
    decide
  obtain ⟨s, hrun, hanswered⟩ := GuardedRun.of_exec_map hexec
  exact ⟨s, hrun, hanswered, (staysOut_while_expected hrun).1⟩

/-- The answer to the first connect message comes after `Logout`, while a
request waits with other credentials. -/
theorem late_reply_after_logout :
    ∃ s, Run (step marshalSent) (initial activated)
        [.sendStatus, .arrive 0, .reply (some 0) accepted, .Logout loggedOut,
          .setup "c" "d" .succeeds .succeeds, .deliver 0,
          .poll 0 .succeeds] s ∧
      ¬ s.StaysOut ∧ ¬ s.Authentic := by
  have hexec : (exec (step marshalSent) (fun _ _ => True) (initial activated)
      [.sendStatus, .arrive 0, .reply (some 0) accepted, .Logout loggedOut,
        .setup "c" "d" .succeeds .succeeds, .deliver 0,
        .poll 0 .succeeds]).map
          (fun s => (decide s.StaysOut, decide s.Authentic)) =
            some (false, false) := by
    decide
  obtain ⟨s, hrun, hview⟩ := GuardedRun.of_exec_map hexec
  obtain ⟨hstaysOut, hauthentic⟩ := Prod.mk.inj hview
  exact ⟨s, hrun, of_decide_eq_false hstaysOut,
    of_decide_eq_false hauthentic⟩

end Exchange

end DronesmithEngine.Cloudlink
