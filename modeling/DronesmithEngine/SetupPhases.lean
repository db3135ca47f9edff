import DronesmithEngine.Resumptions
import DronesmithEngine.SetupRequests
import Mathlib.Tactic

/-!
# The phases of the setup

The step that the store keeps, over the requests of `statusServer.go` that
read and write it: both methods of `setupResponse`, `logoutResponse` with
`Logout` of `cloudlink/cloudlink.go`, and the end of `apsResponse`.  Each
request has its own goroutine, and only its single calls on the store exclude
each other.  The page that is rendered last changes nothing of the store and
is left out.
-/

namespace DronesmithEngine.StatusServer

open Go Cloudlink LabelledRuns Resumptions

def SETUP_STEP_INITIAL : String := "setupInitial"

def SETUP_STEP_WIFICOMPLETE : String := "setupWifi"

def phaseInitial : List UInt8 := Pem.ascii SETUP_STEP_INITIAL

def phaseWifi : List UInt8 := Pem.ascii SETUP_STEP_WIFICOMPLETE

def phaseDss : List UInt8 := Pem.ascii SETUP_STEP_DSSCOMPLETE

/-- `confirmed` remembers that there was a session, or a complete setup at the
start. -/
structure Setup where
  store : Store
  sessionId : UInt32
  confirmed : Bool

namespace Setup

def Get (s : Setup) (key : StoreKey) : List UInt8 := s.store.Get key.name

/-- The calls on the store do not panic, so that `recover` has no work. -/
def onStore (x : Effect Store (Option String)) :
    Resumption Setup (Option String) :=
  .atomic fun s =>
    let (err, store) := Effect.recover none x s.store
    (err, { s with store := store })

def get (key : StoreKey) : Resumption Setup (List UInt8) :=
  .read fun s => s.Get key

/-- The loop of `IsOnline`, which gives up after five attempts. -/
def IsOnline : ℕ → Resumption Setup Bool
  | 0 => pure false
  | attempts + 1 => do
      let online ← .read fun s => decide (s.sessionId ≠ 0)
      if online then pure true else IsOnline attempts

end Setup

/-! ## Requests -/

/-- `GET /index/setup`, with what the commands of the operating system
answer. -/
structure SetupGet where
  checkIP : Except String Bool
  isSupplicant : Except String Bool
  initial : StoreWrite
  step : StoreWrite

structure APIGetSetUpRes where
  Step : List UInt8
  Error : String

/-- In the last case the process may end at any time. -/
def checkWifi (req : SetupGet) : Resumption Setup APIGetSetUpRes :=
  match req.checkIP with
  | .error err => pure ⟨phaseWifi, err⟩
  | .ok true =>
      match req.isSupplicant with
      | .error err => pure ⟨phaseWifi, err⟩
      | .ok true => pure ⟨phaseWifi, ""⟩
      | .ok false => pure ⟨phaseInitial, ""⟩
  | .ok false => do
      let _ ← Setup.onStore (req.initial.Set .step phaseInitial)
      match req.isSupplicant with
      | .error err => pure ⟨phaseInitial, err⟩
      | .ok _ => pure ⟨phaseInitial, ""⟩

def checkPhase (req : SetupGet) (step : List UInt8) :
    Resumption Setup APIGetSetUpRes :=
  if step = phaseInitial then pure ⟨step, ""⟩
  else if step = phaseWifi then checkWifi req
  else if step = phaseDss then pure ⟨step, ""⟩
  else pure ⟨phaseInitial, ""⟩

def getSetup (req : SetupGet) : Resumption Setup APIGetSetUpRes := do
  let storeStep ← Setup.get .step
  let step := if storeStep ≠ [] then storeStep else phaseWifi
  let obj ← checkPhase req step
  let _ ← Setup.onStore (req.step.Set .step obj.Step)
  pure obj

/-- The two calls of `Set`, unless there are credentials. -/
def activate (post : SetupPost) : Resumption Setup (Option String) := do
  let e ← Setup.get .email
  let p ← Setup.get .pass
  if e ≠ [] ∨ p ≠ [] then pure (some "Already activated.")
  else
    let _ ← Setup.onStore (post.email.Set .email post.obj.Email)
    Setup.onStore (post.pass.Set .pass post.obj.Password)

def authenticate (post : SetupPost) : Resumption Setup APIPostSetupRes := do
  let auth ← Setup.IsOnline 5
  if auth then
    let err ← Setup.onStore (post.step.Set .step phaseDss)
    match err with
    | some err => pure ⟨"error", err⟩
    | none => pure ⟨"OK", ""⟩
  else
    let _ ← Setup.onStore (Store.Del post.del)
    pure ⟨"error", "Authentication failed."⟩

/-- `POST /index/setup`: whether there is a session is seen while it waits. -/
def postSetup (post : SetupPost) : Resumption Setup APIPostSetupRes := do
  let err ← activate post
  match err with
  | some err => pure ⟨"error", err⟩
  | none => authenticate post

structure LogoutPost where
  del : FileErrors
  step : StoreWrite

structure APIPostLogoutRes where
  Error : String
  Status : String

/-- `Logout`, with its error. -/
def Logout (post : LogoutPost) : Resumption Setup (Option String) := do
  Resumption.modify fun s => { s with sessionId := 0 }
  let err ← Setup.onStore (Store.Del post.del)
  match err with
  | some err => pure (some err)
  | none => do
      let _ ← Setup.onStore (post.step.Set .step (Pem.ascii "setupWifi"))
      pure none

def logoutResponse (post : LogoutPost) :
    Resumption Setup APIPostLogoutRes := do
  let err ← Logout post
  match err with
  | some _ =>
      pure ⟨"No user data detected. User is already logged out.", "error"⟩
  | none => pure ⟨"", "OK"⟩

/-- The end of the goroutine of `apsResponse`, before the process ends. -/
def rebootLink (step : StoreWrite) : Resumption Setup (Option String) :=
  Setup.onStore (step.Set .step phaseWifi)

inductive SetupRequest
  | get (request : SetupGet)
  | post (request : SetupPost)
  | logout (request : LogoutPost)
  | aps (step : StoreWrite)

inductive SetupAnswer
  | get (res : APIGetSetUpRes)
  | post (res : APIPostSetupRes)
  | logout (res : APIPostLogoutRes)
  | aps (err : Option String)

def SetupRequest.handler : SetupRequest → Resumption Setup SetupAnswer
  | .get request => do
      let res ← getSetup request
      pure (.get res)
  | .post request => do
      let res ← postSetup request
      pure (.post res)
  | .logout request => do
      let res ← logoutResponse request
      pure (.logout res)
  | .aps step => do
      let err ← rebootLink step
      pure (.aps err)

/-! ## What comes from outside -/

/-- A reply of the server, or a timeout, and the keys that the others
write. -/
inductive SetupEvent
  | session (sessionId : UInt32)
  | output (call : StoreWrite) (value : List UInt8)
  | ruid (call : StoreWrite) (value : List UInt8)

def Setup.setOther (s : Setup) (call : StoreWrite) (key : StoreKey)
    (value : List UInt8) : Setup :=
  { s with store := (call.Set key value s.store).2 }

def Setup.outside : SetupEvent → Setup → Option Setup
  | .session sessionId, s =>
      some
        { s with
          sessionId := sessionId
          confirmed := s.confirmed || decide (sessionId ≠ 0) }
  | .output call value, s => some (s.setOther call .output value)
  | .ruid call value, s => some (s.setOther call .ruid value)

abbrev SetupRun := Pool Setup SetupAnswer

abbrev SetupTurn := Turn SetupEvent SetupRequest

def SetupRun.step : SetupRun → SetupTurn → Option SetupRun :=
  Pool.step Setup.outside SetupRequest.handler

/-! ## Single calls -/

theorem SetLeaves.get_cases {errs : FileErrors} {key : StoreKey}
    {value : List UInt8} {s t : Store} {err : Option String}
    (hleaves : SetLeaves errs key value s err t) :
    t.Get key.name = value ∨ t.Get key.name = [] ∨
      t.Get key.name = s.Get key.name := by
  cases err with
  | none => exact Or.inl (hleaves.stored rfl)
  | some err =>
      by_cases hopens : OpensAfter [] errs s
      · exact Or.inr (Or.inl (hleaves.unwritten nofun hopens))
      · exact Or.inr (Or.inr (hleaves.unopened hopens))

section

variable {rely guarantee : Setup → Setup → Prop} {I : Setup → Prop}
variable {s : Setup} {call : StoreWrite} {key : StoreKey}
variable {value : List UInt8}

theorem safe_set {Q : Option String → Setup → Prop}
    (hset : ∀ t err store, rely s t → I t →
      SetLeaves call.errs key value t.store err store →
        I { t with store := store } ∧
          guarantee t { t with store := store } ∧
          Q err { t with store := store }) :
    (Setup.onStore (call.Set key value)).Safe rely guarantee I Q s := by
  apply Resumption.Safe.atomic
  intro t hrely ht
  obtain ⟨err, store, hstored, hleaves⟩ := Set_leaves call key value t.store
  have hnext := hset t err store hrely ht hleaves
  simpa only [Effect.recover, hstored] using hnext

theorem safe_del {del : FileErrors} {Q : Option String → Setup → Prop}
    (hdel : ∀ t err store, rely s t → I t →
      (∀ key : StoreKey, store.Get key.name = []) →
        I { t with store := store } ∧
          guarantee t { t with store := store } ∧
          Q err { t with store := store }) :
    (Setup.onStore (Store.Del del)).Safe rely guarantee I Q s := by
  apply Resumption.Safe.atomic
  intro t hrely ht
  unfold Effect.recover Store.Del
  cases del.createErr with
  | none => exact hdel t _ _ hrely ht fun _ => rfl
  | some err => exact hdel t _ _ hrely ht fun _ => rfl

theorem safe_get {Q : List UInt8 → Setup → Prop}
    (hget : ∀ t, rely s t → I t → guarantee t t ∧ Q (t.Get key) t) :
    (Setup.get key).Safe rely guarantee I Q s :=
  Resumption.Safe.atomic fun t hrely ht => ⟨ht, hget t hrely ht⟩

/-- What the others leave alone holds when the wait is over. -/
theorem safe_isOnline {P : Setup → Prop}
    (hstable : ∀ t u, P t → rely t u → P u)
    (hreads : ∀ t, I t → guarantee t t) (attempts : ℕ) (hs : P s) :
    (Setup.IsOnline attempts).Safe rely guarantee I
      (fun online t => P t ∧ (online = true → I t ∧ t.sessionId ≠ 0)) s := by
  induction attempts generalizing s with
  | zero => exact ⟨hs, nofun⟩
  | succ attempts ih =>
      have hread : (Resumption.read fun t : Setup =>
          decide (t.sessionId ≠ 0)).Safe rely guarantee I
            (fun online t => P t ∧ (online = true → I t ∧ t.sessionId ≠ 0))
            s := by
        apply Resumption.Safe.atomic
        intro t hrely ht
        refine ⟨ht, hreads t ht, hstable s t hs hrely, fun honline => ?_⟩
        exact ⟨ht, of_decide_eq_true honline⟩
      apply hread.bind
      intro online t ht
      cases online with
      | true => exact ht
      | false => exact ih ht.1

end

/-! ## A session comes first -/

/-- The steps that `GET` shows. -/
def IsPhase (step : List UInt8) : Prop :=
  step = phaseInitial ∨ step = phaseWifi ∨ step = phaseDss

/-- There was a session, or a complete setup at the start, if there is a
session or if the setup is complete. -/
structure Confirmed (s : Setup) : Prop where
  phase : s.Get .step = [] ∨ IsPhase (s.Get .step)
  complete : s.Get .step = phaseDss → s.confirmed = true
  session : s.sessionId ≠ 0 → s.confirmed = true

def Remembers (s t : Setup) : Prop := s.confirmed = true → t.confirmed = true

/-- A step that may be stored. -/
def MayStore (step : List UInt8) (s : Setup) : Prop :=
  IsPhase step ∧ (step = phaseDss → s.confirmed = true)

def SetupAnswer.Right : SetupAnswer → Setup → Prop
  | .get res, s => MayStore res.Step s
  | .post res, s => res.Status = "OK" → s.confirmed = true
  | _, _ => True

def KeepsConfirmed (s t : Setup) : Prop := t.confirmed = s.confirmed

theorem Remembers.trans (s t u : Setup) (hst : Remembers s t)
    (htu : Remembers t u) : Remembers s u := fun hs => htu (hst hs)

theorem MayStore.later {step : List UInt8} {s t : Setup}
    (hstep : MayStore step s) (hrely : Remembers s t) : MayStore step t :=
  ⟨hstep.1, fun hdss => hrely (hstep.2 hdss)⟩

theorem mayStore_initial (s : Setup) : MayStore phaseInitial s :=
  ⟨Or.inl rfl, fun h => absurd h (by decide)⟩

theorem mayStore_wifi (s : Setup) : MayStore phaseWifi s :=
  ⟨Or.inr (Or.inl rfl), fun h => absurd h (by decide)⟩

section

variable {s : Setup} {call : StoreWrite} {key : StoreKey}
variable {value : List UInt8} {err : Option String} {store : Store}

theorem Confirmed.withStore (hs : Confirmed s)
    (hstep : store.Get StoreKey.step.name = [] ∨
      MayStore (store.Get StoreKey.step.name) s) :
    Confirmed { s with store := store } := by
  refine ⟨hstep.imp_right And.left, fun hdss => ?_, hs.session⟩
  change store.Get StoreKey.step.name = phaseDss at hdss
  rw [hdss] at hstep
  rcases hstep with hnone | hmay
  · cases hnone
  · exact hmay.2 rfl

theorem Confirmed.mayStore (hs : Confirmed s) :
    s.Get .step = [] ∨ MayStore (s.Get .step) s :=
  hs.phase.imp_right fun hphase => ⟨hphase, hs.complete⟩

theorem Confirmed.set (hs : Confirmed s) (hvalue : MayStore value s)
    (hleaves : SetLeaves call.errs .step value s.store err store) :
    Confirmed { s with store := store } := by
  apply hs.withStore
  rcases hleaves.get_cases with hnew | hnone | hold
  · rw [hnew]
    exact Or.inr hvalue
  · exact Or.inl hnone
  · rw [hold]
    exact hs.mayStore

theorem Confirmed.other (hs : Confirmed s) (hkey : .step ≠ key)
    (hleaves : SetLeaves call.errs key value s.store err store) :
    Confirmed { s with store := store } := by
  apply hs.withStore
  rw [hleaves.others .step hkey]
  exact hs.mayStore

theorem Confirmed.del (hs : Confirmed s)
    (hnone : ∀ key : StoreKey, store.Get key.name = []) :
    Confirmed { s with store := store } :=
  hs.withStore (Or.inl (hnone .step))

end

section

variable {s : Setup} {call : StoreWrite} {key : StoreKey}
variable {value : List UInt8}

abbrev SafeSetup {α : Type} (Q : α → Setup → Prop) (x : Resumption Setup α)
    (s : Setup) : Prop :=
  x.Safe Remembers KeepsConfirmed Confirmed Q s

theorem safeSetup_step (hvalue : MayStore value s) :
    SafeSetup (fun _ t => Remembers s t)
      (Setup.onStore (call.Set .step value)) s := by
  apply safe_set
  intro t err store hrely ht hleaves
  exact ⟨ht.set (hvalue.later hrely) hleaves, rfl, hrely⟩

theorem safeSetup_other (hkey : .step ≠ key) :
    SafeSetup (fun _ _ => True) (Setup.onStore (call.Set key value)) s := by
  apply safe_set
  intro t err store _ ht hleaves
  exact ⟨ht.other hkey hleaves, rfl, trivial⟩

theorem safeSetup_del {del : FileErrors} :
    SafeSetup (fun _ _ => True) (Setup.onStore (Store.Del del)) s := by
  apply safe_del
  intro t err store _ ht hnone
  exact ⟨ht.del hnone, rfl, trivial⟩

theorem safeSetup_read :
    SafeSetup (fun _ _ => True) (Setup.get key) s :=
  safe_get fun _ _ _ => ⟨rfl, trivial⟩

/-- The step that is shown may be stored. -/
theorem safe_checkWifi (req : SetupGet) :
    SafeSetup (fun res t => MayStore res.Step t) (checkWifi req) s := by
  unfold checkWifi
  split
  · exact mayStore_wifi s
  · split
    · exact mayStore_wifi s
    · exact mayStore_wifi s
    · exact mayStore_initial s
  · apply (safeSetup_step (mayStore_initial s)).bind
    intro err t _
    split
    · exact mayStore_initial t
    · exact mayStore_initial t

theorem safe_checkPhase (req : SetupGet)
    (hstep : value = phaseDss → s.confirmed = true) :
    SafeSetup (fun res t => MayStore res.Step t) (checkPhase req value) s := by
  unfold checkPhase
  split
  next hinitial =>
    rw [hinitial]
    exact mayStore_initial s
  next =>
    split
    · exact safe_checkWifi req
    · split
      next hdss => exact ⟨Or.inr (Or.inr hdss), hstep⟩
      next => exact mayStore_initial s

theorem safe_getSetup (req : SetupGet) :
    SafeSetup (fun res t => MayStore res.Step t) (getSetup req) s := by
  have hread : SafeSetup (fun step t => step = phaseDss → t.confirmed = true)
      (Setup.get .step) s :=
    safe_get fun t _ ht => ⟨rfl, ht.complete⟩
  apply hread.bind
  intro storeStep t hstep
  have hchecked : SafeSetup (fun res t => MayStore res.Step t)
      (checkPhase req (if storeStep ≠ [] then storeStep else phaseWifi))
      t := by
    apply safe_checkPhase
    split
    · exact hstep
    · exact fun h => absurd h (by decide)
  apply hchecked.bind
  intro obj u hobj
  apply (safeSetup_step hobj).bind
  intro err v hrely
  exact hobj.later hrely

theorem safe_activate (post : SetupPost) :
    SafeSetup (fun _ _ => True) (activate post) s := by
  apply safeSetup_read.bind
  intro e t _
  apply safeSetup_read.bind
  intro p u _
  split
  · trivial
  · apply (safeSetup_other (by decide)).bind
    intro err v _
    exact safeSetup_other (by decide)

theorem error_ne_ok : "error" ≠ "OK" := by decide

theorem safe_authenticate (post : SetupPost) :
    SafeSetup (fun res t => res.Status = "OK" → t.confirmed = true)
      (authenticate post) s := by
  have hkeeps : ∀ t, Confirmed t → KeepsConfirmed t t := fun _ _ => rfl
  have hwait : SafeSetup
      (fun online t =>
        True ∧ (online = true → Confirmed t ∧ t.sessionId ≠ 0))
      (Setup.IsOnline 5) s :=
    safe_isOnline (P := fun _ => True) (fun _ _ _ _ => trivial) hkeeps 5
      trivial
  apply hwait.bind
  rintro auth t ⟨-, honline⟩
  cases auth with
  | true =>
      obtain ⟨ht, hsession⟩ := honline rfl
      have hconfirmed := ht.session hsession
      apply (safeSetup_step ⟨Or.inr (Or.inr rfl), fun _ => hconfirmed⟩).bind
      intro err u hrely
      split
      · exact fun h => absurd h error_ne_ok
      · exact fun _ => hrely hconfirmed
  | false =>
      apply safeSetup_del.bind
      intro err u _
      exact fun h => absurd h error_ne_ok

theorem safe_postSetup (post : SetupPost) :
    SafeSetup (fun res t => res.Status = "OK" → t.confirmed = true)
      (postSetup post) s := by
  apply (safe_activate post).bind
  intro err t _
  split
  · exact fun h => absurd h error_ne_ok
  · exact safe_authenticate post

theorem safe_Logout (post : LogoutPost) :
    SafeSetup (fun _ _ => True) (Logout post) s := by
  have hleave : SafeSetup (fun _ _ => True)
      (Resumption.modify fun s : Setup => { s with sessionId := 0 }) s := by
    apply Resumption.Safe.atomic
    intro t _ ht
    exact ⟨⟨ht.phase, ht.complete, fun h => absurd rfl h⟩, rfl, trivial⟩
  apply hleave.bind
  intro _ t _
  apply safeSetup_del.bind
  intro err u _
  split
  · trivial
  · apply (safeSetup_step (mayStore_wifi u)).bind
    exact fun _ _ _ => trivial

theorem safe_logoutResponse (post : LogoutPost) :
    SafeSetup (fun _ _ => True) (logoutResponse post) s := by
  apply (safe_Logout post).bind
  intro err t _
  split <;> trivial

theorem safe_handler (request : SetupRequest) :
    SafeSetup SetupAnswer.Right request.handler s := by
  cases request with
  | get request =>
      apply (safe_getSetup request).bind
      exact fun res t ht => ht
  | post request =>
      apply (safe_postSetup request).bind
      exact fun res t ht => ht
  | logout request =>
      apply (safe_logoutResponse request).bind
      exact fun _ _ _ => trivial
  | aps step =>
      apply (safeSetup_step (mayStore_wifi s)).bind
      exact fun _ _ _ => trivial

end

theorem setOther_leaves (s : Setup) (call : StoreWrite) (key : StoreKey)
    (value : List UInt8) :
    ∃ err, SetLeaves call.errs key value s.store err
      (s.setOther call key value).store := by
  obtain ⟨err, store, hstored, hleaves⟩ := Set_leaves call key value s.store
  refine ⟨err, ?_⟩
  simpa only [Setup.setOther, hstored] using hleaves

theorem outside_confirmed {e : SetupEvent} {s t : Setup} (hs : Confirmed s)
    (hstep : Setup.outside e s = some t) : Confirmed t ∧ Remembers s t := by
  cases e with
  | session sessionId =>
      cases hstep
      refine ⟨⟨hs.phase, fun h => ?_, fun h => ?_⟩, fun h => ?_⟩
      · simp [hs.complete h]
      · simp [h]
      · simp [h]
  | output call value =>
      cases hstep
      obtain ⟨err, hleaves⟩ := setOther_leaves s call .output value
      exact ⟨hs.other (by decide) hleaves, id⟩
  | ruid call value =>
      cases hstep
      obtain ⟨err, hleaves⟩ := setOther_leaves s call .ruid value
      exact ⟨hs.other (by decide) hleaves, id⟩

/-- The server has given a session. -/
def HadSession (turns : List SetupTurn) : Prop :=
  ∃ sessionId ≠ 0, Turn.outside (.session sessionId) ∈ turns

def newSetup (store : Store) : SetupRun :=
  Pool.initial
    { store := store
      sessionId := 0
      confirmed := decide (store.Get StoreKey.step.name = phaseDss) }

theorem setup_allSafe {store : Store} {turns : List SetupTurn} {p : SetupRun}
    (hphase : store.Get StoreKey.step.name = [] ∨
      IsPhase (store.Get StoreKey.step.name))
    (hrun : Run SetupRun.step (newSetup store) turns p) :
    p.AllSafe Remembers KeepsConfirmed Confirmed SetupAnswer.Right := by
  have hstart : Confirmed (newSetup store).state :=
    ⟨hphase, fun h => decide_eq_true h, fun h => absurd rfl h⟩
  apply Pool.interleaved _ Remembers.trans _ _ _ hstart hrun
  · exact fun _ => id
  · exact fun s t hsame hs => hsame.trans hs
  · exact fun _ _ _ hs hstep => outside_confirmed hs hstep
  · exact fun request _ _ => safe_handler request

theorem hadSession_of_confirmed {store : Store} {turns : List SetupTurn}
    {p : SetupRun}
    (hphase : store.Get StoreKey.step.name = [] ∨
      IsPhase (store.Get StoreKey.step.name))
    (hrun : Run SetupRun.step (newSetup store) turns p)
    (hconfirmed : p.state.confirmed = true) :
    store.Get StoreKey.step.name = phaseDss ∨ HadSession turns := by
  induction hrun with
  | nil => exact Or.inl (of_decide_eq_true hconfirmed)
  | @snoc turns p next turn hbefore _ hstep ih =>
      have hearlier (hold : p.state.confirmed = true) :
          store.Get StoreKey.step.name = phaseDss ∨
            HadSession (turns ++ [turn]) := by
        refine (ih hold).imp_right ?_
        rintro ⟨sessionId, hne, hmem⟩
        exact ⟨sessionId, hne, List.mem_append_left _ hmem⟩
      cases turn with
      | begin request =>
          cases hstep
          exact hearlier hconfirmed
      | turn k =>
          have hsame := (setup_allSafe hphase hbefore).turn hstep
          exact hearlier (hsame.symm.trans hconfirmed)
      | outside e =>
          obtain ⟨s, hs, rfl⟩ := Option.map_eq_some_iff.mp hstep
          cases e with
          | session sessionId =>
              cases hs
              simp only [Bool.or_eq_true, decide_eq_true_eq] at hconfirmed
              rcases hconfirmed with hold | hne
              · exact hearlier hold
              · exact Or.inr ⟨sessionId, hne, by simp⟩
          | output call value =>
              cases hs
              exact hearlier hconfirmed
          | ruid call value =>
              cases hs
              exact hearlier hconfirmed

/-- However many requests there are, in whatever order their calls on the
store come and whichever of these fail, the step that is stored is one of the
three or none, as it was at the start; and a step or an answer only says that
the setup is complete when it was at the start, or when the server has given a
session since. -/
theorem setup_complete_had_session {store : Store}
    {turns : List SetupTurn} {p : SetupRun}
    (hphase : store.Get StoreKey.step.name = [] ∨
      IsPhase (store.Get StoreKey.step.name))
    (hrun : Run SetupRun.step (newSetup store) turns p) :
    (p.state.Get .step = [] ∨ IsPhase (p.state.Get .step)) ∧
      (p.state.Get .step = phaseDss →
        store.Get StoreKey.step.name = phaseDss ∨ HadSession turns) ∧
      (∀ res, .done (.get res) ∈ p.goroutines →
        IsPhase res.Step ∧
          (res.Step = phaseDss →
            store.Get StoreKey.step.name = phaseDss ∨ HadSession turns)) ∧
      ∀ res, .done (.post res) ∈ p.goroutines → res.Status = "OK" →
        store.Get StoreKey.step.name = phaseDss ∨ HadSession turns := by
  obtain ⟨hs, hsafe⟩ := setup_allSafe hphase hrun
  have hhad := hadSession_of_confirmed hphase hrun
  refine ⟨hs.phase, fun hdss => hhad (hs.complete hdss), ?_, ?_⟩
  · intro res hres
    obtain ⟨s, hrely, hright⟩ := hsafe _ hres
    have hmay : MayStore res.Step s := hright
    exact ⟨hmay.1, fun hdss => hhad (hrely (hmay.2 hdss))⟩
  · intro res hres hok
    obtain ⟨s, hrely, hright⟩ := hsafe _ hres
    have hconfirmed : res.Status = "OK" → s.confirmed = true := hright
    exact hhad (hrely (hconfirmed hok))

/-- A setup that a request then finds complete. -/
theorem setup_complete_had_session_activated :
    ∃ turns p, Run SetupRun.step (newSetup ⟨"/var/lib/lmon/.lmon", ∅, none⟩)
        turns p ∧
      p.state.Get .step = phaseDss ∧ HadSession turns := by
  obtain ⟨order⟩ := rangeOrder_exists
  let write : StoreWrite := ⟨.none, order⟩
  let store : Store := ⟨"/var/lib/lmon/.lmon", ∅, none⟩
  let turns : List SetupTurn :=
    [.begin (.post (smoothPost order true)), .turn 0, .turn 0, .turn 0,
      .begin (.get ⟨.ok true, .ok true, write, write⟩), .turn 1, .turn 0,
      .turn 0, .outside (.session 7), .turn 0, .turn 1, .turn 0]
  have hexec : (exec SetupRun.step (fun _ _ => True) (newSetup store)
      turns).map (fun p => p.state.Get .step) = some phaseDss := rfl
  obtain ⟨p, hrun, hdss⟩ := GuardedRun.of_exec_map hexec
  have hnew : store.Get StoreKey.step.name ≠ phaseDss := fun h => by cases h
  have hall := setup_complete_had_session (Or.inl rfl) hrun
  exact ⟨turns, p, hrun, hdss, (hall.2.1 hdss).resolve_left hnew⟩

end DronesmithEngine.StatusServer
