import DronesmithEngine.SetupPhases
import Mathlib.Tactic

/-!
# Credentials of a complete setup

Where each request is answered before the next one comes, a setup that is
complete has a password.  Without that, a request that read the step before a
logout stores it again.  A request alone does what the model of the single
request says.
-/

namespace DronesmithEngine.StatusServer

open Go Cloudlink LabelledRuns Resumptions

/-! ## One request after the other -/

/-- What comes from outside leaves the step and the password. -/
structure SameKeys (s t : Setup) : Prop where
  step : t.Get .step = s.Get .step
  pass : t.Get .pass = s.Get .pass

def Complete (s : Setup) : Prop :=
  s.Get .step = phaseDss → s.Get .pass ≠ []

def HasPassword : SetupRequest → Prop
  | .post request => request.obj.Password ≠ []
  | _ => True

instance : DecidablePred HasPassword
  | .post _ => inferInstanceAs (Decidable (_ ≠ _))
  | .get _ => .isTrue trivial
  | .logout _ => .isTrue trivial
  | .aps _ => .isTrue trivial

theorem SameKeys.trans (s t u : Setup) (hst : SameKeys s t)
    (htu : SameKeys t u) : SameKeys s u :=
  ⟨htu.step.trans hst.step, htu.pass.trans hst.pass⟩

abbrev SafeAlone {α : Type} (Q : α → Setup → Prop) (x : Resumption Setup α)
    (s : Setup) : Prop :=
  x.Safe SameKeys (fun _ _ => True) Complete Q s

section

variable {s : Setup} {call : StoreWrite} {key : StoreKey}
variable {value : List UInt8} {err : Option String} {store : Store}

theorem phaseDss_ne : phaseDss ≠ [] := by decide

theorem phaseInitial_ne_dss : phaseInitial ≠ phaseDss := by decide

theorem phaseWifi_ne_dss : phaseWifi ≠ phaseDss := by decide

/-- A step that says complete is stored with a password. -/
theorem safeAlone_step
    (hvalue : value = phaseDss → s.Get .step = phaseDss ∨ s.Get .pass ≠ []) :
    SafeAlone (fun _ _ => True) (Setup.onStore (call.Set .step value)) s := by
  apply safe_set
  intro t err store hrely ht hleaves
  refine ⟨fun hdss => ?_, trivial, trivial⟩
  have hpass : store.Get StoreKey.pass.name = t.Get .pass :=
    hleaves.others .pass (by decide)
  change store.Get StoreKey.step.name = phaseDss at hdss
  change store.Get StoreKey.pass.name ≠ []
  rw [hpass]
  rcases hleaves.get_cases with hnew | hnone | hold
  · rcases hvalue (hnew.symm.trans hdss) with hwas | hhas
    · exact ht (hrely.step.trans hwas)
    · rwa [hrely.pass]
  · exact absurd (hdss.symm.trans hnone) phaseDss_ne
  · exact ht (hold.symm.trans hdss)

theorem safeAlone_del {del : FileErrors} :
    SafeAlone (fun _ _ => True) (Setup.onStore (Store.Del del)) s := by
  apply safe_del
  intro t err store _ _ hnone
  refine ⟨fun hdss => ?_, trivial, trivial⟩
  exact absurd (hdss.symm.trans (hnone .step)) phaseDss_ne

theorem safeAlone_checkWifi (req : SetupGet) :
    SafeAlone (fun res _ => res.Step ≠ phaseDss) (checkWifi req) s := by
  unfold checkWifi
  split
  · exact phaseWifi_ne_dss
  · split
    · exact phaseWifi_ne_dss
    · exact phaseWifi_ne_dss
    · exact phaseInitial_ne_dss
  · apply (safeAlone_step fun h => absurd h phaseInitial_ne_dss).bind
    intro err t _
    split
    · exact phaseInitial_ne_dss
    · exact phaseInitial_ne_dss

theorem safeAlone_checkPhase (req : SetupGet)
    (hstep : value = phaseDss → s.Get .step = phaseDss) :
    SafeAlone (fun res t => res.Step = phaseDss → t.Get .step = phaseDss)
      (checkPhase req value) s := by
  unfold checkPhase
  split
  next hinitial =>
    rw [hinitial]
    exact fun h => absurd h phaseInitial_ne_dss
  next =>
    split
    · exact (safeAlone_checkWifi req).imp fun _ _ hne h => absurd h hne
    · split
      · exact hstep
      · exact fun h => absurd h phaseInitial_ne_dss

theorem safeAlone_getSetup (req : SetupGet) :
    SafeAlone (fun _ _ => True) (getSetup req) s := by
  have hread : SafeAlone (fun step t => step = t.Get .step)
      (Setup.get .step) s :=
    safe_get fun _ _ _ => ⟨trivial, rfl⟩
  apply hread.bind
  intro storeStep t hstep
  have hchecked : SafeAlone
      (fun res t => res.Step = phaseDss → t.Get .step = phaseDss)
      (checkPhase req (if storeStep ≠ [] then storeStep else phaseWifi))
      t := by
    apply safeAlone_checkPhase
    split
    · exact fun h => hstep.symm.trans h
    · exact fun h => absurd h phaseWifi_ne_dss
  apply hchecked.bind
  intro obj u hobj
  apply (safeAlone_step fun h => Or.inl (hobj h)).bind
  exact fun _ _ _ => trivial

/-- The credentials of an incomplete setup. -/
theorem safeAlone_activate (post : SetupPost)
    (hpassword : post.obj.Password ≠ []) :
    SafeAlone (fun err t => err = none → t.Get .pass ≠ [])
      (activate post) s := by
  have hemail : SafeAlone (fun _ _ => True) (Setup.get .email) s :=
    safe_get fun _ _ _ => ⟨trivial, trivial⟩
  apply hemail.bind
  intro e t _
  have hpass : SafeAlone (fun p t => p = [] → t.Get .step ≠ phaseDss)
      (Setup.get .pass) t :=
    safe_get fun u _ hu =>
      ⟨trivial, fun hnone hdss => hu hdss hnone⟩
  apply hpass.bind
  intro p u hp
  split
  · nofun
  next hnone =>
    simp only [not_or, not_not] at hnone
    have hincomplete := hp hnone.2
    have hset : SafeAlone (fun _ t => t.Get .step ≠ phaseDss)
        (Setup.onStore (post.email.Set .email post.obj.Email)) u := by
      apply safe_set
      intro v err store hrely _ hleaves
      have hstep : store.Get StoreKey.step.name = u.Get .step :=
        (hleaves.others .step (by decide)).trans hrely.step
      have hstill : store.Get StoreKey.step.name ≠ phaseDss :=
        hstep.symm ▸ hincomplete
      exact ⟨fun hdss => absurd hdss hstill, trivial, hstill⟩
    apply hset.bind
    intro err v hv
    apply safe_set
    intro w err' store hrely _ hleaves
    have hstep : store.Get StoreKey.step.name = v.Get .step :=
      (hleaves.others .step (by decide)).trans hrely.step
    have hstill : store.Get StoreKey.step.name ≠ phaseDss :=
      hstep.symm ▸ hv
    refine ⟨fun hdss => absurd hdss hstill, trivial, fun hok => ?_⟩
    have hstored : store.Get StoreKey.pass.name = post.obj.Password :=
      hleaves.stored hok
    change store.Get StoreKey.pass.name ≠ []
    rwa [hstored]

theorem safeAlone_authenticate (post : SetupPost) (hs : s.Get .pass ≠ []) :
    SafeAlone (fun _ _ => True) (authenticate post) s := by
  have hreads : ∀ t : Setup, Complete t → True := fun _ _ => trivial
  have hwait : SafeAlone
      (fun online t => t.Get .pass ≠ [] ∧
        (online = true → Complete t ∧ t.sessionId ≠ 0))
      (Setup.IsOnline 5) s :=
    safe_isOnline (fun t u ht hrely => hrely.pass.symm ▸ ht) hreads 5 hs
  apply hwait.bind
  rintro auth t ⟨hpass, -⟩
  cases auth with
  | true =>
      apply (safeAlone_step fun _ => Or.inr hpass).bind
      intro err u _
      split <;> trivial
  | false =>
      apply safeAlone_del.bind
      exact fun _ _ _ => trivial

theorem safeAlone_postSetup (post : SetupPost)
    (hpassword : post.obj.Password ≠ []) :
    SafeAlone (fun _ _ => True) (postSetup post) s := by
  apply (safeAlone_activate post hpassword).bind
  intro err t ht
  split
  · trivial
  · exact safeAlone_authenticate post (ht rfl)

theorem safeAlone_logoutResponse (post : LogoutPost) :
    SafeAlone (fun _ _ => True) (logoutResponse post) s := by
  have hleave : SafeAlone (fun _ _ => True)
      (Resumption.modify fun s : Setup => { s with sessionId := 0 }) s :=
    Resumption.Safe.atomic fun t _ ht => ⟨ht, trivial, trivial⟩
  have hlogout : SafeAlone (fun _ _ => True) (Logout post) s := by
    apply hleave.bind
    intro _ t _
    apply safeAlone_del.bind
    intro err u _
    split
    · trivial
    · apply (safeAlone_step fun h => absurd h phaseWifi_ne_dss).bind
      exact fun _ _ _ => trivial
  apply hlogout.bind
  intro err t _
  split <;> trivial

theorem safeAlone_handler (request : SetupRequest)
    (hpassword : HasPassword request) :
    SafeAlone (fun _ _ => True) request.handler s := by
  cases request with
  | get request =>
      apply (safeAlone_getSetup request).bind
      exact fun _ _ _ => trivial
  | post request =>
      apply (safeAlone_postSetup request hpassword).bind
      exact fun _ _ _ => trivial
  | logout request =>
      apply (safeAlone_logoutResponse request).bind
      exact fun _ _ _ => trivial
  | aps step =>
      apply (safeAlone_step fun h => absurd h phaseWifi_ne_dss).bind
      exact fun _ _ _ => trivial

end

theorem outside_sameKeys {e : SetupEvent} {s t : Setup} (hs : Complete s)
    (hstep : Setup.outside e s = some t) : Complete t ∧ SameKeys s t := by
  have hother (call : StoreWrite) (key : StoreKey) (value : List UInt8)
      (hnotStep : .step ≠ key) (hnotPass : .pass ≠ key) :
      SameKeys s (s.setOther call key value) := by
    obtain ⟨err, hleaves⟩ := setOther_leaves s call key value
    exact ⟨hleaves.others .step hnotStep, hleaves.others .pass hnotPass⟩
  have hkeeps (hsame : SameKeys s t) : Complete t ∧ SameKeys s t := by
    refine ⟨fun hdss => ?_, hsame⟩
    rw [hsame.pass]
    exact hs (hsame.step.symm.trans hdss)
  cases e with
  | session sessionId =>
      cases hstep
      exact ⟨hs, rfl, rfl⟩
  | output call value =>
      cases hstep
      exact hkeeps (hother call .output value (by decide) (by decide))
  | ruid call value =>
      cases hstep
      exact hkeeps (hother call .ruid value (by decide) (by decide))

/-- Where each request is answered before the next one comes, and none has an
empty password, a password is stored with a step that says complete, whichever
calls on the store fail.  `hstart` says so of the start, and fails where the
password begins with a dash or a semicolon: a restarted process reads it back
as none. -/
theorem setup_complete_has_password {store : Store}
    {turns : List SetupTurn} {p : SetupRun}
    (hstart : store.Get StoreKey.step.name = phaseDss →
      store.Get StoreKey.pass.name ≠ [])
    (hrun : GuardedRun SetupRun.step (Pool.Serial HasPassword)
      (newSetup store) turns p) :
    p.state.Get .step = phaseDss → p.state.Get .pass ≠ [] := by
  have hcomplete : Complete (newSetup store).state := hstart
  have hkept : Complete p.state := by
    refine Pool.serial (Q := fun _ _ => True) (fun _ => ⟨rfl, rfl⟩)
      SameKeys.trans ?_ ?_ hcomplete hrun
    · exact fun _ _ _ hs hstep => outside_sameKeys hs hstep
    · exact fun request _ hallowed _ => safeAlone_handler request hallowed
  exact hkept

def emptyStore : Store := ⟨"/var/lib/lmon/.lmon", ∅, none⟩

/-- A request that nothing goes wrong with, its session, and its steps. -/
def activatingTurns (order : RangeOrder) : List SetupTurn :=
  [.begin (.post (smoothPost order true)), .outside (.session 7), .turn 0,
    .turn 0, .turn 0, .turn 0, .turn 0, .turn 0]

theorem setup_complete_has_password_activating :
    ∃ turns p, GuardedRun SetupRun.step (Pool.Serial HasPassword)
        (newSetup emptyStore) turns p ∧
      p.state.Get .step = phaseDss ∧ p.state.Get .pass ≠ [] := by
  obtain ⟨order⟩ := rangeOrder_exists
  have hexec : (exec SetupRun.step (Pool.Serial HasPassword)
      (newSetup emptyStore) (activatingTurns order)).map
      (fun p => p.state.Get .step) = some phaseDss := rfl
  obtain ⟨p, hrun, hdss⟩ := GuardedRun.of_exec_map hexec
  have hstart : emptyStore.Get StoreKey.step.name = phaseDss →
      emptyStore.Get StoreKey.pass.name ≠ [] := fun h => by cases h
  exact ⟨_, p, hrun, hdss, setup_complete_has_password hstart hrun hdss⟩

/-- A logout between the two calls of a `GET` on the store: the setup is
complete and has no credentials. -/
theorem logout_undone :
    ¬ ∀ turns p, Run SetupRun.step (newSetup emptyStore) turns p →
      p.state.Get .step = phaseDss → p.state.Get .pass ≠ [] := by
  intro hall
  obtain ⟨order⟩ := rangeOrder_exists
  let write : StoreWrite := ⟨.none, order⟩
  let turns : List SetupTurn :=
    activatingTurns order ++
      [.begin (.get ⟨.ok true, .ok true, write, write⟩), .turn 1,
        .begin (.logout ⟨.none, write⟩), .turn 2, .turn 2, .turn 2, .turn 1]
  have hexec : (exec SetupRun.step (fun _ _ => True) (newSetup emptyStore)
      turns).map (fun p => (p.state.Get .step, p.state.Get .pass)) =
        some (phaseDss, []) := rfl
  obtain ⟨p, hrun, heq⟩ := GuardedRun.of_exec_map hexec
  simp only [Prod.mk.injEq] at heq
  exact hall turns p hrun heq.1 heq.2

/-! ## A request alone -/

section

variable {s : Setup}

theorem onStore_alone {x : Effect Store (Option String)}
    {err : Option String} {t : Store} (hx : x s.store = (.ok err, t)) :
    (Setup.onStore x).alone s = (err, { s with store := t }) := by
  have hrecover : Effect.recover none x s.store = (err, t) := by
    simp only [Effect.recover, hx]
  simp only [Setup.onStore, Resumption.alone_atomic, hrecover]

/-- Alone it sees the session that there is at first. -/
theorem isOnline_alone (attempts : ℕ) :
    (Setup.IsOnline (attempts + 1)).alone s =
      (decide (s.sessionId ≠ 0), s) := by
  induction attempts with
  | zero =>
      rw [Setup.IsOnline, Resumption.alone_bind, Resumption.read,
        Resumption.alone_atomic]
      by_cases honline : s.sessionId ≠ 0
      · simp [honline]
      · simp [honline, Setup.IsOnline]
  | succ attempts ih =>
      rw [Setup.IsOnline, Resumption.alone_bind, Resumption.read,
        Resumption.alone_atomic]
      by_cases honline : s.sessionId ≠ 0
      · simp [honline]
      · simp only [decide_eq_false honline, Bool.false_eq_true, if_false]
        rw [ih, decide_eq_false honline]

theorem activate_read (post : SetupPost) :
    (activate post).alone s =
      (if s.Get .email ≠ [] ∨ s.Get .pass ≠ [] then
        pure (some "Already activated.")
      else do
        let _ ← Setup.onStore (post.email.Set .email post.obj.Email)
        Setup.onStore (post.pass.Set .pass post.obj.Password)).alone s := rfl

theorem activate_alone (post : SetupPost) (hs : NoCredentials s.store) :
    ∃ err t, storeCredentials post s.store = (.ok err, t) ∧
      (activate post).alone s = (err, { s with store := t }) := by
  obtain ⟨first, middle, hfirst, -⟩ :=
    Set_leaves post.email .email post.obj.Email s.store
  obtain ⟨second, t, hsecond, -⟩ :=
    Set_leaves post.pass .pass post.obj.Password middle
  refine ⟨second, t, ?_, ?_⟩
  · rw [storeCredentials, Effect.bind_of_ok hfirst, hsecond]
  · have hnone : ¬ (s.Get .email ≠ [] ∨ s.Get .pass ≠ []) := by
      simp [Setup.Get, hs.1, hs.2]
    have hemail := onStore_alone (s := s) hfirst
    have hpass := onStore_alone (s := { s with store := middle }) hsecond
    rw [activate_read, if_neg hnone, Resumption.alone_bind, hemail, hpass]

theorem authenticate_alone (post : SetupPost) (o : Fmulink.OutputManager)
    (hauth : post.auth = decide (s.sessionId ≠ 0))
    (hready : ∀ store, post.templates.Return ⟨store, o⟩) :
    ∃ server, answerSetup post none ⟨s.store, o⟩ =
        (.ok (some ((authenticate post).alone s).1), server) ∧
      server.store = ((authenticate post).alone s).2.store := by
  have hwait := isOnline_alone (s := s) 4
  rw [authenticate, Resumption.alone_bind, hwait]
  by_cases honline : s.sessionId ≠ 0
  · rw [decide_eq_true honline] at hauth ⊢
    obtain ⟨err, t, hset, -⟩ := Set_leaves post.step .step phaseDss s.store
    have halone := onStore_alone (s := s) hset
    have hanswer := answerSetup_online (s := ⟨s.store, o⟩) hauth hset
    simp only [if_true]
    rw [Resumption.alone_bind, halone, hanswer]
    cases err with
    | some err => exact ⟨_, rfl, rfl⟩
    | none =>
        obtain ⟨outputs, hready⟩ :=
          answerStep_ready (s := ⟨t, o⟩) (hready t)
        exact ⟨_, hready, rfl⟩
  · rw [decide_eq_false honline] at hauth ⊢
    have hdel : ∃ err, Store.Del post.del s.store =
        (.ok err, (Store.Del post.del s.store).2) := by
      unfold Store.Del
      split <;> exact ⟨_, rfl⟩
    obtain ⟨err, hdel⟩ := hdel
    have halone := onStore_alone (s := s) hdel
    simp only [Bool.false_eq_true, if_false]
    rw [Resumption.alone_bind, halone, answerSetup_offline hauth]
    exact ⟨_, rfl, rfl⟩

/-- Alone, a request answers as the model of the single request does, and
leaves the same store. -/
theorem postSetup_alone (post : SetupPost) (o : Fmulink.OutputManager)
    (hauth : post.auth = decide (s.sessionId ≠ 0))
    (hready : ∀ store, post.templates.Return ⟨store, o⟩) :
    ∃ server, setupResponse post ⟨s.store, o⟩ =
        (.ok (some ((postSetup post).alone s).1), server) ∧
      server.store = ((postSetup post).alone s).2.store := by
  rw [postSetup, Resumption.alone_bind]
  by_cases hs : NoCredentials s.store
  · obtain ⟨err, t, hstored, halone⟩ := activate_alone post hs
    rw [setupResponse_eq (s := ⟨s.store, o⟩) hs hstored, halone]
    cases err with
    | some err => exact ⟨_, rfl, rfl⟩
    | none =>
        exact authenticate_alone (s := { s with store := t }) post o hauth
          hready
  · have hsome : s.store.Get StoreKey.email.name ≠ [] ∨
        s.store.Get StoreKey.pass.name ≠ [] := not_and_or.mp hs
    have hget : s.Get .email ≠ [] ∨ s.Get .pass ≠ [] := hsome
    rw [activate_read, if_pos hget]
    refine ⟨⟨s.store, o⟩, ?_, rfl⟩
    simp only [setupResponse, Effect.read_bind]
    rw [if_pos hsome]
    rfl

end

end DronesmithEngine.StatusServer
