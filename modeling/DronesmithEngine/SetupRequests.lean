import DronesmithEngine.OutputRequests
import DronesmithEngine.SessionReplies
import Mathlib.Tactic

/-!
# Requests that set the user up

`setupResponse` of `statusServer/statusServer.go` over the store of
`cloudlink/store.go`: it stores two credentials, waits for a session, and
stores the step, or gives up and erases the store.  Every call on the file may
fail.
-/

namespace DronesmithEngine.StatusServer

open Go Cloudlink

structure APIPostSetupReq where
  Email : List UInt8
  Password : List UInt8

/-- What a call of `Set` meets. -/
structure StoreWrite where
  errs : FileErrors
  order : RangeOrder

/-- Whether `initTemplates` reads its file, and what its calls of `net.Dial`
answer; it is watched for `fuel` attempts at each address. -/
structure Templates where
  parsed : Bool
  dial : List UInt8 → ℕ → Option (List UInt8)
  fuel : ℕ

/-- A request with all that decides its course. -/
structure SetupPost where
  obj : APIPostSetupReq
  email : StoreWrite
  pass : StoreWrite
  step : StoreWrite
  del : FileErrors
  /-- The answer of `IsOnline`. -/
  auth : Bool
  templates : Templates

def StoreWrite.Set (call : StoreWrite) (key : StoreKey) (value : List UInt8) :
    Effect Store (Option String) :=
  Store.Set call.errs call.order key.name value

def onStore {α : Type} (x : Effect Store α) : Effect Server α := fun s =>
  match x s.store with
  | (result, store) => (result, { s with store := store })

/-- There is no result while it still dials. -/
def initTemplates (t : Templates) : Effect Server (Option Unit) := fun s =>
  if t.parsed then
    match addOutputs t.dial t.fuel s.store.GetOutput s.Outputs with
    | some o => (.ok (some ()), { s with Outputs := o })
    | none => (.ok none, s)
  else (.ok (some ()), s)

/-- The error of the first call is overwritten. -/
def storeCredentials (post : SetupPost) : Effect Store (Option String) := do
  let _ ← post.email.Set .email post.obj.Email
  post.pass.Set .pass post.obj.Password

/-- The end of `setupResponse`, after the step was set.  There is no answer
while `initTemplates` has not returned. -/
def answerStep (post : SetupPost) :
    Option String → Effect Server (Option APIPostSetupRes)
  | some err => pure (some ⟨"error", err⟩)
  | none => do
      let ready ← initTemplates post.templates
      pure (ready.map fun _ => ⟨"OK", ""⟩)

/-- The second half of `setupResponse`, with the error of the first. -/
def answerSetup (post : SetupPost) :
    Option String → Effect Server (Option APIPostSetupRes)
  | some err => pure (some ⟨"error", err⟩)
  | none =>
      if post.auth then do
        let err ← onStore
          (post.step.Set .step (Pem.ascii SETUP_STEP_DSSCOMPLETE))
        answerStep post err
      else do
        let _ ← onStore (Store.Del post.del)
        pure (some ⟨"error", "Authentication failed."⟩)

def setupResponse (post : SetupPost) :
    Effect Server (Option APIPostSetupRes) := do
  let e ← Effect.read fun s => s.store.Get StoreKey.email.name
  let p ← Effect.read fun s => s.store.Get StoreKey.pass.name
  let err ←
    if e ≠ [] ∨ p ≠ [] then pure (some "Already activated.")
    else onStore (storeCredentials post)
  answerSetup post err

/-! ## Writing one value -/

/-- The file is there, or an earlier call has created it. -/
def Present (earlier : List FileErrors) (s : Store) : Prop :=
  s.file ≠ none ∨ ∃ errs ∈ earlier, errs.createErr = none

/-- A call after those opens the file. -/
def OpensAfter (earlier : List FileErrors) (errs : FileErrors) (s : Store) :
    Prop :=
  (Present earlier s ∧ errs.openErr = none) ∨ errs.createErr = none

def StoresAfter (earlier : List FileErrors) (errs : FileErrors) (s : Store) :
    Prop :=
  OpensAfter earlier errs s ∧ errs.writeErr = none

/-- What `Set` leaves: the new value, nothing, or the old one. -/
structure SetLeaves (errs : FileErrors) (key : StoreKey) (value : List UInt8)
    (s : Store) (err : Option String) (t : Store) : Prop where
  answer : err = none ↔ StoresAfter [] errs s
  stored : err = none → t.Get key.name = value
  unwritten : err ≠ none → OpensAfter [] errs s → t.Get key.name = []
  unopened : ¬ OpensAfter [] errs s → t.Get key.name = s.Get key.name
  others : ∀ other, other ≠ key → t.Get other.name = s.Get other.name
  present : t.file ≠ none ↔ Present [errs] s

theorem StoreKey_name_ne {key other : StoreKey} (hne : other ≠ key) :
    other.name ≠ key.name := by
  revert hne
  cases key <;> cases other <;> decide

theorem opensAfter_nil_iff {errs : FileErrors} {s : Store} :
    OpensAfter [] errs s ↔ CanOpen errs s.file := by
  simp [OpensAfter, Present, CanOpen]

theorem OpensAfter.present {errs : FileErrors} {s : Store}
    (hopens : OpensAfter [] errs s) : Present [errs] s := by
  rcases hopens with ⟨hfile | ⟨e, ⟨⟩, -⟩, -⟩ | hcreate
  · exact Or.inl hfile
  · exact Or.inr ⟨errs, List.mem_singleton_self errs, hcreate⟩

theorem Set_leaves (call : StoreWrite) (key : StoreKey) (value : List UInt8)
    (s : Store) :
    ∃ err t, call.Set key value s = (.ok err, t) ∧
      SetLeaves call.errs key value s err t := by
  unfold StoreWrite.Set Store.Set
  cases hopen : Store.openForWriting call.errs s.file with
  | error err =>
      have hclosed : ¬ OpensAfter [] call.errs s := by
        rw [opensAfter_nil_iff, ← Store.openForWriting_ok_iff, hopen]
        rintro ⟨content, hok⟩
        cases hok
      refine ⟨some err, s, rfl, ?_⟩
      exact
        { answer :=
            iff_of_false (Option.some_ne_none _) fun h => hclosed h.1
          stored := fun hnone => absurd hnone (Option.some_ne_none _)
          unwritten := fun _ hopens => absurd hopens hclosed
          unopened := fun _ => rfl
          others := fun _ _ => rfl
          present := by
            refine ⟨Or.inl, ?_⟩
            rintro (hfile | ⟨errs, herrs, hcreate⟩)
            · exact hfile
            · rw [List.mem_singleton.mp herrs] at hcreate
              exact absurd (Or.inr hcreate) hclosed }
  | ok content =>
      have hopens : OpensAfter [] call.errs s :=
        opensAfter_nil_iff.mpr
          (Store.openForWriting_ok_iff.mp ⟨content, hopen⟩)
      cases hwrite : call.errs.writeErr with
      | none =>
          refine ⟨none, _, rfl, ?_⟩
          exact
            { answer := iff_of_true rfl ⟨hopens, hwrite⟩
              stored := fun _ => by simp [Store.Get]
              unwritten := fun hne => absurd rfl hne
              unopened := fun hclosed => absurd hopens hclosed
              others := fun other hother => by
                simp [Store.Get,
                  Finmap.lookup_insert_of_ne _ (StoreKey_name_ne hother)]
              present := iff_of_true (Option.some_ne_none _) hopens.present }
      | some failed =>
          refine ⟨some failed.2, _, rfl, ?_⟩
          exact
            { answer := by
                refine iff_of_false (Option.some_ne_none _) fun h => ?_
                rw [h.2] at hwrite
                cases hwrite
              stored := fun hnone => absurd hnone (Option.some_ne_none _)
              unwritten := fun _ _ => by simp [Store.Get]
              unopened := fun hclosed => absurd hopens hclosed
              others := fun other hother => by
                have hname := StoreKey_name_ne hother
                simp [Store.Get, Finmap.lookup_erase_ne hname,
                  Finmap.lookup_insert_of_ne _ hname]
              present := iff_of_true (Option.some_ne_none _) hopens.present }

section

variable {earlier : List FileErrors} {errs : FileErrors} {s t : Store}

/-- What the calls before have to do with a call is the file they left. -/
theorem opensAfter_left_iff (hpresent : t.file ≠ none ↔ Present earlier s) :
    OpensAfter [] errs t ↔ OpensAfter earlier errs s := by
  simp [OpensAfter, Present, hpresent]

theorem storesAfter_left_iff (hpresent : t.file ≠ none ↔ Present earlier s) :
    StoresAfter [] errs t ↔ StoresAfter earlier errs s :=
  and_congr_left fun _ => opensAfter_left_iff hpresent

theorem present_left_iff (hpresent : t.file ≠ none ↔ Present earlier s) :
    Present [errs] t ↔ Present (errs :: earlier) s := by
  simp only [Present, hpresent, List.mem_cons, List.not_mem_nil, or_false,
    exists_eq_left, exists_eq_or_imp]
  rw [or_assoc, or_comm (a := ∃ errs ∈ earlier, errs.createErr = none)]

end

/-! ## The course of a request -/

namespace SetupPost

variable (post : SetupPost) (s : Store)

def StoresEmail : Prop := StoresAfter [] post.email.errs s

def StoresPass : Prop := StoresAfter [post.email.errs] post.pass.errs s

def OpensStep : Prop :=
  OpensAfter [post.pass.errs, post.email.errs] post.step.errs s

def StoresStep : Prop := post.OpensStep s ∧ post.step.errs.writeErr = none

end SetupPost

def NoCredentials (s : Store) : Prop :=
  s.Get StoreKey.email.name = [] ∧ s.Get StoreKey.pass.name = []

def Templates.Return (t : Templates) (s : Server) : Prop :=
  t.parsed = true →
    (addOutputs t.dial t.fuel s.store.GetOutput s.Outputs).isSome

/-- What the two calls for the credentials leave of a store that had none. -/
structure CredentialsLeft (post : SetupPost) (s : Store)
    (err : Option String) (t : Store) : Prop where
  answer : err = none ↔ post.StoresPass s
  email : post.StoresEmail s → t.Get StoreKey.email.name = post.obj.Email
  noEmail : ¬ post.StoresEmail s → t.Get StoreKey.email.name = []
  pass : err = none → t.Get StoreKey.pass.name = post.obj.Password
  noPass : err ≠ none → t.Get StoreKey.pass.name = []
  others : ∀ key : StoreKey, key ≠ .email → key ≠ .pass →
    t.Get key.name = s.Get key.name
  present : t.file ≠ none ↔ Present [post.pass.errs, post.email.errs] s

theorem SetLeaves.failed {errs : FileErrors} {key : StoreKey}
    {value : List UInt8} {s t : Store} {err : Option String}
    (hleaves : SetLeaves errs key value s err t) (herr : err ≠ none)
    (hnone : s.Get key.name = []) : t.Get key.name = [] := by
  by_cases hopens : OpensAfter [] errs s
  · exact hleaves.unwritten herr hopens
  · rw [hleaves.unopened hopens, hnone]

theorem storeCredentials_left (post : SetupPost) {s : Store}
    (hs : NoCredentials s) :
    ∃ err t, storeCredentials post s = (.ok err, t) ∧
      CredentialsLeft post s err t := by
  obtain ⟨first, middle, hfirst, hemail⟩ :=
    Set_leaves post.email .email post.obj.Email s
  obtain ⟨second, t, hsecond, hpass⟩ :=
    Set_leaves post.pass .pass post.obj.Password middle
  refine ⟨second, t, ?_, ?_⟩
  · rw [storeCredentials, Effect.bind_of_ok hfirst, hsecond]
  have hkept : t.Get StoreKey.email.name = middle.Get StoreKey.email.name :=
    hpass.others .email (by decide)
  have hmiddle : middle.Get StoreKey.pass.name = [] :=
    (hemail.others .pass (by decide)).trans hs.2
  exact
    { answer := hpass.answer.trans (storesAfter_left_iff hemail.present)
      email := fun hstores =>
        hkept.trans (hemail.stored (hemail.answer.mpr hstores))
      noEmail := fun hnot =>
        hkept.trans (hemail.failed (mt hemail.answer.mp hnot) hs.1)
      pass := hpass.stored
      noPass := fun herr => hpass.failed herr hmiddle
      others := fun key he hp =>
        (hpass.others key hp).trans (hemail.others key he)
      present := hpass.present.trans (present_left_iff hemail.present) }

theorem onStore_ok {α : Type} {x : Effect Store α} {s : Server} {a : α}
    {t : Store} (hx : x s.store = (.ok a, t)) :
    onStore x s = (.ok a, { s with store := t }) := by
  simp only [onStore, hx]

section

variable {post : SetupPost} {s : Server} {err : String} {t u : Store}

theorem setupResponse_eq (hs : NoCredentials s.store)
    {err : Option String}
    (hstored : storeCredentials post s.store = (.ok err, t)) :
    setupResponse post s = answerSetup post err { s with store := t } := by
  have hempty : ¬ (s.store.Get StoreKey.email.name ≠ [] ∨
      s.store.Get StoreKey.pass.name ≠ []) := by
    simp [hs.1, hs.2]
  simp only [setupResponse, Effect.read_bind, if_neg hempty]
  exact Effect.bind_of_ok (onStore_ok hstored)

theorem answerSetup_offline (hauth : post.auth = false) (s : Server) :
    answerSetup post none s =
      (.ok (some ⟨"error", "Authentication failed."⟩),
        { s with store := (Store.Del post.del s.store).2 }) := by
  have hdel : ∃ err, Store.Del post.del s.store =
      (.ok err, (Store.Del post.del s.store).2) := by
    unfold Store.Del
    split
    · exact ⟨_, rfl⟩
    · exact ⟨_, rfl⟩
  obtain ⟨err, hdel⟩ := hdel
  simp only [answerSetup, hauth, Bool.false_eq_true, if_false]
  rw [Effect.bind_of_ok (onStore_ok hdel)]
  rfl

theorem answerSetup_online (hauth : post.auth = true)
    {err : Option String}
    (hstep : post.step.Set .step (Pem.ascii SETUP_STEP_DSSCOMPLETE) s.store =
      (.ok err, u)) :
    answerSetup post none s =
      answerStep post err { s with store := u } := by
  simp only [answerSetup, hauth, if_true]
  rw [Effect.bind_of_ok (onStore_ok hstep)]

theorem answerStep_ready (hready : post.templates.Return s) :
    ∃ o, answerStep post none s =
      (.ok (some ⟨"OK", ""⟩), { s with Outputs := o }) := by
  by_cases hparsed : post.templates.parsed = true
  · obtain ⟨o, ho⟩ := Option.isSome_iff_exists.mp (hready hparsed)
    have hinit : initTemplates post.templates s =
        (.ok (some ()), { s with Outputs := o }) := by
      simp only [initTemplates, hparsed, if_true, ho]
    exact ⟨o, by rw [answerStep, Effect.bind_of_ok hinit]; rfl⟩
  · have hinit : initTemplates post.templates s = (.ok (some ()), s) :=
      if_neg hparsed
    exact ⟨s.Outputs, by rw [answerStep, Effect.bind_of_ok hinit]; rfl⟩

theorem answerStep_waiting (hwaiting : ¬ post.templates.Return s) :
    answerStep post none s = (.ok none, s) := by
  simp only [Templates.Return, Classical.not_imp, Bool.not_eq_true,
    Option.isSome_eq_false_iff, Option.isNone_iff_eq_none] at hwaiting
  have hinit : initTemplates post.templates s = (.ok none, s) := by
    simp only [initTemplates, hwaiting.1, if_true, hwaiting.2]
  rw [answerStep, Effect.bind_of_ok hinit]
  rfl

end

/-! ## Errors that leave the store -/

/-- An error leaves the value of every key, and `OK` means that both
credentials were stored. -/
structure SetupSafe (post : SetupPost) (s : Server) : Prop where
  restores : ∀ err, (setupResponse post s).1 = .ok (some ⟨"error", err⟩) →
    ∀ key : StoreKey,
      (setupResponse post s).2.store.Get key.name = s.store.Get key.name
  stores : ∀ err, (setupResponse post s).1 = .ok (some ⟨"OK", err⟩) →
    (setupResponse post s).2.store.Get StoreKey.email.name = post.obj.Email ∧
      (setupResponse post s).2.store.Get StoreKey.pass.name =
        post.obj.Password

/-- A stored value that is not taken back was empty, a store that is erased
held nothing, and a credential whose error is overwritten was empty. -/
structure NothingLost (post : SetupPost) (s : Server) : Prop where
  passFails : ¬ post.StoresPass s.store → post.StoresEmail s.store →
    post.obj.Email = []
  offline : post.StoresPass s.store → post.auth = false →
    ∀ key : StoreKey, s.store.Get key.name = []
  stepFails : post.StoresPass s.store → post.auth = true →
    ¬ post.StoresStep s.store →
      (post.StoresEmail s.store → post.obj.Email = []) ∧
        post.obj.Password = [] ∧
        (post.OpensStep s.store → s.store.Get StoreKey.step.name = [])
  succeeds : post.StoresPass s.store → post.auth = true →
    post.StoresStep s.store → post.templates.Return s →
      post.StoresEmail s.store ∨ post.obj.Email = []

section

variable {post : SetupPost} {s : Server} {t u : Store}

theorem safe_of_error {err : String}
    (hanswer : setupResponse post s =
      (.ok (some ⟨"error", err⟩), { s with store := t })) :
    SetupSafe post s ↔
      ∀ key : StoreKey, t.Get key.name = s.store.Get key.name := by
  constructor
  · intro hsafe
    have hall := hsafe.restores err (by rw [hanswer])
    rwa [hanswer] at hall
  · intro hall
    refine ⟨fun _ _ => ?_, fun err' hok => ?_⟩
    · rw [hanswer]
      exact hall
    · rw [hanswer] at hok
      simp at hok

/-- Of the other keys, only the step may differ. -/
theorem same_iff (hs : NoCredentials s.store)
    (hstep : ∀ key : StoreKey, key ≠ .email → key ≠ .pass → key ≠ .step →
      t.Get key.name = s.store.Get key.name) :
    (∀ key : StoreKey, t.Get key.name = s.store.Get key.name) ↔
      t.Get StoreKey.email.name = [] ∧ t.Get StoreKey.pass.name = [] ∧
        t.Get StoreKey.step.name = s.store.Get StoreKey.step.name := by
  constructor
  · intro hall
    exact ⟨(hall .email).trans hs.1, (hall .pass).trans hs.2, hall .step⟩
  · rintro ⟨hemail, hpass, hsame⟩ key
    cases key with
    | email => exact hemail.trans hs.1.symm
    | pass => exact hpass.trans hs.2.symm
    | step => exact hsame
    | ruid => exact hstep .ruid (by decide) (by decide) (by decide)
    | output => exact hstep .output (by decide) (by decide) (by decide)

theorem CredentialsLeft.email_iff {err : Option String}
    (hleft : CredentialsLeft post s.store err t) :
    t.Get StoreKey.email.name = [] ↔
      (post.StoresEmail s.store → post.obj.Email = []) := by
  by_cases hstores : post.StoresEmail s.store
  · rw [hleft.email hstores]
    simp [hstores]
  · rw [hleft.noEmail hstores]
    simp [hstores]

theorem CredentialsLeft.email_stored_iff {err : Option String}
    (hleft : CredentialsLeft post s.store err t) :
    t.Get StoreKey.email.name = post.obj.Email ↔
      post.StoresEmail s.store ∨ post.obj.Email = [] := by
  by_cases hstores : post.StoresEmail s.store
  · rw [hleft.email hstores]
    simp [hstores]
  · rw [hleft.noEmail hstores]
    exact ⟨fun h => Or.inr h.symm, fun h => (h.resolve_left hstores).symm⟩

theorem safe_passFails (hs : NoCredentials s.store) {err : String}
    (hstored : storeCredentials post s.store = (.ok (some err), t))
    (hleft : CredentialsLeft post s.store (some err) t) :
    SetupSafe post s ↔ (post.StoresEmail s.store → post.obj.Email = []) := by
  have hothers : ∀ key : StoreKey, key ≠ .email → key ≠ .pass →
      t.Get key.name = s.store.Get key.name := hleft.others
  rw [safe_of_error (setupResponse_eq hs hstored), ← hleft.email_iff,
    same_iff hs fun key he hp _ => hothers key he hp]
  have hpass := hleft.noPass nofun
  have hstep := hothers .step (by decide) (by decide)
  exact ⟨fun h => h.1, fun h => ⟨h, hpass, hstep⟩⟩

theorem safe_offline (hs : NoCredentials s.store) (hauth : post.auth = false)
    (hstored : storeCredentials post s.store = (.ok none, t)) :
    SetupSafe post s ↔ ∀ key : StoreKey, s.store.Get key.name = [] := by
  have hanswer := setupResponse_eq hs hstored
  rw [answerSetup_offline hauth] at hanswer
  rw [safe_of_error hanswer]
  have herased : ∀ key : StoreKey,
      (Store.Del post.del t).2.Get key.name = [] := by
    intro key
    unfold Store.Del
    split
    · rfl
    · rfl
  exact forall_congr' fun key => by rw [herased key, eq_comm]

theorem storesStep_iff {err : Option String}
    (hleft : CredentialsLeft post s.store none t)
    (hstep : SetLeaves post.step.errs .step
      (Pem.ascii SETUP_STEP_DSSCOMPLETE) t err u) :
    err = none ↔ post.StoresStep s.store :=
  hstep.answer.trans (storesAfter_left_iff hleft.present)

/-- The step keeps its value, or it is gone. -/
theorem step_same_iff {err : String}
    (hleft : CredentialsLeft post s.store none t)
    (hstep : SetLeaves post.step.errs .step
      (Pem.ascii SETUP_STEP_DSSCOMPLETE) t (some err) u) :
    u.Get StoreKey.step.name = s.store.Get StoreKey.step.name ↔
      (post.OpensStep s.store → s.store.Get StoreKey.step.name = []) := by
  have hopens : OpensAfter [] post.step.errs t ↔ post.OpensStep s.store :=
    opensAfter_left_iff hleft.present
  by_cases hopen : post.OpensStep s.store
  · rw [hstep.unwritten nofun (hopens.mpr hopen)]
    exact ⟨fun h _ => h.symm, fun h => (h hopen).symm⟩
  · rw [hstep.unopened (mt hopens.mp hopen),
      hleft.others .step (by decide) (by decide)]
    simp [hopen]

theorem safe_stepFails (hs : NoCredentials s.store) (hauth : post.auth = true)
    {err : String}
    (hstored : storeCredentials post s.store = (.ok none, t))
    (hleft : CredentialsLeft post s.store none t)
    (hset : post.step.Set .step (Pem.ascii SETUP_STEP_DSSCOMPLETE) t =
      (.ok (some err), u))
    (hstep : SetLeaves post.step.errs .step
      (Pem.ascii SETUP_STEP_DSSCOMPLETE) t (some err) u) :
    SetupSafe post s ↔
      (post.StoresEmail s.store → post.obj.Email = []) ∧
        post.obj.Password = [] ∧
        (post.OpensStep s.store → s.store.Get StoreKey.step.name = []) := by
  have hanswer := setupResponse_eq hs hstored
  rw [answerSetup_online hauth hset] at hanswer
  rw [safe_of_error hanswer,
    same_iff hs fun key he hp hne =>
      (hstep.others key hne).trans (hleft.others key he hp),
    hstep.others .email (by decide), hstep.others .pass (by decide),
    hleft.pass rfl, hleft.email_iff, step_same_iff hleft hstep]

theorem safe_stepStored (hs : NoCredentials s.store)
    (hauth : post.auth = true)
    (hstored : storeCredentials post s.store = (.ok none, t))
    (hleft : CredentialsLeft post s.store none t)
    (hset : post.step.Set .step (Pem.ascii SETUP_STEP_DSSCOMPLETE) t =
      (.ok none, u))
    (hstep : SetLeaves post.step.errs .step
      (Pem.ascii SETUP_STEP_DSSCOMPLETE) t none u) :
    SetupSafe post s ↔
      (post.templates.Return s →
        post.StoresEmail s.store ∨ post.obj.Email = []) := by
  have hanswer := setupResponse_eq hs hstored
  rw [answerSetup_online hauth hset] at hanswer
  -- The templates read the outputs, which have not changed.
  have houtputs : u.GetOutput = s.store.GetOutput := by
    have hsame : u.Get StoreKey.output.name = s.store.Get StoreKey.output.name :=
      (hstep.others .output (by decide)).trans
        (hleft.others .output (by decide) (by decide))
    simp only [Store.GetOutput, hsame]
  have hreturn : post.templates.Return { s with store := u } ↔
      post.templates.Return s := by
    simp only [Templates.Return, houtputs]
  by_cases hready : post.templates.Return s
  · obtain ⟨o, ho⟩ := answerStep_ready (hreturn.mpr hready)
    rw [ho] at hanswer
    have hemail : u.Get StoreKey.email.name = t.Get StoreKey.email.name :=
      hstep.others .email (by decide)
    have hpass : u.Get StoreKey.pass.name = post.obj.Password :=
      (hstep.others .pass (by decide)).trans (hleft.pass rfl)
    constructor
    · intro hsafe _
      obtain ⟨hstores, -⟩ := hsafe.stores "" (by rw [hanswer])
      rw [hanswer] at hstores
      exact hleft.email_stored_iff.mp (hemail.symm.trans hstores)
    · intro hcovered
      refine ⟨fun err herr => ?_, fun _ _ => ?_⟩
      · rw [hanswer] at herr
        simp at herr
      · rw [hanswer]
        exact ⟨hemail.trans (hleft.email_stored_iff.mpr (hcovered hready)),
          hpass⟩
  · rw [answerStep_waiting (mt hreturn.mp hready)] at hanswer
    refine iff_of_true ⟨fun err herr => ?_, fun err herr => ?_⟩
      (fun h => absurd h hready)
    · rw [hanswer] at herr
      simp at herr
    · rw [hanswer] at herr
      simp at herr

theorem nothingLost_passFails_iff (hpass : ¬ post.StoresPass s.store) :
    NothingLost post s ↔ (post.StoresEmail s.store → post.obj.Email = []) := by
  constructor
  · intro hlost
    exact hlost.passFails hpass
  · intro hempty
    exact ⟨fun _ => hempty, fun h => absurd h hpass, fun h => absurd h hpass,
      fun h => absurd h hpass⟩

theorem nothingLost_offline_iff (hpass : post.StoresPass s.store)
    (hauth : post.auth = false) :
    NothingLost post s ↔ ∀ key : StoreKey, s.store.Get key.name = [] := by
  have hoff : post.auth ≠ true := by
    rw [hauth]
    decide
  constructor
  · intro hlost
    exact hlost.offline hpass hauth
  · intro hempty
    exact ⟨fun h => absurd hpass h, fun _ _ => hempty,
      fun _ h => absurd h hoff, fun _ h => absurd h hoff⟩

theorem nothingLost_stepFails_iff (hpass : post.StoresPass s.store)
    (hauth : post.auth = true) (hstep : ¬ post.StoresStep s.store) :
    NothingLost post s ↔
      (post.StoresEmail s.store → post.obj.Email = []) ∧
        post.obj.Password = [] ∧
        (post.OpensStep s.store → s.store.Get StoreKey.step.name = []) := by
  constructor
  · intro hlost
    exact hlost.stepFails hpass hauth hstep
  · intro hempty
    exact ⟨fun h => absurd hpass h, fun _ h => absurd (hauth.symm.trans h) nofun,
      fun _ _ _ => hempty, fun _ _ h => absurd h hstep⟩

theorem nothingLost_stepStored_iff (hpass : post.StoresPass s.store)
    (hauth : post.auth = true) (hstep : post.StoresStep s.store) :
    NothingLost post s ↔
      (post.templates.Return s →
        post.StoresEmail s.store ∨ post.obj.Email = []) := by
  constructor
  · intro hlost
    exact hlost.succeeds hpass hauth hstep
  · intro hcovered
    exact ⟨fun h => absurd hpass h, fun _ h => absurd (hauth.symm.trans h) nofun,
      fun _ _ h => absurd hstep h, fun _ _ _ => hcovered⟩

theorem setupResponse_safe_iff (hs : NoCredentials s.store) :
    SetupSafe post s ↔ NothingLost post s := by
  obtain ⟨err, t, hstored, hleft⟩ := storeCredentials_left post hs
  cases err with
  | some err =>
      have hpass : ¬ post.StoresPass s.store := mt hleft.answer.mpr nofun
      exact (safe_passFails hs hstored hleft).trans
        (nothingLost_passFails_iff hpass).symm
  | none =>
      have hpass : post.StoresPass s.store := hleft.answer.mp rfl
      cases hauth : post.auth with
      | false =>
          exact (safe_offline hs hauth hstored).trans
            (nothingLost_offline_iff hpass hauth).symm
      | true =>
          obtain ⟨err, u, hset, hstep⟩ := Set_leaves post.step .step
            (Pem.ascii SETUP_STEP_DSSCOMPLETE) t
          have hstores := storesStep_iff hleft hstep
          cases err with
          | some err =>
              exact (safe_stepFails hs hauth hstored hleft hset hstep).trans
                (nothingLost_stepFails_iff hpass hauth
                  (mt hstores.mpr nofun)).symm
          | none =>
              exact (safe_stepStored hs hauth hstored hleft hset hstep).trans
                (nothingLost_stepStored_iff hpass hauth
                  (hstores.mp rfl)).symm

end

/-- A post in which no call fails. -/
def smoothPost (order : RangeOrder) (auth : Bool) : SetupPost where
  obj := ⟨Pem.ascii "a@b.c", Pem.ascii "pw"⟩
  email := ⟨.none, order⟩
  pass := ⟨.none, order⟩
  step := ⟨.none, order⟩
  del := .none
  auth := auth
  templates := ⟨true, fun _ _ => none, 1⟩

theorem setupResponse_safe_iff_new :
    ∃ post s, NoCredentials s.store ∧
      (setupResponse post s).1 = .ok (some ⟨"OK", ""⟩) ∧
      SetupSafe post s := by
  obtain ⟨order⟩ := rangeOrder_exists
  let s := empty "/var/lib/lmon/.lmon" none
  have hs : NoCredentials s.store := ⟨rfl, rfl⟩
  have hstores : ∀ earlier, StoresAfter earlier .none s.store := fun _ =>
    ⟨Or.inr rfl, rfl⟩
  have hlost : NothingLost (smoothPost order true) s :=
    ⟨fun h => absurd (hstores _) h, fun _ => nofun,
      fun _ _ h => absurd (hstores _) h, fun _ _ _ _ => Or.inl (hstores _)⟩
  exact ⟨smoothPost order true, s, hs, rfl,
    (setupResponse_safe_iff hs).mpr hlost⟩

/-- A store with nothing but a step, and the wrong password: the step is
gone. -/
theorem wrong_password_erases_store :
    ¬ ∀ post s, NoCredentials s.store → SetupSafe post s := by
  intro hall
  obtain ⟨order⟩ := rangeOrder_exists
  let s : Server :=
    ⟨⟨"/var/lib/lmon/.lmon",
      Finmap.singleton StoreKey.step.name (Pem.ascii "setupWifi"), some []⟩,
      ⟨∅, 0⟩⟩
  have hs : NoCredentials s.store := ⟨by decide, by decide⟩
  have hsafe := hall (smoothPost order false) s hs
  have hstep : [] = s.store.Get StoreKey.step.name :=
    hsafe.restores "Authentication failed." rfl .step
  exact absurd hstep (by decide)

end DronesmithEngine.StatusServer
