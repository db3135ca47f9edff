import DronesmithEngine.OutputLinks
import DronesmithEngine.StoreOperations
import Mathlib.Tactic

/-!
# Requests that change the outputs

The handler of POST /index/output in `statusServer/statusServer.go` keeps two
lists of addresses: the links of the output manager, and the list in the
store, from which `initTemplates` makes the links again.  The calls on the
file of the store succeed here.
-/

namespace DronesmithEngine.StatusServer

open Go LabelledRuns Cloudlink Fmulink

structure APIPostOutputReq where
  Address : List UInt8
  Method : List UInt8

structure APIPostOutputRes where
  Error : List UInt8
  Status : List UInt8

/-- The store of the cloud link and the `Outputs` of the flight controller
link. -/
structure Server where
  store : Store
  Outputs : OutputManager

def deleteMethod : List UInt8 := Pem.ascii "delete"

def statusError : List UInt8 := Pem.ascii "error"

def statusOK : List UInt8 := Pem.ascii "OK"

def answer : Option (List UInt8) → APIPostOutputRes
  | some err => ⟨err, statusError⟩
  | none => ⟨[], statusOK⟩

/-- A request, with what `net.Dial` answers to its address and the order in
which the store goes through its map. -/
structure OutputPost where
  obj : APIPostOutputReq
  dialErr : Option (List UInt8)
  order : RangeOrder

/-- The errors of the store are dropped. -/
def outResponse (post : OutputPost) : Effect Server APIPostOutputRes :=
  fun s =>
    let addr := post.obj.Address
    if post.obj.Method = deleteMethod then
      match Store.DelOutput .none post.order addr s.store with
      | (.error e, store) => (.error e, { s with store := store })
      | (.ok _, store) =>
          let (err, outputs) := s.Outputs.Remove addr
          (.ok (answer err), ⟨store, outputs⟩)
    else
      let (err, outputs) := s.Outputs.Add addr post.dialErr
      match Store.SetOutput .none post.order addr s.store with
      | (.error e, store) => (.error e, ⟨store, outputs⟩)
      | (.ok _, store) => (.ok (answer err), ⟨store, outputs⟩)

def step (s : Server) (post : OutputPost) : Option Server :=
  some (outResponse post s).2

def empty (path : String) (file : Option (List UInt8)) : Server where
  store := ⟨path, ∅, file⟩
  Outputs := ⟨∅, 0⟩

/-! ## Adding the outputs at the start -/

/-- Dials until it succeeds; `n` counts the attempts before. -/
def addOutput (e : List UInt8) (dial : ℕ → Option (List UInt8)) :
    ℕ → ℕ → OutputManager → Option OutputManager
  | 0, _, _ => none
  | fuel + 1, n, o =>
      match o.Add e (dial n) with
      | (none, o) => some o
      | (some _, o) => addOutput e dial fuel (n + 1) o

/-- The loop of `initTemplates`, with the outcomes of all its attempts. -/
def addOutputs (dial : List UInt8 → ℕ → Option (List UInt8)) (fuel : ℕ)
    (outputs : List (List UInt8)) (o : OutputManager) :
    Option OutputManager :=
  outputs.foldlM (fun o e => addOutput e (dial e) fuel 0 o) o

/-- `initTemplates` gets past its loop. -/
def Starts (dial : List UInt8 → ℕ → Option (List UInt8)) (s : Server) :
    Prop :=
  ∃ fuel o, addOutputs dial fuel s.store.GetOutput ⟨∅, 0⟩ = some o

/-! ## What a request should leave -/

def SameOutputs (s : Server) : Prop :=
  ∀ addr, addr ∈ s.store.GetOutput ↔ addr ∈ s.Outputs.links

/-- Both lists agree after the request, and an error leaves both. -/
def Consistent (s : Server) (post : OutputPost) (next : Server) : Prop :=
  SameOutputs next ∧
    ∃ res, (outResponse post s).1 = .ok res ∧
      (res.Status = statusError →
        next.store.GetOutput = s.store.GetOutput ∧
          next.Outputs.links = s.Outputs.links)

def OutputPost.Dials (post : OutputPost) (addr : List UInt8) : Prop :=
  post.obj.Method ≠ deleteMethod ∧ post.obj.Address = addr ∧
    post.dialErr = none

/-- A start waits only for addresses that could be dialled when they were
added. -/
def Restarts (posts : List OutputPost) (s : Server) : Prop :=
  ∀ dial, (∀ addr, (∃ post ∈ posts, post.Dials addr) →
    ∃ n, dial addr n = none) → Starts dial s

/-- An address that cannot be dialled is not a new one, a new one can be told
from the others in the list, and the empty address is never the only one. -/
def Accepted (s : Server) (post : OutputPost) : Prop :=
  let addr := post.obj.Address
  let links := s.Outputs.links.keys
  if post.obj.Method = deleteMethod then links.erase addr ≠ {[]}
  else
    match post.dialErr with
    | none => comma ∉ addr ∧ insert addr links ≠ {[]}
    | some _ => addr ∈ links ∨ addr = [] ∧ links = ∅

/-! ## The invariant -/

variable {s next : Server} {post : OutputPost}

structure Listed (s : Server) : Prop where
  same : SameOutputs s
  nodup : s.store.GetOutput.Nodup

theorem empty_listed (path : String) (file : Option (List UInt8)) :
    Listed (empty path file) where
  same addr := by
    refine iff_of_false List.not_mem_nil ?_
    exact Finmap.notMem_empty
  nodup := List.nodup_nil

theorem Listed.keys_eq (hs : Listed s) :
    s.Outputs.links.keys = s.store.GetOutput.toFinset := by
  ext addr
  rw [Finmap.mem_keys, List.mem_toFinset]
  exact (hs.same addr).symm

/-- A list without duplicates that holds only the empty address is the list
that the store cannot hold. -/
theorem eq_singleton_of_toFinset {arr : List (List UInt8)}
    (hnodup : arr.Nodup) (heq : arr.toFinset = {[]}) : arr = [[]] := by
  have hlength : arr.length = 1 := by
    rw [← List.toFinset_card_of_nodup hnodup, heq]
    rfl
  obtain ⟨addr, rfl⟩ := List.length_eq_one_iff.mp hlength
  rw [List.toFinset_cons, List.toFinset_nil, insert_empty_eq,
    Finset.singleton_inj] at heq
  rw [heq]

theorem Listed.keys_ne (hs : Listed s) : s.Outputs.links.keys ≠ {[]} := by
  rw [hs.keys_eq]
  intro heq
  exact Store.GetOutput_ne_empty_address
    (eq_singleton_of_toFinset hs.nodup heq)

/-! ## Additions -/

theorem Add_dialled (o : OutputManager) (addr : List UInt8) :
    (o.Add addr none).2.links.keys = insert addr o.links.keys := by
  ext other
  rw [Finmap.mem_keys, Finset.mem_insert, Finmap.mem_keys]
  exact Finmap.mem_insert

/-- A list with an address that it did not have yet. -/
theorem listed_append {o : OutputManager} {file : Option (List UInt8)}
    {addr : List UInt8} (hs : Listed s) (hnew : addr ∉ s.store.GetOutput)
    (hcomma : comma ∉ addr)
    (hkeys : o.links.keys = insert addr s.Outputs.links.keys)
    (hne : o.links.keys ≠ {[]}) :
    Listed ⟨s.store.withOutputs (s.store.GetOutput ++ [addr]) file, o⟩ := by
  have hnodup : (s.store.GetOutput ++ [addr]).Nodup :=
    List.nodup_append.mpr ⟨hs.nodup, List.nodup_singleton addr,
      fun a ha b hb => by
        rintro rfl
        rw [List.mem_singleton.mp hb] at ha
        exact hnew ha⟩
  have hset : o.links.keys = (s.store.GetOutput ++ [addr]).toFinset := by
    rw [hkeys, hs.keys_eq]
    ext other
    simp
  have hout : (s.store.withOutputs (s.store.GetOutput ++ [addr])
      file).GetOutput = s.store.GetOutput ++ [addr] := by
    apply Store.GetOutput_withOutputs
    · intro value hvalue
      rcases List.mem_append.mp hvalue with hold | hlast
      · exact Store.comma_notMem_of_mem_GetOutput hold
      · rwa [List.mem_singleton.mp hlast]
    · intro heq
      rw [hset, heq] at hne
      exact hne rfl
  constructor
  · intro other
    rw [hout, ← Finmap.mem_keys, hset, List.mem_toFinset]
  · rwa [hout]

theorem outResponse_add (hmethod : post.obj.Method ≠ deleteMethod)
    (s : Server) :
    ∃ store,
      outResponse post s =
        (.ok (answer (s.Outputs.Add post.obj.Address post.dialErr).1),
          ⟨store, (s.Outputs.Add post.obj.Address post.dialErr).2⟩) ∧
      (post.obj.Address ∈ s.store.GetOutput → store = s.store) ∧
      (post.obj.Address ∉ s.store.GetOutput →
        ∃ file, store = s.store.withOutputs
          (s.store.GetOutput ++ [post.obj.Address]) file) := by
  by_cases hmem : post.obj.Address ∈ s.store.GetOutput
  · have hset := Store.SetOutput_of_mem .none post.order hmem
    refine ⟨s.store, ?_, fun _ => rfl, fun hnot => absurd hmem hnot⟩
    simp only [outResponse, hmethod, if_false, hset]
  · obtain ⟨file, hset⟩ := Store.SetOutput_of_notMem post.order hmem
    refine ⟨_, ?_, fun hin => absurd hin hmem, fun _ => ⟨file, rfl⟩⟩
    simp only [outResponse, hmethod, if_false, hset]

/-- An empty address that is the only one is lost from the list. -/
theorem Listed.getOutput_of_none (hs : Listed s)
    (hnone : s.Outputs.links.keys = ∅) (haddr : post.obj.Address = [])
    {store : Store}
    (hnew : post.obj.Address ∉ s.store.GetOutput →
      ∃ file, store = s.store.withOutputs
        (s.store.GetOutput ++ [post.obj.Address]) file) :
    s.store.GetOutput = [] ∧ store.GetOutput = [] := by
  have hnil : s.store.GetOutput = [] := by
    rw [hs.keys_eq] at hnone
    exact List.toFinset_eq_empty_iff _ |>.mp hnone
  have hmem : post.obj.Address ∉ s.store.GetOutput := by
    rw [hnil]
    exact List.not_mem_nil
  obtain ⟨file, rfl⟩ := hnew hmem
  rw [hnil, haddr, List.nil_append, Store.GetOutput_withOutputs_empty]
  exact ⟨rfl, rfl⟩

/-- A new address gets a link.  The list takes it as it is, unless it has a
comma or is empty and the first. -/
theorem dialled_iff (hs : Listed s)
    (hmethod : post.obj.Method ≠ deleteMethod) (hdial : post.dialErr = none)
    (hnext : (outResponse post s).2 = next) :
    (Accepted s post → Listed next) ∧
      (Consistent s post next ↔ Accepted s post) := by
  obtain ⟨store, hresponse, hold, hnew⟩ := outResponse_add hmethod s
  rw [hdial] at hresponse
  rw [hresponse] at hnext
  subst hnext
  have hkeys := Add_dialled s.Outputs post.obj.Address
  have haccepted : Accepted s post ↔ comma ∉ post.obj.Address ∧
      insert post.obj.Address s.Outputs.links.keys ≠ {[]} := by
    simp only [Accepted, hmethod, if_false, hdial]
  have hlisted : Accepted s post →
      Listed ⟨store, (s.Outputs.Add post.obj.Address none).2⟩ := by
    rw [haccepted]
    rintro ⟨hcomma, hne⟩
    by_cases hmem : post.obj.Address ∈ s.store.GetOutput
    · have hsame : insert post.obj.Address s.Outputs.links.keys =
          s.Outputs.links.keys := by
        rw [hs.keys_eq]
        exact Finset.insert_eq_self.mpr (List.mem_toFinset.mpr hmem)
      rw [hold hmem]
      refine ⟨fun addr => ?_, hs.nodup⟩
      rw [hs.same addr, ← Finmap.mem_keys, ← Finmap.mem_keys, hkeys, hsame]
    · obtain ⟨file, rfl⟩ := hnew hmem
      exact listed_append hs hmem hcomma hkeys (by rwa [hkeys])
  refine ⟨hlisted, ?_, ?_⟩
  · rintro ⟨hsame, -⟩
    have hlinked : post.obj.Address ∈ store.GetOutput := by
      apply (hsame post.obj.Address).mpr
      rw [← Finmap.mem_keys]
      exact hkeys ▸ Finset.mem_insert_self _ _
    have hcomma := Store.comma_notMem_of_mem_GetOutput hlinked
    rw [haccepted]
    refine ⟨hcomma, fun heq => ?_⟩
    -- The only address would be the empty one, and the list loses it.
    have haddr : post.obj.Address = [] := by
      have hin := Finset.mem_insert_self post.obj.Address
        s.Outputs.links.keys
      rw [heq] at hin
      exact Finset.mem_singleton.mp hin
    have hsub : s.Outputs.links.keys ⊆ {[]} :=
      heq ▸ Finset.subset_insert _ _
    have hnone : s.Outputs.links.keys = ∅ :=
      (Finset.subset_singleton_iff.mp hsub).resolve_right hs.keys_ne
    rw [(hs.getOutput_of_none hnone haddr hnew).2] at hlinked
    cases hlinked
  · intro haccept
    refine ⟨(hlisted haccept).same, answer none, ?_, ?_⟩
    · rw [hresponse]
      rfl
    · intro herror
      exact absurd herror (by decide)

/-- Without a connection there is no link, so the list must stay too. -/
theorem notDialled_iff {err : List UInt8} (hs : Listed s)
    (hmethod : post.obj.Method ≠ deleteMethod)
    (hdial : post.dialErr = some err)
    (hnext : (outResponse post s).2 = next) :
    (Accepted s post → Listed next) ∧
      (Consistent s post next ↔ Accepted s post) := by
  obtain ⟨store, hresponse, hold, hnew⟩ := outResponse_add hmethod s
  rw [hdial] at hresponse
  rw [hresponse] at hnext
  subst hnext
  have haccepted : Accepted s post ↔
      post.obj.Address ∈ s.Outputs.links ∨
        post.obj.Address = [] ∧ s.Outputs.links.keys = ∅ := by
    simp only [Accepted, hmethod, if_false, hdial, Finmap.mem_keys]
  have hout : Accepted s post → store.GetOutput = s.store.GetOutput := by
    rw [haccepted]
    rintro (hlink | ⟨haddr, hnone⟩)
    · rw [hold ((hs.same _).mpr hlink)]
    · obtain ⟨hbefore, hafter⟩ := hs.getOutput_of_none hnone haddr hnew
      rw [hafter, hbefore]
  have hlisted : Accepted s post →
      Listed ⟨store, (s.Outputs.Add post.obj.Address (some err)).2⟩ := by
    intro haccept
    constructor
    · intro addr
      exact (hout haccept).symm ▸ hs.same addr
    · exact (hout haccept).symm ▸ hs.nodup
  refine ⟨hlisted, ?_, ?_⟩
  · rintro ⟨-, res, hres, herror⟩
    rw [hresponse] at hres
    have hsame : store.GetOutput = s.store.GetOutput := by
      refine (herror ?_).1
      rw [← Except.ok.inj hres]
      rfl
    rw [haccepted]
    by_cases hmem : post.obj.Address ∈ s.store.GetOutput
    · exact Or.inl ((hs.same _).mp hmem)
    · obtain ⟨file, rfl⟩ := hnew hmem
      have htext := congrArg Store.joinOutputs hsame
      rw [Store.joinOutputs_GetOutput, Store.Get_withOutputs] at htext
      have hempty : ¬ (s.store.GetOutput ≠ [] ∨ post.obj.Address ≠ []) :=
        fun hne => Store.joinOutputs_append_ne hne htext
      rw [not_or, not_not, not_not] at hempty
      refine Or.inr ⟨hempty.2, ?_⟩
      rw [hs.keys_eq, hempty.1]
      rfl
  · intro haccept
    refine ⟨(hlisted haccept).same, answer (some err), ?_, fun _ => ?_⟩
    · rw [hresponse]
      rfl
    · exact ⟨hout haccept, rfl⟩

/-! ## Removals -/

theorem Remove_keys (o : OutputManager) (addr : List UInt8) :
    (o.Remove addr).2.links.keys = o.links.keys.erase addr := by
  unfold OutputManager.Remove
  cases hitem : o.links.lookup addr with
  | some item => exact Finmap.keys_erase addr o.links
  | none =>
      refine (Finset.erase_eq_of_notMem ?_).symm
      rw [Finmap.mem_keys]
      exact Finmap.lookup_eq_none.mp hitem

theorem Remove_error {o : OutputManager} {addr err : List UInt8}
    (herr : (o.Remove addr).1 = some err) :
    addr ∉ o.links ∧ (o.Remove addr).2 = o := by
  unfold OutputManager.Remove at herr ⊢
  cases hitem : o.links.lookup addr with
  | some item =>
      rw [hitem] at herr
      cases herr
  | none => exact ⟨Finmap.lookup_eq_none.mp hitem, rfl⟩

/-- A panic comes before the link is removed. -/
theorem delete_keys_subset (hmethod : post.obj.Method = deleteMethod)
    (s : Server) :
    (outResponse post s).2.Outputs.links.keys ⊆ s.Outputs.links.keys := by
  simp only [outResponse, hmethod, if_true]
  rcases Store.DelOutput .none post.order post.obj.Address s.store with
    ⟨_ | _, store⟩
  · exact Finset.Subset.refl _
  · change (s.Outputs.Remove post.obj.Address).2.links.keys ⊆ _
    rw [Remove_keys]
    exact Finset.erase_subset _ _

/-- `arr` is what is left of the list.  Its text is lost if there is only the
empty address in it. -/
theorem outResponse_delete (hs : Listed s)
    (hmethod : post.obj.Method = deleteMethod) :
    ∃ store arr,
      outResponse post s =
        (.ok (answer (s.Outputs.Remove post.obj.Address).1),
          ⟨store, (s.Outputs.Remove post.obj.Address).2⟩) ∧
      arr.Perm (s.store.GetOutput.erase post.obj.Address) ∧
      (post.obj.Address ∉ s.store.GetOutput → arr = s.store.GetOutput) ∧
      store.GetOutput = if arr = [[]] then [] else arr := by
  by_cases hnil : s.store.GetOutput = []
  · have hdel := Store.DelOutput_of_nil .none post.order post.obj.Address
      hnil
    refine ⟨s.store, [], ?_, ?_, fun _ => hnil.symm, ?_⟩
    · simp only [outResponse, hmethod, if_true, hdel]
    · rw [hnil]
      exact List.Perm.refl _
    · rw [hnil, if_neg (List.cons_ne_nil [] []).symm]
  · obtain ⟨arr, file, hdel, hperm, hsame⟩ :=
      Store.DelOutput_of_nodup post.order post.obj.Address hnil
        hs.nodup
    refine ⟨s.store.withOutputs arr file, arr, ?_, hperm, hsame, ?_⟩
    · simp only [outResponse, hmethod, if_true, hdel]
    · by_cases hone : arr = [[]]
      · rw [if_pos hone, hone]
        exact Store.GetOutput_withOutputs_empty
      · rw [if_neg hone]
        refine Store.GetOutput_withOutputs (fun value hvalue => ?_) hone
        exact Store.comma_notMem_of_mem_GetOutput
          (List.mem_of_mem_erase (hperm.mem_iff.mp hvalue))

theorem delete_iff (hs : Listed s)
    (hmethod : post.obj.Method = deleteMethod)
    (hnext : (outResponse post s).2 = next) :
    (Accepted s post → Listed next) ∧
      (Consistent s post next ↔ Accepted s post) := by
  obtain ⟨store, arr, hresponse, hperm, hsame, hout⟩ :=
    outResponse_delete hs hmethod
  rw [hresponse] at hnext
  subst hnext
  have hnodup : arr.Nodup :=
    hperm.nodup_iff.mpr (hs.nodup.erase post.obj.Address)
  have hkeys : (s.Outputs.Remove post.obj.Address).2.links.keys =
      arr.toFinset := by
    rw [Remove_keys, hs.keys_eq]
    ext addr
    rw [Finset.mem_erase, List.mem_toFinset, List.mem_toFinset,
      hperm.mem_iff, hs.nodup.mem_erase_iff]
  have haccepted : Accepted s post ↔ arr ≠ [[]] := by
    simp only [Accepted, hmethod, if_true]
    rw [← Remove_keys, hkeys, not_iff_not]
    refine ⟨eq_singleton_of_toFinset hnodup, ?_⟩
    rintro rfl
    rfl
  have hlisted : Accepted s post →
      Listed ⟨store, (s.Outputs.Remove post.obj.Address).2⟩ := by
    rw [haccepted]
    intro hne
    rw [if_neg hne] at hout
    constructor
    · intro addr
      rw [hout, ← Finmap.mem_keys, hkeys, List.mem_toFinset]
    · rwa [hout]
  refine ⟨hlisted, ?_, ?_⟩
  · rintro ⟨hboth, -⟩
    rw [haccepted]
    intro hone
    rw [if_pos hone] at hout
    have hin : ([] : List UInt8) ∈ store.GetOutput := by
      apply (hboth []).mpr
      rw [← Finmap.mem_keys, hkeys, hone]
      exact Finset.mem_singleton_self _
    rw [hout] at hin
    cases hin
  · intro haccept
    refine ⟨(hlisted haccept).same,
      answer (s.Outputs.Remove post.obj.Address).1, ?_, ?_⟩
    · rw [hresponse]
    · intro herror
      cases herr : (s.Outputs.Remove post.obj.Address).1 with
      | none =>
          rw [herr] at herror
          exact absurd herror (by decide)
      | some err =>
          obtain ⟨hlinks, hkept⟩ := Remove_error herr
          have hmem : post.obj.Address ∉ s.store.GetOutput :=
            fun hin => hlinks ((hs.same _).mp hin)
          rw [if_neg (haccepted.mp haccept), hsame hmem] at hout
          exact ⟨hout, by rw [hkept]⟩

theorem response_iff (hs : Listed s) (hstep : step s post = some next) :
    (Accepted s post → Listed next) ∧
      (Consistent s post next ↔ Accepted s post) := by
  have hnext := Option.some.inj hstep
  by_cases hmethod : post.obj.Method = deleteMethod
  · exact delete_iff hs hmethod hnext
  · cases hdial : post.dialErr with
    | none => exact dialled_iff hs hmethod hdial hnext
    | some err => exact notDialled_iff hs hmethod hdial hnext

/-! ## Starts -/

section

variable {e : List UInt8} {fuel n : ℕ}

theorem addOutput_of_dialled {dial : ℕ → Option (List UInt8)} {k : ℕ}
    (hdial : dial (n + k) = none) (hfuel : k < fuel) (o : OutputManager) :
    ∃ o', addOutput e dial fuel n o = some o' := by
  induction k generalizing n fuel with
  | zero =>
      cases fuel with
      | zero => exact absurd hfuel (lt_irrefl 0)
      | succ fuel =>
          rw [Nat.add_zero] at hdial
          rw [addOutput, hdial]
          exact ⟨_, rfl⟩
  | succ k ih =>
      cases fuel with
      | zero => exact absurd hfuel (Nat.not_lt_zero _)
      | succ fuel =>
          rw [addOutput]
          cases hfirst : dial n with
          | none => exact ⟨_, rfl⟩
          | some err =>
              refine ih (n := n + 1) ?_ (by omega)
              rw [← hdial]
              congr 1
              omega

theorem addOutputs_of_dialled
    {dial : List UInt8 → ℕ → Option (List UInt8)}
    {outputs : List (List UInt8)}
    (hdial : ∀ e ∈ outputs, ∃ k, k < fuel ∧ dial e k = none)
    (o : OutputManager) : ∃ o', addOutputs dial fuel outputs o = some o' := by
  induction outputs generalizing o with
  | nil => exact ⟨o, rfl⟩
  | cons e outputs ih =>
      obtain ⟨k, hfuel, hk⟩ := hdial e List.mem_cons_self
      have hstart : dial e (0 + k) = none := by rwa [Nat.zero_add]
      obtain ⟨middle, hmiddle⟩ := addOutput_of_dialled (e := e) hstart hfuel o
      rw [addOutputs, List.foldlM_cons, hmiddle]
      exact ih (fun e he => hdial e (List.mem_cons_of_mem _ he)) middle

end

theorem starts_of_dialled {dial : List UInt8 → ℕ → Option (List UInt8)}
    (hdial : ∀ e ∈ s.store.GetOutput, ∃ k, dial e k = none) :
    Starts dial s := by
  choose! attempt hattempt using hdial
  obtain ⟨fuel, hfuel⟩ :=
    (s.store.GetOutput.map attempt).toFinset.exists_nat_subset_range
  refine ⟨fuel, ?_⟩
  apply addOutputs_of_dialled
  intro e he
  refine ⟨attempt e, ?_, hattempt e he⟩
  exact Finset.mem_range.mp (hfuel (List.mem_toFinset.mpr
    (List.mem_map_of_mem he)))

theorem linked_was_dialled {path : String} {file : Option (List UInt8)}
    {posts : List OutputPost} (hrun : Run step (empty path file) posts s)
    {addr : List UInt8} (haddr : addr ∈ s.Outputs.links) :
    ∃ post ∈ posts, post.Dials addr := by
  induction hrun with
  | nil => exact absurd haddr Finmap.notMem_empty
  | @snoc posts middle next post _ _ hstep ih =>
      have hearlier : addr ∈ middle.Outputs.links →
          ∃ first ∈ posts ++ [post], first.Dials addr := by
        intro hold
        obtain ⟨first, hfirst, hdials⟩ := ih hold
        exact ⟨first, List.mem_append_left _ hfirst, hdials⟩
      have hnext := Option.some.inj hstep
      by_cases hmethod : post.obj.Method = deleteMethod
      · apply hearlier
        rw [← hnext, ← Finmap.mem_keys] at haddr
        exact Finmap.mem_keys.mp (delete_keys_subset hmethod middle haddr)
      · obtain ⟨store, hresponse, -⟩ := outResponse_add hmethod middle
        rw [hresponse] at hnext
        subst hnext
        cases hdial : post.dialErr with
        | some err =>
            rw [hdial] at haddr
            exact hearlier haddr
        | none =>
            rw [hdial, ← Finmap.mem_keys, Add_dialled, Finset.mem_insert]
              at haddr
            rcases haddr with rfl | hold
            · exact ⟨post, List.mem_append_right _ (List.mem_singleton_self _),
                hmethod, rfl, hdial⟩
            · exact hearlier (Finmap.mem_keys.mp hold)

/-- The two lists agree after all requests of a run exactly if each of them
is accepted, and then a start gets past the addresses. -/
theorem accepted_iff_consistent {path : String}
    {file : Option (List UInt8)} {posts : List OutputPost}
    (hrun : Run step (empty path file) posts s) :
    GuardedRun step Accepted (empty path file) posts s ↔
      EveryStep step Consistent (empty path file) posts ∧
        Restarts posts s := by
  have hkeep : ∀ s post next, Listed s → Accepted s post →
      step s post = some next → Listed next :=
    fun s post next hs haccept hstep => (response_iff hs hstep).1 haccept
  have hgood : ∀ s post next, Listed s → step s post = some next →
      (Consistent s post next ↔ Accepted s post) :=
    fun s post next hs hstep => (response_iff hs hstep).2
  have hsteps := GuardedRun.iff_everyStep hkeep hgood
    (empty_listed path file) hrun
  constructor
  · intro hguarded
    refine ⟨hsteps.mp hguarded, fun dial hdial => ?_⟩
    have hs := GuardedRun.invariant hkeep (empty_listed path file) hguarded
    apply starts_of_dialled
    intro e he
    exact hdial e (linked_was_dialled hrun ((hs.same e).mp he))
  · rintro ⟨hevery, -⟩
    exact hsteps.mpr hevery

def postAdd (order : RangeOrder) (addr : List UInt8)
    (dialErr : Option (List UInt8)) : OutputPost :=
  ⟨⟨addr, Pem.ascii "add"⟩, dialErr, order⟩

theorem accepted_iff_consistent_add :
    ∃ post s, Run step (empty "" (some [])) [post] s ∧
      (GuardedRun step Accepted (empty "" (some [])) [post] s ↔
        EveryStep step Consistent (empty "" (some [])) [post] ∧
          Restarts [post] s) := by
  obtain ⟨order⟩ := rangeOrder_exists
  let post := postAdd order (Pem.ascii "127.0.0.1:14550") none
  have hrun : Run step (empty "" (some [])) [post]
      (outResponse post (empty "" (some []))).2 :=
    .snoc .nil trivial rfl
  exact ⟨post, _, hrun, accepted_iff_consistent hrun⟩

/-- An address without a port is stored all the same. -/
theorem undialled_is_stored :
    ¬ ∀ path file posts s, Run step (empty path file) posts s →
      EveryStep step Consistent (empty path file) posts := by
  intro hall
  obtain ⟨order⟩ := rangeOrder_exists
  let post := postAdd order (Pem.ascii "127.0.0.1")
    (some (Pem.ascii "missing port in address"))
  have hrun : Run step (empty "" (some [])) [post]
      (outResponse post (empty "" (some []))).2 :=
    .snoc .nil trivial rfl
  have hconsistent := hall _ _ _ _ hrun [] post _ _
    (List.prefix_refl _) .nil rfl
  have haccept := (response_iff (empty_listed "" (some [])) rfl).2.mp
    hconsistent
  have hadd : Pem.ascii "add" ≠ deleteMethod := by decide
  have hmethod : post.obj.Method ≠ deleteMethod := hadd
  have hdial : post.dialErr = some (Pem.ascii "missing port in address") :=
    rfl
  simp only [Accepted, hmethod, if_false, hdial] at haccept
  rcases haccept with hlinked | ⟨hempty, -⟩
  · cases hlinked
  · have haddr : Pem.ascii "127.0.0.1" ≠ [] := by decide
    exact haddr hempty

end DronesmithEngine.StatusServer
