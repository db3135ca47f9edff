import DronesmithEngine.Store
import Mathlib.Tactic

/-!
# The operations of the store

The rest of `cloudlink/store.go`: the list of outputs under one key, `Del`,
and what an operation leaves of the map when a call on the file fails.
-/

namespace DronesmithEngine.Cloudlink

open Go

def comma : UInt8 := 44

namespace Store

/-- Whether the key is there does not matter: an empty value is no list. -/
def GetOutput (s : Store) : List (List UInt8) :=
  let str := s.Get StoreKey.output.name
  if str ≠ [] then str.splitOn comma else []

def joinOutputs (arr : List (List UInt8)) : List UInt8 :=
  [comma].intercalate arr

def SetOutput (errs : FileErrors) (order : RangeOrder) (value : List UInt8) :
    Effect Store (Option String) := fun s =>
  let arr := s.GetOutput
  if value ∈ arr then (.ok none, s)
  else Set errs order StoreKey.output.name (joinOutputs (arr ++ [value])) s

/-- The loop of `DelOutput` from index `i` on.  It goes over the elements that
were there at its start, while `arr` gets shorter. -/
def removeLoop (name : List UInt8) :
    ℕ → List (List UInt8) → List (List UInt8) → Checked (List (List UInt8))
  | _, [], arr => .ok arr
  | i, v :: rest, arr =>
      if v = name then do
        let last ← index arr (arr.length - 1)
        let _ ← index arr i
        removeLoop name (i + 1) rest
          ((arr.set i last).take (arr.length - 1))
      else removeLoop name (i + 1) rest arr

def DelOutput (errs : FileErrors) (order : RangeOrder) (name : List UInt8) :
    Effect Store (Option String) := fun s =>
  let str := s.Get StoreKey.output.name
  if str ≠ [] then
    let arr := str.splitOn comma
    match removeLoop name 0 arr arr with
    | .error e => (.error e, s)
    | .ok arr => Set errs order StoreKey.output.name (joinOutputs arr) s
  else (.ok (some "Could not get output"), s)

def Del (errs : FileErrors) : Effect Store (Option String) := fun s =>
  match errs.createErr with
  | some err => (.ok (some err), { s with data := ∅ })
  | none => (.ok none, { s with data := ∅, file := some [] })

end Store

inductive StoreOp
  | Set (name value : List UInt8)
  | Del
  | Load
  | SetOutput (value : List UInt8)
  | DelOutput (name : List UInt8)

def StoreOp.run (errs : FileErrors) (order : RangeOrder) :
    StoreOp → Effect Store (Option String)
  | .Set name value => Store.Set errs order name value
  | .Del => Store.Del errs
  | .Load => Store.Load errs
  | .SetOutput value => Store.SetOutput errs order value
  | .DelOutput name => Store.DelOutput errs order name

/-! ## Errors that leave the map -/

/-- The operation does not panic, and an error leaves the map as it was. -/
def KeepsMap (x : Effect Store (Option String)) (s : Store) : Prop :=
  ∃ answer, (x s).1 = .ok answer ∧
    (answer ≠ none → (x s).2.data = s.data)

/-- The file is there and can be opened, or it can be created. -/
def CanOpen (errs : FileErrors) (file : Option (List UInt8)) : Prop :=
  (file ≠ none ∧ errs.openErr = none) ∨ errs.createErr = none

structure Writes (errs : FileErrors) (file : Option (List UInt8)) :
    Prop where
  opens : CanOpen errs file
  writes : errs.writeErr = none

instance (errs : FileErrors) (file : Option (List UInt8)) :
    Decidable (CanOpen errs file) :=
  inferInstanceAs (Decidable (_ ∨ _))

instance (errs : FileErrors) (file : Option (List UInt8)) :
    Decidable (Writes errs file) :=
  decidable_of_iff (CanOpen errs file ∧ errs.writeErr = none)
    ⟨fun ⟨hopens, hwrites⟩ => ⟨hopens, hwrites⟩,
      fun ⟨hopens, hwrites⟩ => ⟨hopens, hwrites⟩⟩

namespace Store

variable {errs : FileErrors} {order : RangeOrder} {s : Store}

theorem openForWriting_ok_iff {file : Option (List UInt8)} :
    (∃ content, openForWriting errs file = .ok content) ↔
      CanOpen errs file := by
  unfold CanOpen
  cases file with
  | none =>
      cases hcreate : errs.createErr with
      | none => simp [openForWriting, hcreate]
      | some err => simp [openForWriting, hcreate]
  | some content =>
      cases hopen : errs.openErr with
      | none => simp [openForWriting, hopen]
      | some err =>
          cases hcreate : errs.createErr with
          | none => simp [openForWriting, hopen, hcreate]
          | some err' => simp [openForWriting, hopen, hcreate]

/-- Taking a value back leaves the map only when there was none before. -/
theorem erase_insert_eq_iff {data : TextMap} {name value : List UInt8} :
    (data.insert name value).erase name = data ↔ data.lookup name = none := by
  constructor
  · intro heq
    rw [← heq]
    exact Finmap.lookup_erase name _
  · intro hnone
    apply Finmap.ext_lookup
    intro other
    by_cases hother : other = name
    · rw [hother, Finmap.lookup_erase, hnone]
    · rw [Finmap.lookup_erase_ne hother,
        Finmap.lookup_insert_of_ne data hother]

theorem Set_keepsMap_iff {name value : List UInt8} :
    KeepsMap (Set errs order name value) s ↔
      (CanOpen errs s.file → errs.writeErr ≠ none →
        s.data.lookup name = none) := by
  unfold KeepsMap Set
  cases hopen : openForWriting errs s.file with
  | error err =>
      have hnot : ¬ CanOpen errs s.file := by
        rw [← openForWriting_ok_iff, hopen]
        rintro ⟨content, hok⟩
        cases hok
      exact iff_of_true ⟨some err, rfl, fun _ => rfl⟩
        (fun hcan => absurd hcan hnot)
  | ok content =>
      have hcan : CanOpen errs s.file :=
        openForWriting_ok_iff.mp ⟨content, hopen⟩
      cases hwrite : errs.writeErr with
      | none =>
          exact iff_of_true ⟨none, rfl, fun hne => absurd rfl hne⟩
            (fun _ hne => absurd rfl hne)
      | some failed =>
          obtain ⟨n, err⟩ := failed
          constructor
          · rintro ⟨answer, hok, hkeeps⟩ _ _
            cases hok
            exact erase_insert_eq_iff.mp (hkeeps (Option.some_ne_none err))
          · intro hnone
            refine ⟨some err, rfl, fun _ => ?_⟩
            exact erase_insert_eq_iff.mpr
              (hnone hcan (Option.some_ne_none (n, err)))

theorem Del_keepsMap_iff :
    KeepsMap (Del errs) s ↔ (errs.createErr ≠ none → s.data = ∅) := by
  unfold KeepsMap Del
  cases hcreate : errs.createErr with
  | none =>
      exact iff_of_true ⟨none, rfl, fun hne => absurd rfl hne⟩
        (fun hne => absurd rfl hne)
  | some err =>
      constructor
      · rintro ⟨answer, hok, hkeeps⟩ _
        cases hok
        exact (hkeeps (Option.some_ne_none err)).symm
      · intro hempty
        exact ⟨some err, rfl, fun _ =>
          (hempty (Option.some_ne_none err)).symm⟩

/-- The buffer is read and holds something that may not be a block. -/
def Reads (errs : FileErrors) (file : List UInt8) : Prop :=
  errs.openErr = none ∧ errs.readErr = none ∧ file ≠ []

theorem Load_keepsMap_iff :
    KeepsMap (Load errs) s ↔
      ∀ file, s.file = some file → Reads errs file →
        Pem.Decode (buffer file) ≠ none := by
  cases hfile : s.file with
  | none =>
      have hload : Load errs s = (.ok (some
          ("open " ++ s.path ++ ": no such file or directory")), s) := by
        simp only [Load, hfile]
      rw [KeepsMap, hload]
      refine iff_of_true ⟨_, rfl, fun _ => rfl⟩ ?_
      intro file hnone
      cases hnone
  | some file =>
      have hothers : (∀ other, some file = some other → Reads errs other →
          Pem.Decode (buffer other) ≠ none) ↔
            (Reads errs file → Pem.Decode (buffer file) ≠ none) := by
        simp
      rw [hothers]
      by_cases hreads : Reads errs file
      · obtain ⟨hopen, hread, hfull⟩ := hreads
        cases hdecode : Pem.Decode (buffer file) with
        | none =>
            have hload : Load errs s = (.error .nilDereference, s) := by
              simp only [Load, hfile, hopen, hread, if_neg hfull, hdecode]
            rw [KeepsMap, hload]
            apply iff_of_false
            · rintro ⟨answer, hok, -⟩
              cases hok
            · exact fun hall => hall ⟨hopen, hread, hfull⟩ rfl
        | some blk =>
            have hload : (Load errs s).1 = .ok none := by
              simp only [Load, hfile, hopen, hread, if_neg hfull, hdecode]
            exact iff_of_true
              ⟨none, hload, fun hne => absurd rfl hne⟩
              (fun _ => Option.some_ne_none blk)
      · obtain ⟨err, hload⟩ : ∃ err, Load errs s = (.ok (some err), s) := by
          cases hopen : errs.openErr with
          | some err => exact ⟨err, by simp only [Load, hfile, hopen]⟩
          | none =>
              cases hread : errs.readErr with
              | some err => exact ⟨err, by simp only [Load, hfile, hopen, hread]⟩
              | none =>
                  have hempty : file = [] := by
                    by_contra hfull
                    exact hreads ⟨hopen, hread, hfull⟩
                  exact ⟨"EOF", by
                    simp only [Load, hfile, hopen, hread, if_pos hempty]⟩
        rw [KeepsMap, hload]
        exact iff_of_true ⟨some err, rfl, fun _ => rfl⟩
          (fun hr => absurd hr hreads)

theorem SetOutput_keepsMap_iff {value : List UInt8} :
    KeepsMap (SetOutput errs order value) s ↔
      (value ∉ s.GetOutput → CanOpen errs s.file → errs.writeErr ≠ none →
        s.data.lookup StoreKey.output.name = none) := by
  by_cases hfound : value ∈ s.GetOutput
  · have hsame : SetOutput errs order value s = (.ok none, s) :=
      if_pos hfound
    refine iff_of_true ⟨none, ?_, fun hne => absurd rfl hne⟩
      (fun hnot => absurd hfound hnot)
    rw [hsame]
  · have hset : SetOutput errs order value s =
        Set errs order StoreKey.output.name
          (joinOutputs (s.GetOutput ++ [value])) s := if_neg hfound
    rw [KeepsMap, hset]
    exact Set_keepsMap_iff.trans ⟨fun h _ => h, fun h => h hfound⟩

/-- Every occurrence comes before the end that the ones before it leave. -/
def Removable (name : List UInt8) (arr : List (List UInt8)) : Prop :=
  ∀ i, arr[i]? = some name → i + (arr.take i).count name < arr.length

theorem removeLoop_ok_iff {name : List UInt8} {i : ℕ}
    {rest arr : List (List UInt8)} :
    (∃ arr', removeLoop name i rest arr = .ok arr') ↔
      ∀ j, rest[j]? = some name →
        i + j + (rest.take j).count name < arr.length := by
  induction rest generalizing i arr with
  | nil =>
      refine iff_of_true ⟨arr, rfl⟩ ?_
      intro j hnone
      cases hnone
  | cons v rest ih =>
      have hcases : (∀ j, (v :: rest)[j]? = some name →
          i + j + ((v :: rest).take j).count name < arr.length) ↔
            (v = name → i < arr.length) ∧
              ∀ j, rest[j]? = some name →
                i + (j + 1) + (v :: rest.take j).count name < arr.length := by
        constructor
        · intro hall
          refine ⟨fun hv => ?_, fun j => hall (j + 1)⟩
          have hfirst := hall 0 (congrArg some hv)
          simpa using hfirst
        · rintro ⟨hfirst, hothers⟩ j
          cases j with
          | zero =>
              intro hv
              simpa using hfirst (Option.some.inj hv)
          | succ j => exact hothers j
      rw [hcases]
      by_cases hv : v = name
      · subst hv
        rw [removeLoop, if_pos rfl]
        by_cases hin : i < arr.length
        · have hlast : arr.length - 1 < arr.length := by omega
          rw [index_of_getElem? (List.getElem?_eq_getElem hlast),
            index_of_getElem? (List.getElem?_eq_getElem hin)]
          refine ih.trans ?_
          rw [List.length_take, List.length_set]
          constructor
          · intro hall
            refine ⟨fun _ => hin, fun j hj => ?_⟩
            have hless := hall j hj
            rw [List.count_cons_self]
            omega
          · rintro ⟨-, hothers⟩ j hj
            have hless := hothers j hj
            rw [List.count_cons_self] at hless
            omega
        · have hout : index arr i = .error .indexOutOfRange := by
            rw [index, List.getElem?_eq_none (by omega)]
          apply iff_of_false
          · rintro ⟨arr', hok⟩
            cases hlast : index arr (arr.length - 1) with
            | error e => rw [hlast] at hok; cases hok
            | ok last => rw [hlast, hout] at hok; cases hok
          · exact fun hboth => hin (hboth.1 rfl)
      · rw [removeLoop, if_neg hv, ih]
        constructor
        · intro hall
          refine ⟨fun heq => absurd heq hv, fun j hj => ?_⟩
          have hless := hall j hj
          rw [List.count_cons_of_ne hv]
          omega
        · rintro ⟨-, hothers⟩ j hj
          have hless := hothers j hj
          rw [List.count_cons_of_ne hv] at hless
          omega

theorem removeLoop_start_iff {name : List UInt8}
    {arr : List (List UInt8)} :
    (∃ arr', removeLoop name 0 arr arr = .ok arr') ↔
      Removable name arr := by
  rw [removeLoop_ok_iff]
  simp only [Removable, Nat.zero_add]

/-- A key that has a value other than the empty one is in the map. -/
theorem lookup_ne_none {name : List UInt8} (hget : s.Get name ≠ []) :
    s.data.lookup name ≠ none := by
  intro hnone
  rw [Get, hnone] at hget
  exact hget rfl

theorem DelOutput_keepsMap_iff {name : List UInt8} :
    KeepsMap (DelOutput errs order name) s ↔
      (s.Get StoreKey.output.name ≠ [] →
        Removable name s.GetOutput ∧
          ¬ (CanOpen errs s.file ∧ errs.writeErr ≠ none)) := by
  by_cases hstr : s.Get StoreKey.output.name = []
  · have hsame : DelOutput errs order name s =
        (.ok (some "Could not get output"), s) := if_neg (not_not.mpr hstr)
    rw [KeepsMap, hsame]
    exact iff_of_true ⟨_, rfl, fun _ => rfl⟩
      (fun hne => absurd hstr hne)
  · have hout : s.GetOutput =
        (s.Get StoreKey.output.name).splitOn comma := if_pos hstr
    rw [hout, ← removeLoop_start_iff]
    cases hloop : removeLoop name 0
        ((s.Get StoreKey.output.name).splitOn comma)
        ((s.Get StoreKey.output.name).splitOn comma) with
    | error e =>
        apply iff_of_false
        · rintro ⟨answer, hok, -⟩
          simp only [DelOutput, ne_eq, hstr, not_false_iff, if_true, hloop]
            at hok
          cases hok
        · intro hall
          obtain ⟨⟨arr', hok⟩, -⟩ := hall hstr
          cases hok
    | ok arr =>
        have hset : DelOutput errs order name s =
            Set errs order StoreKey.output.name (joinOutputs arr) s := by
          simp only [DelOutput, ne_eq, hstr, not_false_iff, if_true, hloop]
        rw [KeepsMap, hset]
        refine Set_keepsMap_iff.trans ?_
        constructor
        · rintro hnone -
          exact ⟨⟨arr, rfl⟩, fun hboth =>
            lookup_ne_none hstr (hnone hboth.1 hboth.2)⟩
        · rintro hall hcan hwrite
          exact absurd ⟨hcan, hwrite⟩ (hall hstr).2

/-! ## The list of outputs -/

theorem joinOutputs_eq_nil_iff {arr : List (List UInt8)} :
    joinOutputs arr = [] ↔ arr = [] ∨ arr = [[]] := by
  cases arr with
  | nil => simp [joinOutputs]
  | cons v arr =>
      cases arr with
      | nil => simp [joinOutputs]
      | cons w arr => simp [joinOutputs, List.intercalate_cons_cons]

theorem comma_notMem_of_mem_GetOutput {value : List UInt8}
    (hvalue : value ∈ s.GetOutput) : comma ∉ value := by
  unfold GetOutput at hvalue
  by_cases hstr : s.Get StoreKey.output.name = []
  · rw [if_neg (not_not.mpr hstr)] at hvalue
    cases hvalue
  · rw [if_pos hstr] at hvalue
    exact Splitting.notMem_of_mem_splitOn hvalue

/-- The list with nothing but the empty address has an empty text. -/
theorem GetOutput_ne_empty_address : s.GetOutput ≠ [[]] := by
  unfold GetOutput
  by_cases hstr : s.Get StoreKey.output.name = []
  · rw [if_neg (not_not.mpr hstr)]
    exact (List.cons_ne_nil [] []).symm
  · rw [if_pos hstr]
    intro heq
    have htext : [comma].intercalate
        ((s.Get StoreKey.output.name).splitOn comma) =
          s.Get StoreKey.output.name := List.intercalate_splitOn comma
    rw [heq] at htext
    exact hstr htext.symm

theorem joinOutputs_GetOutput :
    joinOutputs s.GetOutput = s.Get StoreKey.output.name := by
  unfold GetOutput
  by_cases hstr : s.Get StoreKey.output.name = []
  · rw [if_neg (not_not.mpr hstr), hstr]
    rfl
  · rw [if_pos hstr]
    exact List.intercalate_splitOn comma

/-- The store after `Set` wrote a new list. -/
def withOutputs (arr : List (List UInt8)) (file : Option (List UInt8))
    (s : Store) : Store :=
  { s with
    data := s.data.insert StoreKey.output.name (joinOutputs arr)
    file := file }

theorem Get_withOutputs {arr : List (List UInt8)}
    {file : Option (List UInt8)} :
    (s.withOutputs arr file).Get StoreKey.output.name = joinOutputs arr := by
  simp only [Get, withOutputs, Finmap.lookup_insert, Option.getD_some]

theorem GetOutput_withOutputs {arr : List (List UInt8)}
    {file : Option (List UInt8)} (hcomma : ∀ value ∈ arr, comma ∉ value)
    (hne : arr ≠ [[]]) : (s.withOutputs arr file).GetOutput = arr := by
  unfold GetOutput
  rw [Get_withOutputs]
  cases arr with
  | nil => rfl
  | cons v arr =>
      have htext : joinOutputs (v :: arr) ≠ [] := by
        rw [Ne, joinOutputs_eq_nil_iff, not_or]
        exact ⟨List.cons_ne_nil v arr, hne⟩
      rw [if_pos htext]
      exact List.splitOn_intercalate comma hcomma (List.cons_ne_nil v arr)

theorem GetOutput_withOutputs_empty {file : Option (List UInt8)} :
    (s.withOutputs [[]] file).GetOutput = [] := by
  unfold GetOutput
  rw [Get_withOutputs]
  rfl

theorem Set_written (hwrites : Writes errs s.file) (order : RangeOrder)
    (arr : List (List UInt8)) :
    ∃ file, Set errs order StoreKey.output.name (joinOutputs arr) s =
      (.ok none, s.withOutputs arr file) := by
  obtain ⟨content, hopen⟩ := openForWriting_ok_iff.mpr hwrites.opens
  unfold Set
  rw [hopen, hwrites.writes]
  exact ⟨_, rfl⟩

theorem SetOutput_of_mem (errs : FileErrors) (order : RangeOrder)
    {value : List UInt8} (hmem : value ∈ s.GetOutput) :
    SetOutput errs order value s = (.ok none, s) := if_pos hmem

theorem SetOutput_written (hwrites : Writes errs s.file)
    (order : RangeOrder) {value : List UInt8} (hmem : value ∉ s.GetOutput) :
    ∃ file, SetOutput errs order value s =
      (.ok none, s.withOutputs (s.GetOutput ++ [value]) file) := by
  obtain ⟨file, hset⟩ := Set_written hwrites order (s.GetOutput ++ [value])
  exact ⟨file, (if_neg hmem).trans hset⟩

theorem SetOutput_of_notMem (order : RangeOrder) {value : List UInt8}
    (hmem : value ∉ s.GetOutput) :
    ∃ file, SetOutput .none order value s =
      (.ok none, s.withOutputs (s.GetOutput ++ [value]) file) :=
  SetOutput_written ⟨Or.inr rfl, rfl⟩ order hmem

/-- One more address gives another text, unless it is empty and the first. -/
theorem joinOutputs_append_ne {value : List UInt8}
    {arr : List (List UInt8)} (hne : arr ≠ [] ∨ value ≠ []) :
    joinOutputs (arr ++ [value]) ≠ joinOutputs arr := by
  cases arr with
  | nil =>
      intro heq
      have hvalue : value ≠ [] := hne.resolve_left (fun h => h rfl)
      rw [List.nil_append] at heq
      rcases joinOutputs_eq_nil_iff.mp heq with hnil | hone
      · cases hnil
      · exact hvalue (List.singleton_inj.mp hone)
  | cons v arr =>
      intro heq
      have hlength : ∀ v, (joinOutputs (v :: arr)).length <
          (joinOutputs (v :: arr ++ [value])).length := by
        clear heq hne
        induction arr with
        | nil =>
            intro v
            simp only [joinOutputs, List.cons_append, List.nil_append,
              List.intercalate_singleton, List.intercalate_cons_cons,
              List.length_append, List.length_singleton]
            omega
        | cons w arr ih =>
            intro v
            have hrest := ih w
            simp only [joinOutputs, List.cons_append,
              List.intercalate_cons_cons, List.length_append,
              List.length_singleton] at hrest ⊢
            omega
      have hless := hlength v
      rw [heq] at hless
      exact lt_irrefl _ hless

theorem removeLoop_of_notMem {name : List UInt8} {i : ℕ}
    {rest arr : List (List UInt8)} (hname : name ∉ rest) :
    removeLoop name i rest arr = .ok arr := by
  induction rest generalizing i with
  | nil => rfl
  | cons v rest ih =>
      rw [List.mem_cons, not_or] at hname
      rw [removeLoop, if_neg (Ne.symm hname.1)]
      exact ih hname.2

theorem removeLoop_append {name : List UInt8} {i : ℕ}
    {before rest arr : List (List UInt8)} (hname : name ∉ before) :
    removeLoop name i (before ++ rest) arr =
      removeLoop name (i + before.length) rest arr := by
  induction before generalizing i with
  | nil => rfl
  | cons v before ih =>
      rw [List.mem_cons, not_or] at hname
      rw [List.cons_append, removeLoop, if_neg (Ne.symm hname.1), ih hname.2,
        List.length_cons]
      congr 1
      omega

/-- The last element comes to the place of the one that goes. -/
theorem set_last_perm (name : List UInt8) (before after : List (List UInt8)) :
    ∃ last, index (before ++ name :: after)
        ((before ++ name :: after).length - 1) = .ok last ∧
      (((before ++ name :: after).set before.length last).take
        ((before ++ name :: after).length - 1)).Perm (before ++ after) := by
  rcases List.eq_nil_or_concat after with rfl | ⟨init, last, rfl⟩
  · refine ⟨name, index_of_getElem? ?_, ?_⟩
    · simp
    · simp
  · refine ⟨last, index_of_getElem? ?_, ?_⟩
    · simp
    · rw [List.set_append_right _ _ le_rfl, Nat.sub_self, List.set_cons_zero]
      have htake : (before ++ last :: (init ++ [last])).take
          ((before ++ name :: (init ++ [last])).length - 1) =
            before ++ last :: init := by
        have hsplit : before ++ last :: (init ++ [last]) =
            (before ++ last :: init) ++ [last] := by simp
        rw [hsplit, List.take_left']
        simp
      rw [List.concat_eq_append, htake]
      exact List.Perm.append_left before
        (List.perm_append_singleton last init).symm

theorem removeLoop_nodup (name : List UInt8) {arr : List (List UInt8)}
    (hnodup : arr.Nodup) :
    ∃ arr', removeLoop name 0 arr arr = .ok arr' ∧
      arr'.Perm (arr.erase name) ∧ (name ∉ arr → arr' = arr) := by
  by_cases hmem : name ∈ arr
  · obtain ⟨before, after, rfl⟩ := List.append_of_mem hmem
    have hparts := List.nodup_append.mp hnodup
    have hbefore : name ∉ before := fun hin =>
      hparts.2.2 name hin name List.mem_cons_self rfl
    have hafter : name ∉ after := (List.nodup_cons.mp hparts.2.1).1
    obtain ⟨last, hlast, hperm⟩ := set_last_perm name before after
    have hloop : removeLoop name 0 (before ++ name :: after)
        (before ++ name :: after) =
          .ok (((before ++ name :: after).set before.length last).take
            ((before ++ name :: after).length - 1)) := by
      rw [removeLoop_append hbefore, removeLoop, if_pos rfl, hlast,
        Nat.zero_add, index_of_getElem? (x := name) (by simp)]
      exact removeLoop_of_notMem hafter
    refine ⟨_, hloop, ?_, fun hnot => absurd hmem hnot⟩
    rw [List.erase_append_right _ hbefore, List.erase_cons_head]
    exact hperm
  · refine ⟨arr, removeLoop_of_notMem hmem, ?_, fun _ => rfl⟩
    rw [List.erase_of_not_mem hmem]

theorem DelOutput_of_nil (errs : FileErrors) (order : RangeOrder)
    (name : List UInt8) (hnil : s.GetOutput = []) :
    DelOutput errs order name s =
      (.ok (some "Could not get output"), s) := by
  have hstr : s.Get StoreKey.output.name = [] := by
    rw [← joinOutputs_GetOutput, hnil]
    rfl
  exact if_neg (not_not.mpr hstr)

theorem DelOutput_written (hwrites : Writes errs s.file)
    (order : RangeOrder) (name : List UInt8) (hnil : s.GetOutput ≠ [])
    (hnodup : s.GetOutput.Nodup) :
    ∃ arr file, DelOutput errs order name s =
        (.ok none, s.withOutputs arr file) ∧
      arr.Perm (s.GetOutput.erase name) ∧
        (name ∉ s.GetOutput → arr = s.GetOutput) := by
  have hstr : s.Get StoreKey.output.name ≠ [] := by
    intro hempty
    exact hnil (if_neg (not_not.mpr hempty))
  have hout : (s.Get StoreKey.output.name).splitOn comma = s.GetOutput :=
    (if_pos hstr).symm
  obtain ⟨arr, hloop, hperm, hsame⟩ := removeLoop_nodup name hnodup
  obtain ⟨file, hset⟩ := Set_written hwrites order arr
  refine ⟨arr, file, ?_, hperm, hsame⟩
  simp only [DelOutput, ne_eq, hstr, not_false_iff, if_true, hout, hloop,
    hset]

theorem DelOutput_of_nodup (order : RangeOrder) (name : List UInt8)
    (hnil : s.GetOutput ≠ [])
    (hnodup : s.GetOutput.Nodup) :
    ∃ arr file, DelOutput .none order name s =
        (.ok none, s.withOutputs arr file) ∧
      arr.Perm (s.GetOutput.erase name) ∧
        (name ∉ s.GetOutput → arr = s.GetOutput) :=
  DelOutput_written ⟨Or.inr rfl, rfl⟩ order name hnil hnodup

end Store

/-- `Set` takes back a value that it could not write, `Del` and `Load` start
from an empty map, and `DelOutput` goes on over a list that gets shorter. -/
def Harmless (errs : FileErrors) (s : Store) : StoreOp → Prop
  | .Set name _ =>
      CanOpen errs s.file → errs.writeErr ≠ none → s.data.lookup name = none
  | .Del => errs.createErr ≠ none → s.data = ∅
  | .Load =>
      ∀ file, s.file = some file → Store.Reads errs file →
        Pem.Decode (Store.buffer file) ≠ none
  | .SetOutput value =>
      value ∉ s.GetOutput → CanOpen errs s.file → errs.writeErr ≠ none →
        s.data.lookup StoreKey.output.name = none
  | .DelOutput name =>
      s.Get StoreKey.output.name ≠ [] →
        Store.Removable name s.GetOutput ∧
          ¬ (CanOpen errs s.file ∧ errs.writeErr ≠ none)

theorem StoreOp.run_keepsMap_iff (errs : FileErrors) (order : RangeOrder)
    (s : Store) (op : StoreOp) :
    KeepsMap (op.run errs order) s ↔ Harmless errs s op := by
  cases op with
  | Set name value => exact Store.Set_keepsMap_iff
  | Del => exact Store.Del_keepsMap_iff
  | Load => exact Store.Load_keepsMap_iff
  | SetOutput value => exact Store.SetOutput_keepsMap_iff
  | DelOutput name => exact Store.DelOutput_keepsMap_iff

/-- The first step of the setup is stored, and the disk is full when the
second one is written: the step is gone from the map. -/
theorem StoreOp.Set_full_disk_forgets :
    ¬ ∀ errs order s op, KeepsMap (StoreOp.run errs order op) s := by
  intro hall
  obtain ⟨order⟩ := rangeOrder_exists
  let full : FileErrors :=
    { FileErrors.none with writeErr := some (0, "no space left on device") }
  let s : Store :=
    ⟨"/var/lib/lmon/.lmon",
      Finmap.singleton StoreKey.step.name (Pem.ascii "1"), some []⟩
  have hkeeps : KeepsMap
      (Store.Set full order StoreKey.step.name (Pem.ascii "2")) s :=
    hall full order s (.Set StoreKey.step.name (Pem.ascii "2"))
  have hnone := Store.Set_keepsMap_iff.mp hkeeps
    (Or.inl ⟨Option.some_ne_none [], rfl⟩)
    (Option.some_ne_none (0, "no space left on device"))
  rw [Finmap.lookup_singleton_eq] at hnone
  cases hnone

end DronesmithEngine.Cloudlink
