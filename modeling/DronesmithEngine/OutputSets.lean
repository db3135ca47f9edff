import DronesmithEngine.LabelledRuns
import DronesmithEngine.StoreOperations
import Mathlib.Tactic

/-!
# The outputs as a set

Calls of `SetOutput` and `DelOutput` on a store that is empty at first, each
with what the file system does meanwhile.  Beside the store runs the set of
the addresses that were set and not deleted afterwards.
-/

namespace DronesmithEngine.Cloudlink

open Go LabelledRuns

namespace OutputSets

inductive OutputOp
  | SetOutput (value : List UInt8)
  | DelOutput (name : List UInt8)
  deriving DecidableEq

structure OutputCall where
  op : OutputOp
  errs : FileErrors
  order : RangeOrder

def OutputCall.run (call : OutputCall) : Effect Store (Option String) :=
  match call.op with
  | .SetOutput value => Store.SetOutput call.errs call.order value
  | .DelOutput name => Store.DelOutput call.errs call.order name

/-- What a call should do to the set. -/
def OutputOp.apply (set : Finset (List UInt8)) :
    OutputOp → Finset (List UInt8)
  | .SetOutput value => insert value set
  | .DelOutput name => set.erase name

structure Tracked where
  store : Store
  set : Finset (List UInt8)

namespace Tracked

def start (path : String) (file : Option (List UInt8)) : Tracked where
  store := ⟨path, ∅, file⟩
  set := ∅

/-- A call whose write succeeds.  One that panics leaves the store as it is
then, and the program goes on. -/
def step (t : Tracked) (call : OutputCall) : Option Tracked :=
  if Writes call.errs t.store.file then
    some ⟨(call.run t.store).2, call.op.apply t.set⟩
  else none

structure Lists (t : Tracked) : Prop where
  nodup : t.store.GetOutput.Nodup
  mem_iff : ∀ addr, addr ∈ t.store.GetOutput ↔ addr ∈ t.set

/-- The call does not panic, and the list is that of the set afterwards. -/
structure Keeps (t : Tracked) (call : OutputCall) (next : Tracked) :
    Prop where
  returns : ∃ answer, (call.run t.store).1 = .ok answer
  lists : next.Lists

/-- A new address has no comma and is not empty when it is the first, and the
empty address is never left alone. -/
def Fits (t : Tracked) (call : OutputCall) : Prop :=
  match call.op with
  | .SetOutput value =>
      value ∉ t.set → comma ∉ value ∧ (value ≠ [] ∨ t.set ≠ ∅)
  | .DelOutput name => name ∈ t.set → t.set.erase name ≠ {[]}

/-! ## One call -/

theorem start_lists (path : String) (file : Option (List UInt8)) :
    (start path file).Lists where
  nodup := List.nodup_nil
  mem_iff addr := iff_of_false List.not_mem_nil (Finset.notMem_empty addr)

section

variable {t next : Tracked}

theorem step_eq_some {call : OutputCall} (hstep : step t call = some next) :
    Writes call.errs t.store.file ∧
      next = ⟨(call.run t.store).2, call.op.apply t.set⟩ := by
  unfold step at hstep
  by_cases hwrites : Writes call.errs t.store.file
  · rw [if_pos hwrites, Option.some.injEq] at hstep
    exact ⟨hwrites, hstep.symm⟩
  · rw [if_neg hwrites] at hstep
    cases hstep

theorem Lists.eq_nil_iff (hlists : t.Lists) :
    t.store.GetOutput = [] ↔ t.set = ∅ := by
  rw [List.eq_nil_iff_forall_not_mem, Finset.eq_empty_iff_forall_notMem]
  exact forall_congr' fun addr => not_congr (hlists.mem_iff addr)

/-- A list that `Set` wrote is read back with the same addresses, unless one
of them has a comma or the only one is empty. -/
theorem lists_withOutputs {s : Store} {arr : List (List UInt8)}
    {file : Option (List UInt8)} {set : Finset (List UInt8)}
    (hnodup : arr.Nodup) (hmem : ∀ addr, addr ∈ arr ↔ addr ∈ set) :
    (Tracked.mk (s.withOutputs arr file) set).Lists ↔
      (∀ addr ∈ arr, comma ∉ addr) ∧ arr ≠ [[]] := by
  constructor
  · intro hlists
    have hback : ∀ addr ∈ arr,
        addr ∈ (s.withOutputs arr file).GetOutput := fun addr haddr =>
      (hlists.mem_iff addr).mpr ((hmem addr).mp haddr)
    refine ⟨fun addr haddr =>
      Store.comma_notMem_of_mem_GetOutput (hback addr haddr), ?_⟩
    rintro rfl
    have hin := hback [] (List.mem_singleton_self [])
    rw [Store.GetOutput_withOutputs_empty] at hin
    cases hin
  · rintro ⟨hcomma, hne⟩
    have hout : (s.withOutputs arr file).GetOutput = arr :=
      Store.GetOutput_withOutputs hcomma hne
    constructor
    · simp only [hout]
      exact hnodup
    · intro addr
      simp only [hout]
      exact hmem addr

theorem keeps_iff_of_run {call : OutputCall} {answer : Option String}
    {s : Store} (hrun : call.run t.store = (.ok answer, s))
    (hstep : step t call = some next) :
    Keeps t call next ↔ (Tracked.mk s (call.op.apply t.set)).Lists := by
  obtain ⟨-, rfl⟩ := step_eq_some hstep
  rw [hrun]
  exact ⟨fun h => h.lists, fun h => ⟨⟨answer, congrArg Prod.fst hrun⟩, h⟩⟩

theorem setOutput_keeps_iff {value : List UInt8} {errs : FileErrors}
    {order : RangeOrder} (hlists : t.Lists)
    (hstep : step t ⟨.SetOutput value, errs, order⟩ = some next) :
    Keeps t ⟨.SetOutput value, errs, order⟩ next ↔
      (value ∉ t.set → comma ∉ value ∧ (value ≠ [] ∨ t.set ≠ ∅)) := by
  by_cases hmem : value ∈ t.store.GetOutput
  · have hset := (hlists.mem_iff value).mp hmem
    have hrun : (OutputCall.mk (.SetOutput value) errs order).run t.store =
        (.ok none, t.store) := Store.SetOutput_of_mem errs order hmem
    rw [keeps_iff_of_run hrun hstep]
    simp only [OutputOp.apply, Finset.insert_eq_of_mem hset]
    exact iff_of_true hlists (fun hnot => absurd hset hnot)
  · have hset : value ∉ t.set := fun hin =>
      hmem ((hlists.mem_iff value).mpr hin)
    have hnodup : (t.store.GetOutput ++ [value]).Nodup :=
      List.nodup_append.mpr ⟨hlists.nodup, List.nodup_singleton value,
        fun addr haddr other hother heq =>
          hmem (List.mem_singleton.mp hother ▸ heq ▸ haddr)⟩
    have hsame : ∀ addr, addr ∈ t.store.GetOutput ++ [value] ↔
        addr ∈ insert value t.set := by
      intro addr
      rw [List.mem_append, List.mem_singleton, hlists.mem_iff,
        Finset.mem_insert, or_comm]
    obtain ⟨hwrites, -⟩ := step_eq_some hstep
    obtain ⟨file, hrun⟩ :
        ∃ file, (OutputCall.mk (.SetOutput value) errs order).run t.store =
          (.ok none,
            t.store.withOutputs (t.store.GetOutput ++ [value]) file) :=
      Store.SetOutput_written hwrites order hmem
    have hcommas : (∀ addr ∈ t.store.GetOutput ++ [value], comma ∉ addr) ↔
        comma ∉ value := by
      rw [List.forall_mem_append, List.forall_mem_singleton]
      exact and_iff_right fun addr =>
        Store.comma_notMem_of_mem_GetOutput
    have halone : t.store.GetOutput ++ [value] ≠ [[]] ↔
        value ≠ [] ∨ t.set ≠ ∅ := by
      rw [Ne, Ne, Ne, ← hlists.eq_nil_iff, ← not_and_or, not_iff_not,
        List.append_eq_singleton_iff]
      simp [and_comm]
    rw [keeps_iff_of_run hrun hstep]
    refine (lists_withOutputs hnodup hsame).trans ?_
    rw [hcommas, halone]
    exact ⟨fun h _ => h, fun h => h hset⟩

theorem delOutput_keeps_iff {name : List UInt8} {errs : FileErrors}
    {order : RangeOrder} (hlists : t.Lists)
    (hstep : step t ⟨.DelOutput name, errs, order⟩ = some next) :
    Keeps t ⟨.DelOutput name, errs, order⟩ next ↔
      (name ∈ t.set → t.set.erase name ≠ {[]}) := by
  by_cases hnil : t.store.GetOutput = []
  · have hempty := hlists.eq_nil_iff.mp hnil
    have hrun : (OutputCall.mk (.DelOutput name) errs order).run t.store =
        (.ok (some "Could not get output"), t.store) :=
      Store.DelOutput_of_nil errs order name hnil
    have hname : name ∉ t.set := hempty ▸ Finset.notMem_empty name
    rw [keeps_iff_of_run hrun hstep]
    simp only [OutputOp.apply, Finset.erase_eq_of_notMem hname]
    exact iff_of_true hlists (fun hin => absurd hin hname)
  · obtain ⟨hwrites, -⟩ := step_eq_some hstep
    obtain ⟨arr, file, hrun, hperm, hsame⟩ :
        ∃ arr file, (OutputCall.mk (.DelOutput name) errs order).run t.store =
            (.ok none, t.store.withOutputs arr file) ∧
          arr.Perm (t.store.GetOutput.erase name) ∧
            (name ∉ t.store.GetOutput → arr = t.store.GetOutput) :=
      Store.DelOutput_written hwrites order name hnil hlists.nodup
    have hmem : ∀ addr, addr ∈ arr ↔ addr ∈ t.set.erase name := by
      intro addr
      rw [hperm.mem_iff, hlists.nodup.mem_erase_iff, hlists.mem_iff,
        Finset.mem_erase]
    have hcomma : ∀ addr ∈ arr, comma ∉ addr := fun addr haddr =>
      Store.comma_notMem_of_mem_GetOutput
        (List.mem_of_mem_erase (hperm.subset haddr))
    have hnodup := hperm.nodup_iff.mpr (hlists.nodup.erase name)
    have halone : arr = [[]] ↔ t.set.erase name = {[]} := by
      rw [← List.perm_singleton,
        List.perm_ext_iff_of_nodup hnodup (List.nodup_singleton _),
        Finset.ext_iff]
      simp only [hmem, List.mem_singleton, Finset.mem_singleton]
    rw [keeps_iff_of_run hrun hstep]
    refine (lists_withOutputs hnodup hmem).trans ?_
    rw [and_iff_right hcomma, Ne, halone]
    refine ⟨fun h _ => h, fun h => ?_⟩
    by_cases hin : name ∈ t.set
    · exact h hin
    · rw [← halone, hsame fun hin' => hin ((hlists.mem_iff name).mp hin')]
      exact Store.GetOutput_ne_empty_address

end

theorem keeps_iff_fits {t next : Tracked} {call : OutputCall}
    (hlists : t.Lists) (hstep : step t call = some next) :
    Keeps t call next ↔ Fits t call := by
  obtain ⟨op, errs, order⟩ := call
  cases op with
  | SetOutput value => exact setOutput_keeps_iff hlists hstep
  | DelOutput name => exact delOutput_keeps_iff hlists hstep

/-! ## Runs -/

/-- The address was set, and not deleted afterwards. -/
def SetLast (calls : List OutputCall) (addr : List UInt8) : Prop :=
  ∃ before after, calls.map OutputCall.op =
      before ++ .SetOutput addr :: after ∧ .DelOutput addr ∉ after

theorem setLast_concat_iff {calls : List OutputCall} {call : OutputCall}
    {addr : List UInt8} :
    SetLast (calls ++ [call]) addr ↔
      call.op = .SetOutput addr ∨
        SetLast calls addr ∧ call.op ≠ .DelOutput addr := by
  unfold SetLast
  rw [List.map_append, List.map_singleton]
  constructor
  · rintro ⟨before, after, hsplit, hnot⟩
    rcases List.eq_nil_or_concat after with rfl | ⟨init, last, rfl⟩
    · exact Or.inl (List.singleton_inj.mp (List.append_inj' hsplit rfl).2)
    · rw [List.concat_eq_append, ← List.cons_append, ← List.append_assoc]
        at hsplit
      obtain ⟨hcalls, hlast⟩ := List.append_inj' hsplit rfl
      rw [List.concat_eq_append, List.mem_append, not_or,
        List.mem_singleton] at hnot
      right
      refine ⟨⟨before, init, hcalls, hnot.1⟩, ?_⟩
      rw [List.singleton_inj.mp hlast]
      exact Ne.symm hnot.2
  · rintro (hset | ⟨⟨before, after, hsplit, hnot⟩, hdel⟩)
    · exact ⟨calls.map OutputCall.op, [], by rw [hset], List.not_mem_nil⟩
    · refine ⟨before, after ++ [call.op], by simp [hsplit], ?_⟩
      rw [List.mem_append, not_or, List.mem_singleton]
      exact ⟨hnot, Ne.symm hdel⟩

/-- The set holds what the calls before have set last. -/
theorem mem_set_iff {path : String} {file : Option (List UInt8)}
    {calls : List OutputCall} {t : Tracked}
    (hrun : Run step (start path file) calls t) (addr : List UInt8) :
    addr ∈ t.set ↔ SetLast calls addr := by
  induction hrun with
  | nil =>
      refine iff_of_false (Finset.notMem_empty addr) ?_
      rintro ⟨before, after, hsplit, -⟩
      simp at hsplit
  | @snoc calls t next call _ _ hstep ih =>
      obtain ⟨-, rfl⟩ := step_eq_some hstep
      rw [setLast_concat_iff, ← ih]
      cases hop : call.op with
      | SetOutput value =>
          simp [OutputOp.apply, eq_comm]
      | DelOutput name =>
          simp [OutputOp.apply, and_comm, eq_comm]

end Tracked

open Tracked

/-- A call is answered and leaves the list of what was set last, for as long
as the calls fit. -/
theorem outputs_kept_iff {path : String} {file : Option (List UInt8)}
    {calls : List OutputCall} {t : Tracked}
    (hrun : Run step (start path file) calls t) :
    GuardedRun step Fits (start path file) calls t ↔
      EveryStep step Keeps (start path file) calls := by
  have hkeep : ∀ (t : Tracked) call next, t.Lists → t.Fits call →
      t.step call = some next → next.Lists := by
    intro t call next hlists hfits hstep
    exact ((keeps_iff_fits hlists hstep).mpr hfits).lists
  exact GuardedRun.iff_everyStep hkeep
    (fun _ _ _ hlists hstep => keeps_iff_fits hlists hstep)
    (start_lists path file) hrun

def setFirst (order : RangeOrder) (value : List UInt8) : OutputCall :=
  ⟨.SetOutput value, .none, order⟩

theorem setFirst_step (order : RangeOrder) (value : List UInt8)
    (path : String) (file : Option (List UInt8)) :
    ∃ t, step (start path file) (setFirst order value) = some t := by
  have hwrites : Writes .none file := ⟨Or.inr rfl, rfl⟩
  exact ⟨_, if_pos hwrites⟩

theorem outputs_kept_one : ∃ order : RangeOrder, ∃ t,
    Run step (start "/var/lib/lmon/.lmon" (some []))
      [setFirst order (Pem.ascii "10.0.0.1:14550")] t ∧
    (GuardedRun step Fits (start "/var/lib/lmon/.lmon" (some []))
        [setFirst order (Pem.ascii "10.0.0.1:14550")] t ↔
      EveryStep step Keeps (start "/var/lib/lmon/.lmon" (some []))
        [setFirst order (Pem.ascii "10.0.0.1:14550")]) := by
  obtain ⟨order⟩ := rangeOrder_exists
  obtain ⟨t, hstep⟩ := setFirst_step order (Pem.ascii "10.0.0.1:14550")
    "/var/lib/lmon/.lmon" (some [])
  have hrun : Run step (start "/var/lib/lmon/.lmon" (some []))
      [setFirst order (Pem.ascii "10.0.0.1:14550")] t :=
    .snoc .nil trivial hstep
  exact ⟨order, t, hrun, outputs_kept_iff hrun⟩

/-- One address with a comma is read back as two. -/
theorem comma_splits_address :
    ¬ ∀ path file calls t, Run step (start path file) calls t →
      EveryStep step Keeps (start path file) calls := by
  intro hall
  obtain ⟨order⟩ := rangeOrder_exists
  let path := "/var/lib/lmon/.lmon"
  obtain ⟨t, hstep⟩ := setFirst_step order (Pem.ascii "a,b") path (some [])
  have hrun : Run step (start path (some []))
      [setFirst order (Pem.ascii "a,b")] t := .snoc .nil trivial hstep
  have hkeeps := hall path (some []) _ t hrun [] _ _ t
    (List.prefix_refl _) .nil hstep
  have hfits := (keeps_iff_fits (start_lists path (some [])) hstep).mp hkeeps
  have hcomma : comma ∈ Pem.ascii "a,b" := by decide
  exact (hfits (Finset.notMem_empty _)).1 hcomma

/-- Where both parts of the address are the one to delete, the loop goes past
the end of the list. -/
example :
    Store.removeLoop (Pem.ascii "a") 0 ((Pem.ascii "a,a").splitOn comma)
      ((Pem.ascii "a,a").splitOn comma) = .error .indexOutOfRange := by
  decide

end OutputSets

end DronesmithEngine.Cloudlink
