import DronesmithEngine.GoRuntime
import DronesmithEngine.MavlinkDialect
import Mathlib.Tactic

/-!
# Lists of dialects

`Add` and `Remove` of `mavlink/parser/dialect.go`.  A slice of dialects is the
front of an array of pointers, and both calls write to that array where it has
room.  The calls compare names only, so a name stands for a dialect.
-/

namespace DronesmithEngine.Mavlink

open Go

/-! ## Slices of pointers -/

/-- The slots from `len` on are behind the end of the slice. -/
structure DialectArray where
  slots : List (Option Dialect)
  len : ℕ

def deref : Option Dialect → Checked Dialect
  | some d => .ok d
  | none => .error .nilDereference

namespace DialectArray

def visible (s : DialectArray) : List (Option Dialect) := s.slots.take s.len

def findFrom (msgid : UInt8) : List (Option Dialect) → Checked (Option UInt8)
  | [] => .ok none
  | slot :: rest => do
      let d ← deref slot
      match d.crcExtras.lookup msgid with
      | some crcx => pure (some crcx)
      | none => findFrom msgid rest

def findCrcX (s : DialectArray) (msgid : UInt8) : Checked (Option UInt8) :=
  findFrom msgid s.visible

/-- `none` for -1. -/
def indexFrom (d : Dialect) :
    ℕ → List (Option Dialect) → Checked (Option ℕ)
  | _, [] => .ok none
  | i, slot :: rest => do
      let dlct ← deref slot
      if d.Name = dlct.Name then pure (some i)
      else indexFrom d (i + 1) rest

def IndexOf (s : DialectArray) (d : Dialect) : Checked (Option ℕ) :=
  indexFrom d 0 s.visible

/-- `append(*ds, d)`, with the room that a new array gets. -/
def push (room : ℕ) (s : DialectArray) (d : Dialect) : DialectArray :=
  if s.len < s.slots.length then
    ⟨s.slots.set s.len (some d), s.len + 1⟩
  else ⟨s.visible ++ some d :: List.replicate room none, s.len + 1⟩

/-- `append((*ds)[:i], (*ds)[i+1:]...)`, which has room in the array. -/
def moveDown (s : DialectArray) (i : ℕ) : DialectArray :=
  let moved := s.visible.drop (i + 1)
  ⟨s.slots.take i ++ moved ++ s.slots.drop (i + moved.length),
    i + moved.length⟩

def Add (room : ℕ) (s : DialectArray) (d : Dialect) :
    Checked DialectArray := do
  match ← s.IndexOf d with
  | none => pure (s.push room d)
  | some _ => pure s

/-- The slot that is cleared is the last one before the pointers move. -/
def Remove (s : DialectArray) (d : Dialect) : Checked DialectArray := do
  match ← s.IndexOf d with
  | none => pure s
  | some i =>
      let _ ← index s.visible (s.len - 1)
      let moved := s.moveDown i
      pure { moved with slots := moved.slots.set (s.len - 1) none }

end DialectArray

inductive DialectCall
  | Add (d : Dialect)
  | Remove (d : Dialect)

def DialectCall.dialect : DialectCall → Dialect
  | .Add d => d
  | .Remove d => d

namespace DialectArray

def call (room : ℕ) (s : DialectArray) : DialectCall → Checked DialectArray
  | .Add d => s.Add room d
  | .Remove d => s.Remove d

/-- Each call comes with the room that a new array gets there. -/
def callAll (s : DialectArray) (calls : List (ℕ × DialectCall)) :
    Checked DialectArray :=
  calls.foldlM (fun s c => s.call c.1 c.2) s

end DialectArray

/-! ## Lists -/

def addDialect (ds : DialectSlice) (d : Dialect) : DialectSlice :=
  if d.Name ∈ ds.map Dialect.Name then ds else ds ++ [d]

def removeDialect (ds : DialectSlice) (d : Dialect) : DialectSlice :=
  ds.eraseP fun e => d.Name = e.Name

def DialectCall.apply (ds : DialectSlice) : DialectCall → DialectSlice
  | .Add d => addDialect ds d
  | .Remove d => removeDialect ds d

def afterCalls (ds : DialectSlice) (calls : List DialectCall) :
    DialectSlice :=
  calls.foldl DialectCall.apply ds

/-- The dialects that the calls insert, in order. -/
def insertedBy : DialectSlice → List DialectCall → List Dialect
  | _, [] => []
  | ds, .Add d :: calls =>
      (if d.Name ∈ ds.map Dialect.Name then [] else [d]) ++
        insertedBy (addDialect ds d) calls
  | ds, .Remove d :: calls => insertedBy (removeDialect ds d) calls

section

variable {ds : DialectSlice} {d : Dialect}

theorem addDialect_of_mem (hmem : d.Name ∈ ds.map Dialect.Name) :
    addDialect ds d = ds := if_pos hmem

theorem addDialect_of_notMem (hnew : d.Name ∉ ds.map Dialect.Name) :
    addDialect ds d = ds ++ [d] := if_neg hnew

theorem names_removeDialect_of_notMem
    (hnew : d.Name ∉ ds.map Dialect.Name) : removeDialect ds d = ds := by
  apply List.eraseP_of_forall_not
  intro e he hname
  exact hnew (List.mem_map.mpr ⟨e, he, (of_decide_eq_true hname).symm⟩)

/-- The first dialect with the name goes. -/
theorem split_of_mem (hmem : d.Name ∈ ds.map Dialect.Name) :
    ∃ before e after, ds = before ++ e :: after ∧
      (∀ b ∈ before, d.Name ≠ b.Name) ∧ d.Name = e.Name ∧
      removeDialect ds d = before ++ after := by
  obtain ⟨e, he, hname⟩ := List.mem_map.mp hmem
  obtain ⟨first, before, after, hbefore, hfirst, hsplit, herase⟩ :=
    List.exists_of_eraseP (p := fun e => decide (d.Name = e.Name)) he
      (decide_eq_true hname.symm)
  refine ⟨before, first, after, hsplit, fun b hb heq => ?_,
    of_decide_eq_true hfirst, herase⟩
  exact hbefore b hb (decide_eq_true heq)

end

/-! ## The array holds the list -/

namespace DialectArray

/-- The slots of the slice point to the dialects of the list. -/
def Holds (s : DialectArray) (ds : DialectSlice) : Prop :=
  s.len = ds.length ∧ ∃ behind, s.slots = ds.map some ++ behind

variable {s : DialectArray} {ds : DialectSlice}

theorem Holds.visible_eq (hs : s.Holds ds) : s.visible = ds.map some := by
  obtain ⟨hlen, behind, hslots⟩ := hs
  rw [visible, hslots, hlen]
  exact List.take_left' (List.length_map _)

theorem Holds.findCrcX_eq (hs : s.Holds ds) (msgid : UInt8) :
    s.findCrcX msgid = .ok (Mavlink.findCrcX ds msgid) := by
  rw [findCrcX, hs.visible_eq]
  clear hs
  induction ds with
  | nil => rfl
  | cons d ds ih =>
      rw [List.map_cons, findFrom, deref, ok_bind, Mavlink.findCrcX,
        List.findSome?_cons]
      cases d.crcExtras.lookup msgid with
      | some crcx => rfl
      | none => exact ih

theorem indexFrom_of_notMem {d : Dialect} (i : ℕ)
    (hnew : ∀ e ∈ ds, d.Name ≠ e.Name) :
    indexFrom d i (ds.map some) = .ok none := by
  induction ds generalizing i with
  | nil => rfl
  | cons e ds ih =>
      rw [List.forall_mem_cons] at hnew
      rw [List.map_cons, indexFrom, deref, ok_bind, if_neg hnew.1]
      exact ih (i + 1) hnew.2

theorem indexFrom_append {d : Dialect} (i : ℕ) {rest : List (Option Dialect)}
    (hnew : ∀ e ∈ ds, d.Name ≠ e.Name) :
    indexFrom d i (ds.map some ++ rest) =
      indexFrom d (i + ds.length) rest := by
  induction ds generalizing i with
  | nil => rfl
  | cons e ds ih =>
      rw [List.forall_mem_cons] at hnew
      rw [List.map_cons, List.cons_append, indexFrom, deref, ok_bind,
        if_neg hnew.1, ih (i + 1) hnew.2, List.length_cons, Nat.add_assoc,
        Nat.add_comm 1]

theorem Holds.IndexOf_of_notMem (hs : s.Holds ds) {d : Dialect}
    (hnew : d.Name ∉ ds.map Dialect.Name) : s.IndexOf d = .ok none := by
  rw [IndexOf, hs.visible_eq]
  apply indexFrom_of_notMem
  intro e he heq
  exact hnew (List.mem_map.mpr ⟨e, he, heq.symm⟩)

theorem Holds.IndexOf_of_split {before after : DialectSlice} {d e : Dialect}
    (hs : s.Holds (before ++ e :: after))
    (hbefore : ∀ b ∈ before, d.Name ≠ b.Name) (hname : d.Name = e.Name) :
    s.IndexOf d = .ok (some before.length) := by
  rw [IndexOf, hs.visible_eq, List.map_append, List.map_cons,
    indexFrom_append 0 hbefore, indexFrom, deref, ok_bind, if_pos hname,
    Nat.zero_add]
  rfl

theorem Holds.push (hs : s.Holds ds) (room : ℕ) (d : Dialect) :
    (s.push room d).Holds (ds ++ [d]) := by
  have hvisible := hs.visible_eq
  obtain ⟨hlen, behind, hslots⟩ := hs
  have hlast : s.len + 1 = (ds ++ [d]).length := by
    rw [hlen, List.length_append, List.length_singleton]
  unfold DialectArray.push
  split
  · -- The array has room, and what was in the slot is overwritten.
    next hroom =>
    refine ⟨hlast, behind.drop 1, ?_⟩
    have hset : s.slots.set s.len (some d) =
        ds.map some ++ behind.set 0 (some d) := by
      rw [hslots, hlen, List.set_append_right _ _ (by simp),
        List.length_map, Nat.sub_self]
    cases behind with
    | nil =>
        rw [hslots, hlen, List.append_nil, List.length_map] at hroom
        exact absurd hroom (lt_irrefl _)
    | cons slot behind =>
        dsimp only
        rw [hset, List.set_cons_zero, List.map_append, List.append_assoc]
        rfl
  · refine ⟨hlast, List.replicate room none, ?_⟩
    dsimp only
    rw [hvisible, List.map_append, List.append_assoc]
    rfl

theorem Holds.Add (hs : s.Holds ds) (room : ℕ) (d : Dialect) :
    ∃ t, s.Add room d = .ok t ∧ t.Holds (addDialect ds d) := by
  unfold DialectArray.Add
  by_cases hmem : d.Name ∈ ds.map Dialect.Name
  · rw [addDialect_of_mem hmem]
    obtain ⟨before, e, after, rfl, hbefore, hname, -⟩ := split_of_mem hmem
    rw [hs.IndexOf_of_split hbefore hname]
    exact ⟨s, rfl, hs⟩
  · rw [addDialect_of_notMem hmem, hs.IndexOf_of_notMem hmem]
    exact ⟨_, rfl, hs.push room d⟩

/-- The pointers behind the one that goes move down, and the slot that the
last one leaves is cleared. -/
theorem Holds.moveDown {before after : DialectSlice} {e : Dialect}
    (hs : s.Holds (before ++ e :: after)) :
    Holds { s.moveDown before.length with
        slots := (s.moveDown before.length).slots.set (s.len - 1) none }
      (before ++ after) := by
  have hvisible := hs.visible_eq
  obtain ⟨hlen, behind, hslots⟩ := hs
  have hmoved : s.visible.drop (before.length + 1) = after.map some := by
    rw [hvisible, List.map_append, List.map_cons, ← List.drop_drop,
      List.drop_left' (List.length_map _)]
    rfl
  have htake : s.slots.take before.length = before.map some := by
    rw [hslots, List.map_append, List.append_assoc]
    exact List.take_left' (List.length_map _)
  have hlast : s.len - 1 = (before.map some ++ after.map some).length := by
    rw [hlen, List.length_append, List.length_append, List.length_map,
      List.length_map, List.length_cons]
    omega
  unfold DialectArray.moveDown
  dsimp only
  rw [hmoved, htake]
  refine ⟨?_, (s.slots.drop
    (before.length + (after.map some).length)).set 0 none, ?_⟩
  · dsimp only
    rw [List.length_append, List.length_map]
  · dsimp only
    rw [hlast, List.set_append_right _ _ le_rfl, Nat.sub_self,
      List.map_append]

theorem Holds.Remove (hs : s.Holds ds) (d : Dialect) :
    ∃ t, s.Remove d = .ok t ∧ t.Holds (removeDialect ds d) := by
  unfold DialectArray.Remove
  by_cases hmem : d.Name ∈ ds.map Dialect.Name
  · obtain ⟨before, e, after, rfl, hbefore, hname, hremove⟩ :=
      split_of_mem hmem
    have hin : s.len - 1 < s.visible.length := by
      rw [hs.visible_eq, List.length_map, hs.1, List.length_append,
        List.length_cons]
      omega
    rw [hs.IndexOf_of_split hbefore hname, hremove, ok_bind]
    dsimp only
    rw [index_of_getElem? (List.getElem?_eq_getElem hin), ok_bind]
    exact ⟨_, rfl, hs.moveDown⟩
  · rw [names_removeDialect_of_notMem hmem, hs.IndexOf_of_notMem hmem]
    exact ⟨s, rfl, hs⟩

theorem Holds.callAll (hs : s.Holds ds) (calls : List (ℕ × DialectCall)) :
    ∃ t, s.callAll calls = .ok t ∧
      t.Holds (afterCalls ds (calls.map Prod.snd)) := by
  induction calls generalizing s ds with
  | nil => exact ⟨s, rfl, hs⟩
  | cons c calls ih =>
      obtain ⟨room, c⟩ := c
      have hcall : ∃ t, s.call room c = .ok t ∧ t.Holds (c.apply ds) := by
        cases c with
        | Add d => exact hs.Add room d
        | Remove d => exact hs.Remove d
      obtain ⟨t, hok, ht⟩ := hcall
      obtain ⟨u, hrest, hu⟩ := ih ht
      refine ⟨u, ?_, hu⟩
      rw [DialectArray.callAll, List.foldlM_cons, hok, ok_bind]
      exact hrest

end DialectArray

/-! ## Names and order -/

def Distinct (ds : DialectSlice) : Prop := (ds.map Dialect.Name).Nodup

instance (ds : DialectSlice) : Decidable (Distinct ds) :=
  inferInstanceAs (Decidable (List.Nodup _))

section

variable {ds : DialectSlice} {d : Dialect}

theorem addDialect_cases (ds : DialectSlice) (d : Dialect) :
    (d.Name ∈ ds.map Dialect.Name ∧ addDialect ds d = ds) ∨
    (d.Name ∉ ds.map Dialect.Name ∧ addDialect ds d = ds ++ [d]) := by
  by_cases hmem : d.Name ∈ ds.map Dialect.Name
  · exact Or.inl ⟨hmem, addDialect_of_mem hmem⟩
  · exact Or.inr ⟨hmem, addDialect_of_notMem hmem⟩

theorem Distinct.add (hds : Distinct ds) (d : Dialect) :
    Distinct (addDialect ds d) := by
  rcases addDialect_cases ds d with ⟨-, hsame⟩ | ⟨hnew, hadd⟩
  · rwa [hsame]
  · rw [Distinct, hadd, List.map_append, List.map_singleton,
      List.nodup_append_comm]
    exact List.nodup_cons.mpr ⟨hnew, hds⟩

theorem removeDialect_sublist (ds : DialectSlice) (d : Dialect) :
    (removeDialect ds d).Sublist ds := List.eraseP_sublist

theorem Distinct.remove (hds : Distinct ds) (d : Dialect) :
    Distinct (removeDialect ds d) :=
  hds.sublist ((removeDialect_sublist ds d).map Dialect.Name)

theorem Distinct.apply (hds : Distinct ds) (c : DialectCall) :
    Distinct (c.apply ds) := by
  cases c with
  | Add d => exact hds.add d
  | Remove d => exact hds.remove d

theorem Distinct.afterCalls (hds : Distinct ds) (calls : List DialectCall) :
    Distinct (afterCalls ds calls) := by
  induction calls generalizing ds with
  | nil => exact hds
  | cons c calls ih => exact ih (hds.apply c)

/-- What is left is in the order of insertion. -/
theorem afterCalls_sublist (ds : DialectSlice) (calls : List DialectCall) :
    (afterCalls ds calls).Sublist (ds ++ insertedBy ds calls) := by
  induction calls generalizing ds with
  | nil =>
      rw [insertedBy, List.append_nil]
      exact List.Sublist.refl ds
  | cons c calls ih =>
      have hrest := ih (c.apply ds)
      cases c with
      | Add d =>
          rw [DialectCall.apply] at hrest
          rw [insertedBy]
          rcases addDialect_cases ds d with ⟨hmem, hsame⟩ | ⟨hnew, hadd⟩
          · rw [if_pos hmem, List.nil_append]
            rw [hsame] at hrest ⊢
            rw [Mavlink.afterCalls, List.foldl_cons, DialectCall.apply, hsame]
            exact hrest
          · rw [if_neg hnew]
            rw [hadd, List.append_assoc] at hrest
            rw [hadd, Mavlink.afterCalls, List.foldl_cons,
              DialectCall.apply, hadd]
            exact hrest
      | Remove d =>
          exact hrest.trans
            ((removeDialect_sublist ds d).append_right _)

/-! ## Lookups -/

theorem findCrcX_addDialect {msgid crcx : UInt8}
    (hknown : findCrcX ds msgid = some crcx) :
    findCrcX (addDialect ds d) msgid = some crcx := by
  rcases addDialect_cases ds d with ⟨-, hsame⟩ | ⟨-, hadd⟩
  · rw [hsame, hknown]
  · rw [findCrcX] at hknown
    rw [hadd, findCrcX, List.findSome?_append, hknown]
    rfl

theorem removeDialect_addDialect (hnew : d.Name ∉ ds.map Dialect.Name) :
    removeDialect (addDialect ds d) d = ds := by
  have hothers : ∀ e ∈ ds, ¬ decide (d.Name = e.Name) = true := by
    intro e he hname
    exact hnew (List.mem_map.mpr ⟨e, he, (of_decide_eq_true hname).symm⟩)
  rw [addDialect_of_notMem hnew, removeDialect,
    List.eraseP_append_right _ hothers]
  simp

/-! ## Without one dialect -/

def withoutName (name : String) (ds : DialectSlice) : DialectSlice :=
  ds.filter fun e => name ≠ e.Name

def callsWithout (name : String) (calls : List DialectCall) :
    List DialectCall :=
  calls.filter fun c => name ≠ c.dialect.Name

theorem Distinct.without (hds : Distinct ds) (name : String) :
    Distinct (withoutName name ds) :=
  hds.sublist (List.filter_sublist.map Dialect.Name)

/-- Names are distinct, so no other dialect goes with it. -/
theorem Distinct.removeDialect_eq (hds : Distinct ds) (d : Dialect) :
    removeDialect ds d = withoutName d.Name ds := by
  by_cases hmem : d.Name ∈ ds.map Dialect.Name
  · obtain ⟨before, e, after, rfl, hbefore, hname, hremove⟩ :=
      split_of_mem hmem
    have hparts := hds
    rw [Distinct, List.map_append, List.map_cons,
      List.nodup_append_comm, List.cons_append, List.nodup_cons,
      List.mem_append, not_or] at hparts
    have hafter : ∀ b ∈ after, d.Name ≠ b.Name := by
      intro b hb heq
      exact hparts.1.1 (List.mem_map.mpr ⟨b, hb, heq.symm.trans hname⟩)
    rw [hremove, withoutName, List.filter_append,
      List.filter_cons_of_neg (by simpa using hname),
      List.filter_eq_self.mpr (by simpa using hbefore),
      List.filter_eq_self.mpr (by simpa using hafter)]
  · rw [names_removeDialect_of_notMem hmem]
    symm
    apply List.filter_eq_self.mpr
    intro e he
    refine decide_eq_true fun heq => ?_
    exact hmem (List.mem_map.mpr ⟨e, he, heq.symm⟩)

theorem mem_names_without {name : String} (hname : d.Name ≠ name) :
    d.Name ∈ (withoutName name ds).map Dialect.Name ↔
      d.Name ∈ ds.map Dialect.Name := by
  simp only [List.mem_map, withoutName, List.mem_filter, decide_eq_true_iff]
  constructor
  · rintro ⟨e, ⟨he, -⟩, heq⟩
    exact ⟨e, he, heq⟩
  · rintro ⟨e, he, heq⟩
    exact ⟨e, ⟨he, fun hsame => hname (heq.symm.trans hsame.symm)⟩, heq⟩

theorem withoutName_comm (name other : String) (ds : DialectSlice) :
    withoutName name (withoutName other ds) =
      withoutName other (withoutName name ds) := by
  rw [withoutName, withoutName, withoutName, withoutName, List.filter_filter,
    List.filter_filter]
  simp only [Bool.and_comm]

theorem without_addDialect (ds : DialectSlice) (d : Dialect)
    (name : String) :
    withoutName name (addDialect ds d) =
      if name ≠ d.Name then addDialect (withoutName name ds) d
      else withoutName name ds := by
  by_cases hname : name = d.Name
  · rw [if_neg (not_not.mpr hname)]
    rcases addDialect_cases ds d with ⟨-, hsame⟩ | ⟨-, hadd⟩
    · rw [hsame]
    · rw [hadd, withoutName, List.filter_append,
        List.filter_cons_of_neg (by simpa using hname), List.filter_nil,
        List.append_nil]
      rfl
  · rw [if_pos hname, addDialect, addDialect,
      if_congr (mem_names_without (Ne.symm hname)) rfl rfl]
    split
    · rfl
    · rw [withoutName, List.filter_append,
        List.filter_cons_of_pos (by simpa using hname), List.filter_nil]
      rfl

/-- A call about another dialect does the same without it, and one about it
nothing. -/
theorem Distinct.without_apply (hds : Distinct ds) (c : DialectCall)
    (name : String) :
    withoutName name (c.apply ds) =
      if name ≠ c.dialect.Name then c.apply (withoutName name ds)
      else withoutName name ds := by
  cases c with
  | Add d => exact without_addDialect ds d name
  | Remove d =>
      rw [DialectCall.apply, DialectCall.apply, hds.removeDialect_eq,
        (hds.without name).removeDialect_eq, withoutName_comm]
      split
      next => rfl
      next hname =>
        rw [not_not] at hname
        rw [DialectCall.dialect] at hname
        rw [← hname, withoutName, withoutName, List.filter_filter]
        simp only [Bool.and_self]

theorem Distinct.without_afterCalls (hds : Distinct ds)
    (calls : List DialectCall) (name : String) :
    withoutName name (Mavlink.afterCalls ds calls) =
      Mavlink.afterCalls (withoutName name ds)
        (callsWithout name calls) := by
  induction calls generalizing ds with
  | nil => rfl
  | cons c calls ih =>
      rw [Mavlink.afterCalls, List.foldl_cons]
      refine (ih (hds.apply c)).trans ?_
      rw [hds.without_apply c name, callsWithout, callsWithout,
        List.filter_cons]
      by_cases hname : name = c.dialect.Name
      · rw [if_neg (not_not.mpr hname), if_neg (by simpa using hname)]
      · rw [if_pos hname, if_pos (by simpa using hname)]
        rfl

end

/-! ## Runs of calls -/

/-- What holds of the array after the calls, and of the next call. -/
structure DialectsKept (start : DialectSlice) (calls : List DialectCall)
    (t : DialectArray) : Prop where
  holds : t.Holds (afterCalls start calls)
  distinct : Distinct (afterCalls start calls)
  ordered : (afterCalls start calls).Sublist
    (start ++ insertedBy start calls)
  adds : ∀ room d, ∃ u, t.Add room d = .ok u ∧
    ∀ msgid crcx, t.findCrcX msgid = .ok (some crcx) →
      u.findCrcX msgid = .ok (some crcx)
  removes : ∀ d, ∃ u, t.Remove d = .ok u ∧
    ∀ msgid, u.findCrcX msgid = .ok (findCrcX
      (afterCalls (withoutName d.Name start) (callsWithout d.Name calls))
      msgid)
  restores : ∀ room d,
    d.Name ∉ (afterCalls start calls).map Dialect.Name →
      ∃ u w, t.Add room d = .ok u ∧ u.Remove d = .ok w ∧
        w.Holds (afterCalls start calls)

/-- From distinct names on, no calls panic; names stay distinct and in order,
an added dialect hides no known message, and a removed one leaves what would
be there without it. -/
theorem dialects_kept {start : DialectSlice} {s : DialectArray}
    (hs : s.Holds start) (hstart : Distinct start)
    (calls : List (ℕ × DialectCall)) :
    ∃ t, s.callAll calls = .ok t ∧
      DialectsKept start (calls.map Prod.snd) t := by
  obtain ⟨t, hok, ht⟩ := hs.callAll calls
  have hdistinct := hstart.afterCalls (calls.map Prod.snd)
  refine ⟨t, hok, ht, hdistinct, afterCalls_sublist start _,
    fun room d => ?_, fun d => ?_, fun room d hnew => ?_⟩
  · obtain ⟨u, hadd, hu⟩ := ht.Add room d
    refine ⟨u, hadd, fun msgid crcx hknown => ?_⟩
    rw [ht.findCrcX_eq, Except.ok.injEq] at hknown
    rw [hu.findCrcX_eq, findCrcX_addDialect hknown]
  · obtain ⟨u, hremove, hu⟩ := ht.Remove d
    refine ⟨u, hremove, fun msgid => ?_⟩
    rw [hu.findCrcX_eq, hdistinct.removeDialect_eq,
      hstart.without_afterCalls]
  · obtain ⟨u, hadd, hu⟩ := ht.Add room d
    obtain ⟨w, hremove, hw⟩ := hu.Remove d
    rw [removeDialect_addDialect hnew] at hw
    exact ⟨u, w, hadd, hremove, hw⟩

/-- The common dialect goes and another one stays. -/
theorem dialects_kept_common :
    ∃ t, (DialectArray.mk [some DialectCommon] 1).callAll
        [(1, .Add ⟨"ardupilotmega", [(150, 134)]⟩),
          (0, .Remove DialectCommon)] = .ok t ∧
      DialectsKept [DialectCommon]
        [.Add ⟨"ardupilotmega", [(150, 134)]⟩, .Remove DialectCommon] t :=
  dialects_kept ⟨rfl, [], rfl⟩ (by decide) _

end DronesmithEngine.Mavlink
