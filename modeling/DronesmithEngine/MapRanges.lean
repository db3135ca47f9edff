import DronesmithEngine.GoRuntime
import Mathlib.Tactic

/-!
# Storing entries of a map while ranging over it

A loop stores the value of each key it visits under another key of the same
map.  The order of the visits is open, and so is whether the keys that are
stored meanwhile are visited.  The other key is a normal form, as that of a
case-insensitive name: it is its own normal form.
-/

namespace Go

section

variable {κ α : Type} [DecidableEq κ] (f : κ → κ)

def storeNormal (m : GoMap κ α) (k : κ) : GoMap κ α :=
  match m.lookup k with
  | some x => m.insert (f k) x
  | none => m

def normalizeKeys (order : List κ) (m : GoMap κ α) : GoMap κ α :=
  order.foldl (storeNormal f) m

/-- The orders in which the keys may be visited: each at most once and while
it is in the map, and those that are there at the start in any case. -/
structure Visits (m : GoMap κ α) (order : List κ) : Prop where
  nodup : order.Nodup
  all : ∀ k ∈ m, k ∈ order
  present : ∀ before k after, order = before ++ k :: after →
    k ∈ normalizeKeys f before m

/-- Keys of one normal form, other than that, have one value. -/
def Unambiguous (m : GoMap κ α) : Prop :=
  ∀ a ∈ m, ∀ b ∈ m, f a ≠ a → f b ≠ b → f a = f b →
    m.lookup a = m.lookup b

variable {f} {m : GoMap κ α}

/-! ## One visit -/

theorem storeNormal_of_normal {k : κ} (hk : f k = k) :
    storeNormal f m k = m := by
  unfold storeNormal
  cases hlookup : m.lookup k with
  | none => rfl
  | some x =>
      simp only
      rw [hk, insert_eq_self_iff]
      exact hlookup

theorem lookup_storeNormal_of_ne {k other : κ} (hne : f k ≠ other) :
    (storeNormal f m k).lookup other = m.lookup other := by
  unfold storeNormal
  cases m.lookup k with
  | none => rfl
  | some x => exact Finmap.lookup_insert_of_ne m (Ne.symm hne)

theorem lookup_storeNormal_self {k : κ} (hk : k ∈ m) :
    (storeNormal f m k).lookup (f k) = m.lookup k := by
  obtain ⟨x, hx⟩ := Finmap.mem_iff.mp hk
  simp only [storeNormal, hx, Finmap.lookup_insert]

theorem mem_storeNormal {k other : κ} (hother : other ∈ m) :
    other ∈ storeNormal f m k := by
  unfold storeNormal
  cases m.lookup k with
  | none => exact hother
  | some x => exact Finmap.mem_insert.mpr (Or.inr hother)

/-! ## The loop -/

theorem mem_normalizeKeys (order : List κ) {k : κ} (hk : k ∈ m) :
    k ∈ normalizeKeys f order m := by
  induction order generalizing m with
  | nil => exact hk
  | cons visited order ih => exact ih (mem_storeNormal hk)

theorem storeNormal_of_notMem {k : κ} (hk : k ∉ m) :
    storeNormal f m k = m := by
  simp only [storeNormal, Finmap.lookup_eq_none.mpr hk]

section

variable (hidem : ∀ k, f (f k) = f k)

include hidem

/-- Nothing is stored under a key that is no normal form. -/
theorem lookup_storeNormal_of_moved {k visited : κ} (hk : f k ≠ k) :
    (storeNormal f m visited).lookup k = m.lookup k := by
  apply lookup_storeNormal_of_ne
  rintro rfl
  exact hk (hidem visited)

theorem mem_storeNormal_iff {k visited : κ} (hk : f k ≠ k) :
    k ∈ storeNormal f m visited ↔ k ∈ m := by
  rw [Finmap.mem_iff, Finmap.mem_iff, lookup_storeNormal_of_moved hidem hk]

theorem lookup_normalizeKeys_of_moved (order : List κ) {k : κ}
    (hk : f k ≠ k) :
    (normalizeKeys f order m).lookup k = m.lookup k := by
  induction order generalizing m with
  | nil => rfl
  | cons visited order ih =>
      exact ih.trans (lookup_storeNormal_of_moved hidem hk)

theorem Unambiguous.storeNormal (hm : Unambiguous f m) (visited : κ) :
    Unambiguous f (storeNormal f m visited) := by
  intro a ha b hb hmoved hmoved' heq
  rw [mem_storeNormal_iff hidem hmoved] at ha
  rw [mem_storeNormal_iff hidem hmoved'] at hb
  rw [lookup_storeNormal_of_moved hidem hmoved,
    lookup_storeNormal_of_moved hidem hmoved']
  exact hm a ha b hb hmoved hmoved' heq

/-- An entry that no visited key is stored over stays. -/
theorem lookup_normalizeKeys_of_ne {order : List κ} {key : κ}
    (hne : ∀ k ∈ order, k ∈ m → f k ≠ k → f k ≠ key) :
    (normalizeKeys f order m).lookup key = m.lookup key := by
  induction order generalizing m with
  | nil => rfl
  | cons visited order ih =>
      have hrest : ∀ k ∈ order, k ∈ storeNormal f m visited → f k ≠ k →
          f k ≠ key := by
        intro k hk hmem hmoved
        rw [mem_storeNormal_iff hidem hmoved] at hmem
        exact hne k (List.mem_cons_of_mem visited hk) hmem hmoved
      refine (ih hrest).trans ?_
      by_cases hnormal : f visited = visited
      · rw [storeNormal_of_normal hnormal]
      · by_cases hmem : visited ∈ m
        · exact lookup_storeNormal_of_ne
            (hne visited List.mem_cons_self hmem hnormal)
        · rw [storeNormal_of_notMem hmem]

/-- A normal form gets the one value of the other keys that have it. -/
theorem lookup_normalizeKeys_of_mem (hm : Unambiguous f m)
    {order : List κ} {k : κ} (hk : k ∈ order) (hmem : k ∈ m)
    (hmoved : f k ≠ k) :
    (normalizeKeys f order m).lookup (f k) = m.lookup k := by
  induction order generalizing m k with
  | nil => cases hk
  | cons visited order ih =>
      have hnext := hm.storeNormal hidem visited
      have hlater {other : κ} (hother : other ∈ order) (hin : other ∈ m)
          (hmoved' : f other ≠ other) :
          (normalizeKeys f order (storeNormal f m visited)).lookup
            (f other) = m.lookup other := by
        rw [ih hnext hother ((mem_storeNormal_iff hidem hmoved').mpr hin)
          hmoved', lookup_storeNormal_of_moved hidem hmoved']
      rcases List.mem_cons.mp hk with rfl | hin
      · -- A later key of the same normal form has the same value.
        by_cases hagain : ∃ other ∈ order, other ∈ m ∧ f other ≠ other ∧
            f other = f k
        · obtain ⟨other, hother, hin, hmoved', heq⟩ := hagain
          have hvalue := hlater hother hin hmoved'
          rw [heq] at hvalue
          exact hvalue.trans (hm other hin k hmem hmoved' hmoved heq)
        · have hnone : ∀ other ∈ order, other ∈ storeNormal f m k →
              f other ≠ other → f other ≠ f k := by
            intro other hother hin hmoved' heq
            rw [mem_storeNormal_iff hidem hmoved'] at hin
            exact hagain ⟨other, hother, hin, hmoved', heq⟩
          exact (lookup_normalizeKeys_of_ne hidem hnone).trans
            (lookup_storeNormal_self hmem)
      · exact hlater hin hmem hmoved

/-! ## Two orders -/

theorem normalizeKeys_eq (hm : Unambiguous f m) {order order' : List κ}
    (hall : ∀ k ∈ m, k ∈ order) (hall' : ∀ k ∈ m, k ∈ order') :
    normalizeKeys f order m = normalizeKeys f order' m := by
  apply Finmap.ext_lookup
  intro key
  by_cases hsome : ∃ k ∈ m, f k ≠ k ∧ f k = key
  · obtain ⟨k, hmem, hmoved, rfl⟩ := hsome
    rw [lookup_normalizeKeys_of_mem hidem hm (hall k hmem) hmem hmoved,
      lookup_normalizeKeys_of_mem hidem hm (hall' k hmem) hmem hmoved]
  · have hne : ∀ k, k ∈ m → f k ≠ k → f k ≠ key :=
      fun k hmem hmoved heq => hsome ⟨k, hmem, hmoved, heq⟩
    rw [lookup_normalizeKeys_of_ne hidem fun k _ => hne k,
      lookup_normalizeKeys_of_ne hidem fun k _ => hne k]

/-- The value of a key that is visited last is stored. -/
theorem lookup_normalizeKeys_last (before : List κ) {k : κ} (hmem : k ∈ m)
    (hmoved : f k ≠ k) :
    (normalizeKeys f (before ++ [k]) m).lookup (f k) = m.lookup k := by
  have hstep : normalizeKeys f (before ++ [k]) m =
      storeNormal f (normalizeKeys f before m) k :=
    List.foldl_concat (storeNormal f) m k before
  rw [hstep, lookup_storeNormal_self (mem_normalizeKeys before hmem),
    lookup_normalizeKeys_of_moved hidem before hmoved]

end

theorem visits_of_keys {order : List κ} (hnodup : order.Nodup)
    (hall : ∀ k, k ∈ order ↔ k ∈ m) : Visits f m order where
  nodup := hnodup
  all k hk := (hall k).mpr hk
  present before k after heq := by
    apply mem_normalizeKeys
    rw [← hall, heq]
    exact List.mem_append_right before List.mem_cons_self

theorem exists_visits_last {k : κ} (hk : k ∈ m) :
    ∃ before, Visits f m (before ++ [k]) := by
  refine ⟨(m.keys.erase k).toList, visits_of_keys ?_ ?_⟩
  · rw [List.nodup_append_comm]
    simp [Finset.nodup_toList]
  · intro other
    simp only [List.mem_append, Finset.mem_toList, Finset.mem_erase,
      Finmap.mem_keys, List.mem_singleton]
    by_cases hother : other = k
    · subst hother
      simp [hk]
    · simp [hother]

/-- The order of the visits does not matter exactly for a map without two
values for one normal form. -/
theorem normalizeKeys_order_iff (hidem : ∀ k, f (f k) = f k) :
    (∀ order order', Visits f m order → Visits f m order' →
      normalizeKeys f order m = normalizeKeys f order' m) ↔
        Unambiguous f m := by
  constructor
  · intro hsame a ha b hb hmoved hmoved' heq
    obtain ⟨before, hvisits⟩ := exists_visits_last (f := f) ha
    obtain ⟨before', hvisits'⟩ := exists_visits_last (f := f) hb
    rw [← lookup_normalizeKeys_last hidem before ha hmoved,
      hsame _ _ hvisits hvisits', heq]
    exact lookup_normalizeKeys_last hidem before' hb hmoved'
  · intro hm order order' hvisits hvisits'
    exact normalizeKeys_eq hidem hm hvisits.all hvisits'.all

end

end Go
