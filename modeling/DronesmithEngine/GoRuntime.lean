import Mathlib.Data.Finmap
import Mathlib.Tactic

/-!
# Checked slices, maps and conversions

Indexing and slicing are partial operations whose failure is a run-time
panic, so an embedded function that can index out of range returns
`Checked`.  A slice here has no spare capacity: its elements are all there
is behind it.  Maps are finite maps up to the order of their entries.
-/

namespace Go

/-- The run-time panics the embedded functions can raise. -/
inductive Panic
  | indexOutOfRange
  | sliceBounds
  | nilDereference
  | typeAssertion
  | raised
  deriving DecidableEq, Repr

/-- The result of a computation that may panic. -/
abbrev Checked (α : Type) := Except Panic α

@[simp] theorem ok_bind {α β : Type} (x : α) (f : α → Checked β) :
    (Except.ok x : Checked α) >>= f = f x := rfl

@[simp] theorem error_bind {α β : Type} (e : Panic) (f : α → Checked β) :
    (Except.error e : Checked α) >>= f = .error e := rfl

@[simp] theorem pure_eq_ok {α : Type} (x : α) :
    (pure x : Checked α) = .ok x := rfl

/-- `xs[i]`. -/
def index {α : Type} (xs : List α) (i : ℕ) : Checked α :=
  match xs[i]? with
  | some x => .ok x
  | none => .error .indexOutOfRange

/-- `xs[lo:hi]`. -/
def slice {α : Type} (xs : List α) (lo hi : ℕ) : Checked (List α) :=
  if lo ≤ hi ∧ hi ≤ xs.length then .ok ((xs.take hi).drop lo)
  else .error .sliceBounds

theorem index_of_getElem? {α : Type} {xs : List α} {i : ℕ} {x : α}
    (hx : xs[i]? = some x) : index xs i = .ok x := by
  simp [index, hx]

theorem slice_ok {α : Type} {xs : List α} {lo hi : ℕ}
    (hlo : lo ≤ hi) (hhi : hi ≤ xs.length) :
    slice xs lo hi = .ok ((xs.take hi).drop lo) := by
  simp [slice, hlo, hhi]

theorem slice_error {α : Type} {xs : List α} {lo hi : ℕ}
    (hout : ¬ (lo ≤ hi ∧ hi ≤ xs.length)) :
    slice xs lo hi = .error .sliceBounds := by
  simp [slice, hout]

abbrev GoMap (κ α : Type) := Finmap (fun _ : κ => α)

/-- Storing a value leaves a map as it was exactly when the map already
holds that value. -/
theorem insert_eq_self_iff {κ α : Type} [DecidableEq κ]
    (m : GoMap κ α) (k : κ) (x : α) :
    m.insert k x = m ↔ m.lookup k = some x := by
  constructor
  · intro hsame
    rw [← hsame]
    exact Finmap.lookup_insert m
  · intro hlookup
    apply Finmap.ext_lookup
    intro other
    by_cases hother : other = k
    · subst hother
      rw [Finmap.lookup_insert, hlookup]
    · rw [Finmap.lookup_insert_of_ne m hother]

section

variable {κ α β : Type}

/-- What a loop over the values of a map goes through, in no order. -/
def values (m : GoMap κ α) : Multiset α := m.entries.map Sigma.snd

theorem mem_values [DecidableEq κ] {m : GoMap κ α} {x : α} :
    x ∈ values m ↔ ∃ k, m.lookup k = some x := by
  simp only [values, Multiset.mem_map, Finmap.lookup_eq_some_iff]
  constructor
  · rintro ⟨⟨k, y⟩, hmem, rfl⟩
    exact ⟨k, hmem⟩
  · rintro ⟨k, hmem⟩
    exact ⟨⟨k, x⟩, hmem, rfl⟩

/-- A map filled in a loop over another one, under the same keys. -/
def mapValues (f : α → β) (m : GoMap κ α) : GoMap κ β where
  entries := m.entries.map fun entry => ⟨entry.1, f entry.2⟩
  nodupKeys := by
    have hkeys : (m.entries.map fun entry =>
        (⟨entry.1, f entry.2⟩ : Σ _ : κ, β)).keys = m.entries.keys := by
      simp [Multiset.keys]
    rw [← Multiset.nodup_keys, hkeys]
    exact m.nodupKeys.nodup_keys

end

/-- The conversion of a `uint` to an `int`. -/
def int (u : UInt64) : ℤ := u.toInt64.toInt

theorem int_of_lt {u : UInt64} (hu : u.toNat < 2 ^ 63) :
    int u = u.toNat := by
  rw [int, ← Int64.toInt_toBitVec, UInt64.toBitVec_toInt64,
    BitVec.toInt_eq_toNat_of_lt]
  · rw [UInt64.toNat_toBitVec]
  · rw [UInt64.toNat_toBitVec]
    omega

/-- The conversion of an `int` to a `uint` wraps. -/
theorem toNat_uint (i : ℤ) :
    ((UInt64.ofInt i).toNat : ℤ) = i % 2 ^ 64 := by
  rw [UInt64.ofInt, UInt64.toNat_ofNat']
  omega

end Go
