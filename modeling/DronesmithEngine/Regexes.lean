import Mathlib.Computability.RegularExpressions
import Mathlib.Tactic

/-!
# Patterns

Regular expressions as patterns are written: a class of characters, a literal
text, and a part that is repeated so many times.
-/

namespace Regexes

open RegularExpression

section

variable {α : Type*}

/-- Any of these characters. -/
def oneOf : List α → RegularExpression α
  | [] => 0
  | a :: chars => char a + oneOf chars

def literal : List α → RegularExpression α
  | [] => 1
  | a :: text => char a * literal text

/-- As many times as one of these numbers. -/
def timesAny (r : RegularExpression α) : List ℕ → RegularExpression α
  | [] => 0
  | n :: counts => r ^ n + timesAny r counts

/-- `r{lo,hi}` -/
def repeated (r : RegularExpression α) (lo hi : ℕ) : RegularExpression α :=
  timesAny r (List.range' lo (hi + 1 - lo))

variable {x : List α}

theorem mem_mul {r s : RegularExpression α} :
    x ∈ (r * s).matches' ↔
      ∃ a ∈ r.matches', ∃ b ∈ s.matches', a ++ b = x := by
  rw [matches'_mul, Language.mem_mul]

theorem mem_add {r s : RegularExpression α} :
    x ∈ (r + s).matches' ↔ x ∈ r.matches' ∨ x ∈ s.matches' := Iff.rfl

theorem mem_char {a : α} : x ∈ (char a).matches' ↔ x = [a] := Iff.rfl

theorem mem_oneOf {chars : List α} :
    x ∈ (oneOf chars).matches' ↔ ∃ a ∈ chars, x = [a] := by
  induction chars with
  | nil =>
      refine iff_of_false (Language.notMem_zero x) ?_
      rintro ⟨a, hmem, -⟩
      cases hmem
  | cons c chars ih =>
      rw [oneOf, mem_add, mem_char, ih]
      simp only [List.mem_cons, exists_eq_or_imp]

theorem mem_literal {text : List α} :
    x ∈ (literal text).matches' ↔ x = text := by
  induction text generalizing x with
  | nil => exact Language.mem_one x
  | cons c text ih =>
      rw [literal, mem_mul]
      constructor
      · rintro ⟨a, rfl, b, hb, rfl⟩
        rw [ih.mp hb]
        rfl
      · rintro rfl
        exact ⟨[c], rfl, text, ih.mpr rfl, rfl⟩

theorem mem_oneOf_pow {chars : List α} {n : ℕ} :
    x ∈ (oneOf chars ^ n).matches' ↔
      x.length = n ∧ ∀ a ∈ x, a ∈ chars := by
  rw [matches'_pow]
  induction n generalizing x with
  | zero =>
      rw [pow_zero, Language.mem_one, List.length_eq_zero_iff]
      refine ⟨fun h => ⟨h, ?_⟩, And.left⟩
      rintro a ha
      rw [h] at ha
      cases ha
  | succ n ih =>
      rw [pow_succ', Language.mem_mul]
      constructor
      · rintro ⟨a, ha, b, hb, rfl⟩
        obtain ⟨c, hc, rfl⟩ := mem_oneOf.mp ha
        obtain ⟨hlength, hall⟩ := ih.mp hb
        refine ⟨by rw [List.singleton_append, List.length_cons, hlength], ?_⟩
        rw [List.singleton_append, List.forall_mem_cons]
        exact ⟨hc, hall⟩
      · rintro ⟨hlength, hall⟩
        obtain ⟨c, rest, rfl⟩ := List.exists_cons_of_length_eq_add_one hlength
        rw [List.forall_mem_cons] at hall
        exact ⟨[c], mem_oneOf.mpr ⟨c, hall.1, rfl⟩, rest,
          ih.mpr ⟨Nat.succ.inj hlength, hall.2⟩, rfl⟩

theorem mem_timesAny {r : RegularExpression α} {counts : List ℕ} :
    x ∈ (timesAny r counts).matches' ↔
      ∃ n ∈ counts, x ∈ (r ^ n).matches' := by
  induction counts with
  | nil =>
      refine iff_of_false (Language.notMem_zero x) ?_
      rintro ⟨n, hmem, -⟩
      cases hmem
  | cons n counts ih =>
      rw [timesAny, mem_add, ih]
      simp only [List.mem_cons, exists_eq_or_imp]

theorem mem_repeated_oneOf {chars : List α} {lo hi : ℕ} :
    x ∈ (repeated (oneOf chars) lo hi).matches' ↔
      lo ≤ x.length ∧ x.length ≤ hi ∧ ∀ a ∈ x, a ∈ chars := by
  rw [repeated, mem_timesAny]
  simp only [mem_oneOf_pow, List.mem_range'_1]
  constructor
  · rintro ⟨n, hn, rfl, hall⟩
    exact ⟨hn.1, by omega, hall⟩
  · rintro ⟨hlo, hhi, hall⟩
    exact ⟨x.length, ⟨hlo, by omega⟩, rfl, hall⟩

end

end Regexes
