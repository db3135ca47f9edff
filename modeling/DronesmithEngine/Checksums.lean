import Mathlib.Data.List.Basic
import Mathlib.Data.Nat.Bitwise
import Mathlib.Tactic

/-!
# Checksums that detect changes

A checksum runs a step over a list of symbols.  When the step can be undone
for each symbol, a difference in the state never goes away; when it also
keeps two consecutive symbols apart, one changed symbol or two adjacent ones
always change the result.  A reflected 16-bit checksum has both properties if
the high bytes of its table are distinct.  Such a checksum is the remainder
that bitwise division leaves when its table holds eight shifts of each byte.
-/

namespace Checksums

section Detecting

variable {σ β : Type*}

/-- The step can be undone, and tells two consecutive symbols apart from any
other two. -/
structure Detecting (step : σ → β → σ) : Prop where
  state : ∀ b, Function.Injective fun s => step s b
  pair : ∀ s b c b' c',
    step (step s b) c = step (step s b') c' → b = b' ∧ c = c'

variable {step : σ → β → σ} (h : Detecting step)

include h

theorem Detecting.symbol (s : σ) : Function.Injective (step s) := by
  intro b b' heq
  have hpair : step (step s b) b = step (step s b') b :=
    congrArg (step · b) heq
  exact (h.pair s b b b' b hpair).1

theorem Detecting.foldl_injective (xs : List β) :
    Function.Injective fun s => xs.foldl step s := by
  induction xs with
  | nil => exact Function.injective_id
  | cons b xs ih =>
      intro s s' heq
      exact h.state b (ih heq)

theorem Detecting.foldl_one (s : σ) (before after : List β) {a b : β}
    (hne : a ≠ b) :
    (before ++ b :: after).foldl step s ≠
      (before ++ a :: after).foldl step s := by
  intro heq
  simp only [List.foldl_append, List.foldl_cons] at heq
  exact hne (h.symbol _ (h.foldl_injective after heq)).symm

theorem Detecting.foldl_two (s : σ) (before after : List β)
    {a b a' b' : β} (hne : a ≠ a' ∨ b ≠ b') :
    (before ++ a' :: b' :: after).foldl step s ≠
      (before ++ a :: b :: after).foldl step s := by
  intro heq
  simp only [List.foldl_append, List.foldl_cons] at heq
  obtain ⟨ha, hb⟩ := h.pair _ _ _ _ _ (h.foldl_injective after heq)
  rcases hne with hne | hne
  · exact hne ha.symm
  · exact hne hb.symm

end Detecting

/-! ## Changed positions of a list -/

section Positions

variable {β : Type*}

/-- One entry at a position in `one` is changed, or entries at two adjacent
positions, the first in `pair`. -/
inductive Changed (one pair : ℕ → Prop) (xs : List β) : List β → Prop
  | one {i : ℕ} {a b : β} (hi : one i) (ha : xs[i]? = some a) (hne : a ≠ b) :
      Changed one pair xs (xs.set i b)
  | two {i : ℕ} {a b a' b' : β} (hi : pair i) (ha : xs[i]? = some a)
      (hb : xs[i + 1]? = some b) (hne : a ≠ a' ∨ b ≠ b') :
      Changed one pair xs ((xs.set i a').set (i + 1) b')

theorem split_at {xs : List β} {i : ℕ} {a : β} (ha : xs[i]? = some a) :
    ∃ before after, before.length = i ∧ xs = before ++ a :: after := by
  obtain ⟨hi, hget⟩ := List.getElem?_eq_some_iff.mp ha
  refine ⟨xs.take i, xs.drop (i + 1), by simp; omega, ?_⟩
  rw [← hget, List.cons_getElem_drop_succ, List.take_append_drop]

theorem split_at_two {xs : List β} {i : ℕ} {a b : β}
    (ha : xs[i]? = some a) (hb : xs[i + 1]? = some b) :
    ∃ before after, before.length = i ∧ xs = before ++ a :: b :: after := by
  obtain ⟨before, rest, hlen, rfl⟩ := split_at ha
  have hnext : rest[0]? = some b := by
    rw [List.getElem?_append_right (by omega)] at hb
    simpa [hlen] using hb
  cases rest with
  | nil => cases hnext
  | cons c rest =>
      rw [List.getElem?_cons_zero, Option.some.injEq] at hnext
      subst hnext
      exact ⟨before, rest, hlen, rfl⟩

theorem set_split {before after : List β} {i : ℕ} (a b : β)
    (hlen : before.length = i) :
    (before ++ a :: after).set i b = before ++ b :: after := by
  rw [List.set_append_right i b hlen.le, hlen, Nat.sub_self,
    List.set_cons_zero]

theorem set_ne_self {xs : List β} {i : ℕ} {a b : β}
    (ha : xs[i]? = some a) (hne : a ≠ b) : xs.set i b ≠ xs := by
  intro heq
  have hi := (List.getElem?_eq_some_iff.mp ha).1
  have hb : (xs.set i b)[i]? = some b := List.getElem?_set_self hi
  rw [heq, ha, Option.some.injEq] at hb
  exact hne hb

theorem set_split_two {before after : List β} {i : ℕ} (a b a' b' : β)
    (hlen : before.length = i) :
    ((before ++ a :: b :: after).set i a').set (i + 1) b' =
      before ++ a' :: b' :: after := by
  rw [set_split a a' hlen, List.set_append_right (i + 1) b' (by omega)]
  have hone : i + 1 - before.length = 1 := by omega
  rw [hone, List.set_cons_succ, List.set_cons_zero]

section Changed

variable {one pair : ℕ → Prop} {xs ys : List β}

theorem Changed.length (hchanged : Changed one pair xs ys) :
    ys.length = xs.length := by
  cases hchanged with
  | one hi ha hne => exact List.length_set
  | two hi ha hb hne => rw [List.length_set, List.length_set]

theorem Changed.getElem?_eq (hchanged : Changed one pair xs ys) {k : ℕ}
    (hone : ¬ one k) (hpair : ∀ i, pair i → i ≠ k ∧ i + 1 ≠ k) :
    ys[k]? = xs[k]? := by
  cases hchanged with
  | @one i a b hi ha hne =>
      have hik : i ≠ k := fun heq => hone (heq ▸ hi)
      exact List.getElem?_set_ne hik
  | two hi ha hb hne =>
      rw [List.getElem?_set_ne (hpair _ hi).2,
        List.getElem?_set_ne (hpair _ hi).1]

theorem Changed.tail {x : β} (hchanged : Changed one pair (x :: xs) ys)
    (hone : ¬ one 0) (hpair : ¬ pair 0) :
    ∃ zs, ys = x :: zs ∧
      Changed (fun i => one (i + 1)) (fun i => pair (i + 1)) xs zs := by
  cases hchanged with
  | @one i a b hi ha hne =>
      cases i with
      | zero => exact absurd hi hone
      | succ i => exact ⟨xs.set i b, rfl, .one hi ha hne⟩
  | @two i a b a' b' hi ha hb hne =>
      cases i with
      | zero => exact absurd hi hpair
      | succ i =>
          exact ⟨(xs.set i a').set (i + 1) b', rfl, .two hi ha hb hne⟩

end Changed

variable {σ : Type*} {step : σ → β → σ} (h : Detecting step)

include h

theorem Detecting.foldl_set (s : σ) {xs : List β} {i : ℕ} {a b : β}
    (ha : xs[i]? = some a) (hne : a ≠ b) :
    (xs.set i b).foldl step s ≠ xs.foldl step s := by
  obtain ⟨before, after, hlen, rfl⟩ := split_at ha
  rw [set_split a b hlen]
  exact h.foldl_one s before after hne

theorem Detecting.foldl_set_two (s : σ) {xs : List β} {i : ℕ}
    {a b a' b' : β} (ha : xs[i]? = some a) (hb : xs[i + 1]? = some b)
    (hne : a ≠ a' ∨ b ≠ b') :
    ((xs.set i a').set (i + 1) b').foldl step s ≠ xs.foldl step s := by
  obtain ⟨before, after, hlen, rfl⟩ := split_at_two ha hb
  rw [set_split_two a b a' b' hlen]
  exact h.foldl_two s before after hne

/-- Of what is summed and the sum behind it, a change is in one of the two,
and changes the checksum of the first or the second itself. -/
theorem Detecting.changed (s : σ) {one pair : ℕ → Prop}
    {body tail ys : List β} (hchanged : Changed one pair (body ++ tail) ys)
    (hpair : ∀ i, pair i → i + 1 < body.length) :
    (∃ body', ys = body' ++ tail ∧
        body'.foldl step s ≠ body.foldl step s) ∨
      ∃ tail', ys = body ++ tail' ∧ tail'.length = tail.length ∧
        tail' ≠ tail := by
  cases hchanged with
  | @one i a b hi ha hne =>
      by_cases hin : i < body.length
      · rw [List.getElem?_append_left hin] at ha
        exact Or.inl ⟨body.set i b, List.set_append_left i b hin,
          h.foldl_set s ha hne⟩
      · rw [Nat.not_lt] at hin
        rw [List.getElem?_append_right hin] at ha
        exact Or.inr ⟨tail.set (i - body.length) b,
          List.set_append_right i b hin, List.length_set,
          set_ne_self ha hne⟩
  | @two i a b a' b' hi ha hb hne =>
      have hin := hpair i hi
      rw [List.getElem?_append_left (Nat.lt_of_succ_lt hin)] at ha
      rw [List.getElem?_append_left hin] at hb
      left
      refine ⟨(body.set i a').set (i + 1) b', ?_,
        h.foldl_set_two s ha hb hne⟩
      rw [List.set_append_left i a' (Nat.lt_of_succ_lt hin),
        List.set_append_left (i + 1) b' (by rwa [List.length_set])]

end Positions

/-! ## Reflected 16-bit checksums -/

/-- The low byte and the symbol select an entry of the table, and the high
byte moves down. -/
def reflectedStep (table : UInt8 → UInt16) (s : UInt16) (b : UInt8) :
    UInt16 :=
  (s >>> 8) ^^^ table (b ^^^ s.toUInt8)

theorem toNat_high (s : UInt16) : (s >>> 8).toNat = s.toNat / 256 := by
  simp [Nat.shiftRight_eq_div_pow]

theorem shift_shift (s : UInt16) : s >>> 8 >>> 8 = 0 := by
  apply UInt16.toNat_inj.mp
  have hs := s.toNat_lt
  rw [toNat_high, toNat_high, UInt16.toNat_zero]
  omega

theorem eq_of_halves {s s' : UInt16} (hhigh : s >>> 8 = s' >>> 8)
    (hlow : s.toUInt8 = s'.toUInt8) : s = s' := by
  apply UInt16.toNat_inj.mp
  have hdiv := congrArg UInt16.toNat hhigh
  have hmod := congrArg UInt8.toNat hlow
  rw [toNat_high, toNat_high] at hdiv
  simp at hmod
  omega

section Reflected

variable {table : UInt8 → UInt16}
  (htable : Function.Injective fun x => table x >>> 8)

include htable

theorem entry_of_step {s s' : UInt16} {b b' : UInt8}
    (heq : reflectedStep table s b >>> 8 =
      reflectedStep table s' b' >>> 8) :
    b ^^^ s.toUInt8 = b' ^^^ s'.toUInt8 := by
  apply htable
  simpa only [reflectedStep, UInt16.shiftRight_xor, shift_shift,
    UInt16.zero_xor] using heq

theorem halves_of_step {s s' : UInt16} {b b' : UInt8}
    (heq : reflectedStep table s b = reflectedStep table s' b') :
    s >>> 8 = s' >>> 8 ∧ b ^^^ s.toUInt8 = b' ^^^ s'.toUInt8 := by
  have hhigh : reflectedStep table s b >>> 8 =
      reflectedStep table s' b' >>> 8 := by rw [heq]
  have hentry := entry_of_step htable hhigh
  refine ⟨?_, hentry⟩
  rw [reflectedStep, reflectedStep, hentry] at heq
  exact (UInt16.xor_left_inj _).mp heq

/-- A table whose high bytes are distinct makes a step that detects
changes. -/
theorem reflectedStep_detecting : Detecting (reflectedStep table) where
  state b s s' heq := by
    obtain ⟨hhigh, hentry⟩ := halves_of_step htable heq
    exact eq_of_halves hhigh ((UInt8.xor_right_inj b).mp hentry)
  pair s b c b' c' heq := by
    obtain ⟨hhigh, hentry⟩ := halves_of_step htable heq
    have hfirst : b = b' :=
      (UInt8.xor_left_inj _).mp (entry_of_step htable hhigh)
    subst hfirst
    exact ⟨rfl, (UInt8.xor_left_inj _).mp hentry⟩

end Reflected

/-- One shift of a remainder undone: the polynomial had been added to it
exactly when the top bit is set. -/
def unshift (poly s : ℕ) : ℕ :=
  if s < 2 ^ 15 then 2 * s else 2 * (s ^^^ poly) + 1

/-- Undoing the eight shifts of a table entry leads from its high byte back
to its index. -/
def tableIndex (poly high : ℕ) : ℕ := (unshift poly)^[8] (256 * high) % 256

theorem injective_of_tableIndex {table : UInt8 → UInt16} (poly : ℕ)
    (hindex : ∀ x, tableIndex poly ((table x).toNat / 256) = x.toNat) :
    Function.Injective fun x => table x >>> 8 := by
  intro x y heq
  have hhigh := congrArg UInt16.toNat heq
  simp only [toNat_high] at hhigh
  apply UInt8.toNat_inj.mp
  rw [← hindex x, ← hindex y, hhigh]

/-! ## Bit by bit -/

/-- One shift of a remainder, to which the polynomial is added when a bit
falls out. -/
def shift (poly s : UInt16) : UInt16 :=
  if s &&& 1 = 1 then (s >>> 1) ^^^ poly else s >>> 1

def bitwiseStep (poly s : UInt16) (b : UInt8) : UInt16 :=
  (shift poly)^[8] (s ^^^ b.toUInt16)

/-- The reflected checksum of a polynomial, without a final exclusive or. -/
def bitwise (poly start : UInt16) (bs : List UInt8) : UInt16 :=
  bs.foldl (bitwiseStep poly) start

section Shifts

variable {poly s : UInt16}

theorem low_bit_iff (s : UInt16) : s &&& 1 = 1 ↔ s.toNat % 2 = 1 := by
  rw [← UInt16.toNat_inj, UInt16.toNat_and, UInt16.toNat_one,
    Nat.and_one_is_mod]

theorem shift_even (heven : s.toNat % 2 = 0) : shift poly s = s >>> 1 := by
  apply if_neg
  rw [low_bit_iff, heven]
  exact Nat.zero_ne_one

theorem shift_odd (hodd : s.toNat % 2 = 1) :
    shift poly s = (s >>> 1) ^^^ poly :=
  if_pos ((low_bit_iff s).mpr hodd)

theorem shift_xor (poly a b : UInt16) :
    shift poly (a ^^^ b) = shift poly a ^^^ shift poly b := by
  have hparity : (a ^^^ b).toNat % 2 = (a.toNat + b.toNat) % 2 := by
    rw [UInt16.toNat_xor]
    exact Nat.xor_mod_two_eq
  have hhalves : (a ^^^ b) >>> 1 = (a >>> 1) ^^^ (b >>> 1) :=
    UInt16.shiftRight_xor
  rcases Nat.mod_two_eq_zero_or_one a.toNat with ha | ha <;>
    rcases Nat.mod_two_eq_zero_or_one b.toNat with hb | hb
  · rw [shift_even ha, shift_even hb, shift_even (by omega), hhalves]
  · rw [shift_even ha, shift_odd hb, shift_odd (by omega), hhalves,
      UInt16.xor_assoc]
  · rw [shift_odd ha, shift_even hb, shift_odd (by omega), hhalves,
      UInt16.xor_assoc, UInt16.xor_assoc, UInt16.xor_comm (b >>> 1)]
  · -- The polynomial, added twice, goes away.
    rw [shift_odd ha, shift_odd hb, shift_even (by omega), hhalves,
      UInt16.xor_comm (b >>> 1), UInt16.xor_assoc (a >>> 1),
      ← UInt16.xor_assoc poly, UInt16.xor_self, UInt16.zero_xor]

theorem shifts_xor (poly : UInt16) (k : ℕ) (a b : UInt16) :
    (shift poly)^[k] (a ^^^ b) =
      (shift poly)^[k] a ^^^ (shift poly)^[k] b := by
  induction k generalizing a b with
  | zero => rfl
  | succ k ih =>
      rw [Function.iterate_succ_apply, Function.iterate_succ_apply,
        Function.iterate_succ_apply, shift_xor, ih]

/-- Zero bits fall out of a remainder without adding the polynomial. -/
theorem toNat_shifts {n : ℕ} (k : ℕ) (hs : s.toNat = 2 ^ k * n) :
    ((shift poly)^[k] s).toNat = n := by
  induction k generalizing s with
  | zero => simpa using hs
  | succ k ih =>
      have hdouble : s.toNat = 2 * (2 ^ k * n) := by
        rw [hs, pow_succ', mul_assoc]
      rw [Function.iterate_succ_apply]
      apply ih
      rw [shift_even (by omega), UInt16.toNat_shiftRight, UInt16.toNat_one,
        Nat.one_mod, Nat.shiftRight_one, hdouble]
      omega

theorem shifts_high (poly s : UInt16) :
    (shift poly)^[8] (s ^^^ s.toUInt8.toUInt16) = s >>> 8 := by
  have hlow : (s ^^^ s.toUInt8.toUInt16).toNat % 2 ^ 8 = 0 := by
    rw [UInt16.toNat_xor, Nat.xor_mod_two_pow, UInt8.toNat_toUInt16,
      UInt16.toNat_toUInt8, Nat.mod_mod, Nat.xor_self]
  have hhigh : (s ^^^ s.toUInt8.toUInt16).toNat / 2 ^ 8 = s.toNat / 256 := by
    have hbyte : s.toNat % 2 ^ 8 < 2 ^ 8 := Nat.mod_lt _ (by decide)
    rw [UInt16.toNat_xor, Nat.xor_div_two_pow, UInt8.toNat_toUInt16,
      UInt16.toNat_toUInt8, Nat.div_eq_of_lt hbyte, Nat.xor_zero]
  apply UInt16.toNat_inj.mp
  rw [toNat_high]
  exact toNat_shifts 8 (by omega)

end Shifts

/-- Eight shifts at once: the table holds those of the low byte, and the high
byte moves down. -/
theorem bitwiseStep_eq (poly : UInt16) :
    bitwiseStep poly =
      reflectedStep fun x => (shift poly)^[8] x.toUInt16 := by
  funext s b
  have hsplit (x : UInt16) :
      x = (x ^^^ x.toUInt8.toUInt16) ^^^ x.toUInt8.toUInt16 := by
    rw [UInt16.xor_assoc, UInt16.xor_self, UInt16.xor_zero]
  have hlow : (s ^^^ b.toUInt16).toUInt8 = b ^^^ s.toUInt8 := by
    rw [UInt16.toUInt8_xor, UInt8.toUInt8_toUInt16, UInt8.xor_comm]
  have hbyte : b.toUInt16 >>> 8 = 0 := by
    apply UInt16.toNat_inj.mp
    rw [toNat_high]
    exact Nat.div_eq_of_lt b.toNat_lt
  have hhigh : (s ^^^ b.toUInt16) >>> 8 = s >>> 8 := by
    rw [UInt16.shiftRight_xor, hbyte, UInt16.xor_zero]
  rw [bitwiseStep, hsplit (s ^^^ b.toUInt16), shifts_xor, shifts_high, hhigh,
    hlow]
  rfl

end Checksums
