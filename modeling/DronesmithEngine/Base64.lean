import Mathlib.Tactic

/-!
# Base64

The standard encoding: three bytes are four digits of six bits, and a last
group of one or two bytes is filled up with padding.  What was encoded is
decoded again, and the text has no characters but the digits and the padding.
-/

namespace Base64

/-- `A` to `Z`, `a` to `z`, `0` to `9`, `+` and `/`. -/
def alphabet : List UInt8 :=
  ((List.range 26).map (65 + ·) ++ (List.range 26).map (97 + ·) ++
    (List.range 10).map (48 + ·) ++ [43, 47]).map UInt8.ofNat

def padding : UInt8 := 61

def digit (d : ℕ) : UInt8 := alphabet.getD d padding

def value (c : UInt8) : Option ℕ := alphabet.idxOf? c

def join (a b c : UInt8) : ℕ := a.toNat * 65536 + b.toNat * 256 + c.toNat

def encode : List UInt8 → List UInt8
  | [] => []
  | [a] =>
      let n := join a 0 0
      [digit (n / 262144), digit (n / 4096 % 64), padding, padding]
  | [a, b] =>
      let n := join a b 0
      [digit (n / 262144), digit (n / 4096 % 64), digit (n / 64 % 64),
        padding]
  | a :: b :: c :: rest =>
      let n := join a b c
      digit (n / 262144) :: digit (n / 4096 % 64) :: digit (n / 64 % 64) ::
        digit (n % 64) :: encode rest

/-- Padding is for the end of the text only. -/
def decode : List UInt8 → Option (List UInt8)
  | [] => some []
  | w :: x :: y :: z :: rest => do
      let n := (← value w) * 262144 + (← value x) * 4096
      if y = padding ∧ z = padding ∧ rest = [] then
        return [UInt8.ofNat (n / 65536)]
      let n := n + (← value y) * 64
      if z = padding ∧ rest = [] then
        return [UInt8.ofNat (n / 65536), UInt8.ofNat (n / 256)]
      let n := n + (← value z)
      return UInt8.ofNat (n / 65536) :: UInt8.ofNat (n / 256) ::
        UInt8.ofNat n :: (← decode rest)
  | _ => none

/-! ## Digits -/

theorem value_digit : ∀ d < 64, value (digit d) = some d := by
  decide

theorem digit_mem : ∀ d < 64, digit d ∈ alphabet := by
  decide

theorem padding_notMem : padding ∉ alphabet := by
  decide

theorem digit_ne_padding {d : ℕ} (hd : d < 64) : digit d ≠ padding :=
  fun h => padding_notMem (h ▸ digit_mem d hd)

theorem join_lt (a b c : UInt8) : join a b c < 16777216 := by
  have ha := a.toNat_lt
  have hb := b.toNat_lt
  have hc := c.toNat_lt
  unfold join
  omega

theorem first_byte (a b c : UInt8) :
    UInt8.ofNat (join a b c / 65536) = a := by
  have hb := b.toNat_lt
  have hc := c.toNat_lt
  have heq : join a b c / 65536 = a.toNat := by
    unfold join
    omega
  rw [heq, UInt8.ofNat_toNat]

theorem second_byte (a b c : UInt8) :
    UInt8.ofNat (join a b c / 256) = b := by
  have hb := b.toNat_lt
  have hc := c.toNat_lt
  apply UInt8.toNat_inj.mp
  rw [UInt8.toNat_ofNat']
  unfold join
  omega

theorem third_byte (a b c : UInt8) : UInt8.ofNat (join a b c) = c := by
  have hc := c.toNat_lt
  apply UInt8.toNat_inj.mp
  rw [UInt8.toNat_ofNat']
  unfold join
  omega

/-! ## Texts -/

theorem decode_encode (bs : List UInt8) : decode (encode bs) = some bs := by
  induction bs using encode.induct with
  | case1 => rfl
  | case2 a =>
      have hlt := join_lt a 0 0
      have hdigits : join a 0 0 / 262144 * 262144 +
          join a 0 0 / 4096 % 64 * 4096 = join a 0 0 := by
        unfold join
        simp only [UInt8.toNat_zero]
        omega
      have hw := value_digit (join a 0 0 / 262144) (by omega)
      have hx := value_digit (join a 0 0 / 4096 % 64) (by omega)
      simp [encode, decode, hw, hx, hdigits, first_byte]
  | case3 a b =>
      have hlt := join_lt a b 0
      have hdigits : join a b 0 / 262144 * 262144 +
          join a b 0 / 4096 % 64 * 4096 + join a b 0 / 64 % 64 * 64 =
            join a b 0 := by
        unfold join
        simp only [UInt8.toNat_zero]
        omega
      have hw := value_digit (join a b 0 / 262144) (by omega)
      have hx := value_digit (join a b 0 / 4096 % 64) (by omega)
      have hy := value_digit (join a b 0 / 64 % 64) (by omega)
      have hne := digit_ne_padding (d := join a b 0 / 64 % 64) (by omega)
      simp [encode, decode, hw, hx, hy, hne, hdigits, first_byte,
        second_byte]
  | case4 a b c rest ih =>
      have hlt := join_lt a b c
      have hdigits : join a b c / 262144 * 262144 +
          join a b c / 4096 % 64 * 4096 + join a b c / 64 % 64 * 64 +
            join a b c % 64 = join a b c := by omega
      have hw := value_digit (join a b c / 262144) (by omega)
      have hx := value_digit (join a b c / 4096 % 64) (by omega)
      have hy := value_digit (join a b c / 64 % 64) (by omega)
      have hz := value_digit (join a b c % 64) (by omega)
      have hney := digit_ne_padding (d := join a b c / 64 % 64) (by omega)
      have hnez := digit_ne_padding (d := join a b c % 64) (by omega)
      simp [encode, decode, hw, hx, hy, hz, hney, hnez, hdigits, ih,
        first_byte, second_byte, third_byte, -UInt8.ofNat_add]

theorem length_encode (bs : List UInt8) :
    (encode bs).length = 4 * ((bs.length + 2) / 3) := by
  induction bs using encode.induct with
  | case1 => rfl
  | case2 a => simp [encode]
  | case3 a b => simp [encode]
  | case4 a b c rest ih =>
      simp only [encode, List.length_cons, ih]
      omega

/-- The characters of an encoded text. -/
theorem encode_mem {bs : List UInt8} {c : UInt8} (hc : c ∈ encode bs) :
    c ∈ padding :: alphabet := by
  induction bs using encode.induct with
  | case1 => cases hc
  | case2 a =>
      have hlt := join_lt a 0 0
      have hw := digit_mem (join a 0 0 / 262144) (by omega)
      have hx := digit_mem (join a 0 0 / 4096 % 64) (by omega)
      simp only [encode, List.mem_cons, List.not_mem_nil, or_false] at hc ⊢
      rcases hc with rfl | rfl | rfl | rfl
      · exact Or.inr hw
      · exact Or.inr hx
      · exact Or.inl rfl
      · exact Or.inl rfl
  | case3 a b =>
      have hlt := join_lt a b 0
      have hw := digit_mem (join a b 0 / 262144) (by omega)
      have hx := digit_mem (join a b 0 / 4096 % 64) (by omega)
      have hy := digit_mem (join a b 0 / 64 % 64) (by omega)
      simp only [encode, List.mem_cons, List.not_mem_nil, or_false] at hc ⊢
      rcases hc with rfl | rfl | rfl | rfl
      · exact Or.inr hw
      · exact Or.inr hx
      · exact Or.inr hy
      · exact Or.inl rfl
  | case4 a b c rest ih =>
      have hlt := join_lt a b c
      have hw := digit_mem (join a b c / 262144) (by omega)
      have hx := digit_mem (join a b c / 4096 % 64) (by omega)
      have hy := digit_mem (join a b c / 64 % 64) (by omega)
      have hz := digit_mem (join a b c % 64) (by omega)
      simp only [encode, List.mem_cons] at hc
      rcases hc with rfl | rfl | rfl | rfl | hrest
      · exact List.mem_cons_of_mem _ hw
      · exact List.mem_cons_of_mem _ hx
      · exact List.mem_cons_of_mem _ hy
      · exact List.mem_cons_of_mem _ hz
      · exact ih hrest

end Base64
