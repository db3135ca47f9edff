import DronesmithEngine.BufferedIO
import DronesmithEngine.GoRuntime
import Mathlib.Tactic

/-!
# Byte slices: signed bounds, big-endian numbers, readers

`binary.BigEndian` and `bytes.Reader` as far as fixed-size fields need them.
A read that finds too little leaves the rest of its buffer as it was, which
is zero.
-/

namespace Go

open BufferedIO

/-- `xs[lo:hi]` with bounds that can be negative. -/
def sliceInt {α : Type} (xs : List α) (lo hi : ℤ) : Checked (List α) :=
  if 0 ≤ lo ∧ 0 ≤ hi then slice xs lo.toNat hi.toNat
  else .error .sliceBounds

theorem sliceInt_natCast {α : Type} (xs : List α) (lo hi : ℕ) :
    sliceInt xs lo hi = slice xs lo hi := by
  simp [sliceInt]

/-! ## Big-endian numbers -/

namespace BigEndian

def PutUint16 (v : UInt16) : List UInt8 := [(v >>> 8).toUInt8, v.toUInt8]

def Uint16 (b : List UInt8) : Checked UInt16 := do
  let lo ← index b 1
  let hi ← index b 0
  pure (lo.toUInt16 ||| (hi.toUInt16 <<< 8))

def PutUint32 (v : UInt32) : List UInt8 :=
  [(v >>> 24).toUInt8, (v >>> 16).toUInt8, (v >>> 8).toUInt8, v.toUInt8]

def Uint32 (b : List UInt8) : Checked UInt32 := do
  let b3 ← index b 3
  let b2 ← index b 2
  let b1 ← index b 1
  let b0 ← index b 0
  pure (b3.toUInt32 ||| (b2.toUInt32 <<< 8) ||| (b1.toUInt32 <<< 16) |||
    (b0.toUInt32 <<< 24))

theorem Uint16_ok {b : List UInt8} (hlen : b.length = 2) :
    ∃ v, Uint16 b = .ok v := by
  obtain ⟨hi, lo, rfl⟩ := List.length_eq_two.mp hlen
  exact ⟨_, rfl⟩

theorem Uint32_ok {b : List UInt8} (hlen : b.length = 4) :
    ∃ v, Uint32 b = .ok v := by
  match b, hlen with
  | [b0, b1, b2, b3], _ => exact ⟨_, rfl⟩

@[simp] theorem length_PutUint16 (v : UInt16) : (PutUint16 v).length = 2 :=
  rfl

@[simp] theorem length_PutUint32 (v : UInt32) : (PutUint32 v).length = 4 :=
  rfl

theorem toNat_join16 (lo hi : UInt8) :
    (lo.toUInt16 ||| (hi.toUInt16 <<< 8)).toNat =
      lo.toNat + hi.toNat * 256 := by
  have hlo := lo.toNat_lt
  have hhi := hi.toNat_lt
  have hor := Nat.shiftLeft_add_eq_or_of_lt
    (show lo.toNat < 2 ^ 8 from hlo) hi.toNat
  have hfits : hi.toNat <<< 8 < 65536 := by
    rw [Nat.shiftLeft_eq]
    omega
  have hshift : (8 : UInt16).toNat % 16 = 8 := rfl
  rw [UInt16.toNat_or, UInt16.toNat_shiftLeft, UInt8.toNat_toUInt16,
    UInt8.toNat_toUInt16, hshift, Nat.mod_eq_of_lt hfits, Nat.or_comm,
    ← hor, Nat.shiftLeft_eq]
  omega

/-- Joining a higher byte to `k` lower bits. -/
theorem toNat_join32 {lo : UInt32} (hi : UInt8) {k : ℕ} (hk : k ≤ 24)
    (hlo : lo.toNat < 2 ^ k) :
    (lo ||| (hi.toUInt32 <<< UInt32.ofNat k)).toNat =
      lo.toNat + hi.toNat * 2 ^ k := by
  have hhi := hi.toNat_lt
  have hor := Nat.shiftLeft_add_eq_or_of_lt hlo hi.toNat
  have hpow : 2 ^ k ≤ 2 ^ 24 := Nat.pow_le_pow_right (by decide) hk
  have hfits : hi.toNat <<< k < 2 ^ 32 := by
    rw [Nat.shiftLeft_eq]
    nlinarith
  have hshift : (UInt32.ofNat k).toNat % 32 = k := by
    rw [UInt32.toNat_ofNat']
    omega
  rw [UInt32.toNat_or, UInt32.toNat_shiftLeft, UInt8.toNat_toUInt32, hshift,
    Nat.mod_eq_of_lt hfits, Nat.or_comm, ← hor, Nat.shiftLeft_eq]
  omega

theorem toNat_bytes32 (b0 b1 b2 b3 : UInt8) :
    (b3.toUInt32 ||| (b2.toUInt32 <<< 8) ||| (b1.toUInt32 <<< 16) |||
      (b0.toUInt32 <<< 24)).toNat =
        b3.toNat + b2.toNat * 2 ^ 8 + b1.toNat * 2 ^ 16 +
          b0.toNat * 2 ^ 24 := by
  have h0 := b0.toNat_lt
  have h1 := b1.toNat_lt
  have h2 := b2.toNat_lt
  have h3 := b3.toNat_lt
  have hone : b3.toUInt32.toNat = b3.toNat := UInt8.toNat_toUInt32 b3
  have htwo := toNat_join32 b2 (by decide) (show b3.toUInt32.toNat < 2 ^ 8 by
    omega)
  have hthree := toNat_join32 b1 (by decide) (show _ < 2 ^ 16 by
    rw [htwo]
    omega)
  have hfour := toNat_join32 b0 (by decide) (show _ < 2 ^ 24 by
    rw [hthree]
    omega)
  exact hfour.trans (by omega)

theorem join_PutUint16 (v : UInt16) :
    v.toUInt8.toUInt16 ||| ((v >>> 8).toUInt8.toUInt16 <<< 8) = v := by
  apply UInt16.toNat_inj.mp
  have hv := v.toNat_lt
  rw [toNat_join16]
  simp [Nat.shiftRight_eq_div_pow]
  omega

theorem Uint16_PutUint16 (v : UInt16) : Uint16 (PutUint16 v) = .ok v := by
  simp only [Uint16, PutUint16, index, List.getElem?_cons_succ,
    List.getElem?_cons_zero, ok_bind, pure_eq_ok, join_PutUint16]

theorem PutUint16_injective : Function.Injective PutUint16 := by
  intro v w heq
  have hok := congrArg Uint16 heq
  rw [Uint16_PutUint16, Uint16_PutUint16] at hok
  exact Except.ok.inj hok

theorem PutUint16_join (lo hi : UInt8) :
    PutUint16 (lo.toUInt16 ||| (hi.toUInt16 <<< 8)) = [hi, lo] := by
  have hlo := lo.toNat_lt
  have hhi := hi.toNat_lt
  have hfirst : ((lo.toUInt16 ||| (hi.toUInt16 <<< 8)) >>> 8).toUInt8 =
      hi := by
    apply UInt8.toNat_inj.mp
    rw [UInt16.toNat_toUInt8, UInt16.toNat_shiftRight, toNat_join16]
    simp [Nat.shiftRight_eq_div_pow]
    omega
  have hsecond : (lo.toUInt16 ||| (hi.toUInt16 <<< 8)).toUInt8 = lo := by
    apply UInt8.toNat_inj.mp
    rw [UInt16.toNat_toUInt8, toNat_join16]
    omega
  rw [PutUint16, hfirst, hsecond]

theorem join_PutUint32 (v : UInt32) :
    v.toUInt8.toUInt32 ||| ((v >>> 8).toUInt8.toUInt32 <<< 8) |||
      ((v >>> 16).toUInt8.toUInt32 <<< 16) |||
        ((v >>> 24).toUInt8.toUInt32 <<< 24) = v := by
  apply UInt32.toNat_inj.mp
  have hv := v.toNat_lt
  rw [toNat_bytes32]
  simp [Nat.shiftRight_eq_div_pow]
  omega

theorem Uint32_PutUint32 (v : UInt32) : Uint32 (PutUint32 v) = .ok v := by
  simp only [Uint32, PutUint32, index, List.getElem?_cons_succ,
    List.getElem?_cons_zero, ok_bind, pure_eq_ok, join_PutUint32]

theorem PutUint32_join (b0 b1 b2 b3 : UInt8) :
    PutUint32 (b3.toUInt32 ||| (b2.toUInt32 <<< 8) |||
      (b1.toUInt32 <<< 16) ||| (b0.toUInt32 <<< 24)) = [b0, b1, b2, b3] := by
  have h0 := b0.toNat_lt
  have h1 := b1.toNat_lt
  have h2 := b2.toNat_lt
  have h3 := b3.toNat_lt
  have hjoin := toNat_bytes32 b0 b1 b2 b3
  rw [PutUint32, List.cons_eq_cons, List.cons_eq_cons, List.cons_eq_cons,
    List.cons_eq_cons]
  refine ⟨?_, ?_, ?_, ?_, rfl⟩
  · apply UInt8.toNat_inj.mp
    rw [UInt32.toNat_toUInt8, UInt32.toNat_shiftRight, hjoin]
    simp [Nat.shiftRight_eq_div_pow]
    omega
  · apply UInt8.toNat_inj.mp
    rw [UInt32.toNat_toUInt8, UInt32.toNat_shiftRight, hjoin]
    simp [Nat.shiftRight_eq_div_pow]
    omega
  · apply UInt8.toNat_inj.mp
    rw [UInt32.toNat_toUInt8, UInt32.toNat_shiftRight, hjoin]
    simp [Nat.shiftRight_eq_div_pow]
    omega
  · apply UInt8.toNat_inj.mp
    rw [UInt32.toNat_toUInt8, hjoin]
    omega

theorem PutUint32_surjective (b : List UInt8) (hlen : b.length = 4) :
    ∃ v, PutUint32 v = b := by
  match b, hlen with
  | [b0, b1, b2, b3], _ => exact ⟨_, PutUint32_join b0 b1 b2 b3⟩

theorem PutUint32_injective : Function.Injective PutUint32 := by
  intro v w heq
  have hok := congrArg Uint32 heq
  rw [Uint32_PutUint32, Uint32_PutUint32] at hok
  exact Except.ok.inj hok

end BigEndian

/-! ## `bytes.Reader` -/

structure BytesReader where
  s : List UInt8
  i : ℕ

namespace BytesReader

/-- A buffer of `n` bytes after `got` was copied into it. -/
def fill (n : ℕ) (got : List UInt8) : List UInt8 :=
  got ++ List.replicate (n - got.length) 0

/-- `Read` into a buffer of `n` bytes, which the result contains. -/
def Read (r : BytesReader) (n : ℕ) :
    (List UInt8 × Option ReadError) × BytesReader :=
  if r.s.length ≤ r.i then ((fill n [], some .eof), r)
  else
    let got := (r.s.drop r.i).take n
    ((fill n got, none), { r with i := r.i + got.length })

def ReadByte (r : BytesReader) : (UInt8 × Option ReadError) × BytesReader :=
  match r.s[r.i]? with
  | some b => ((b, none), { r with i := r.i + 1 })
  | none => ((0, some .eof), r)

def ReadAt (r : BytesReader) (n off : ℕ) : List UInt8 × Option ReadError :=
  if r.s.length ≤ off then (fill n [], some .eof)
  else
    let got := (r.s.drop off).take n
    (fill n got, if got.length < n then some .eof else none)

@[simp] theorem length_fill {n : ℕ} {got : List UInt8}
    (hle : got.length ≤ n) : (fill n got).length = n := by
  rw [fill, List.length_append, List.length_replicate]
  omega

theorem fill_length (got : List UInt8) : fill got.length got = got := by
  rw [fill, Nat.sub_self, List.replicate_zero, List.append_nil]

theorem Read_cases (r : BytesReader) (n : ℕ) :
    ∃ seg err i, r.Read n = ((seg, err), { r with i := i }) ∧
      seg.length = n := by
  unfold Read
  split
  · exact ⟨fill n [], some .eof, r.i, rfl, length_fill (Nat.zero_le n)⟩
  · exact ⟨_, none, _, rfl, length_fill (List.length_take_le n _)⟩

theorem ReadByte_cases (r : BytesReader) :
    ∃ b err i, r.ReadByte = ((b, err), { r with i := i }) := by
  unfold ReadByte
  split
  · exact ⟨_, none, _, rfl⟩
  · exact ⟨0, some .eof, r.i, rfl⟩

theorem length_ReadAt (r : BytesReader) (n off : ℕ) :
    (r.ReadAt n off).1.length = n := by
  unfold ReadAt
  split
  · exact length_fill (Nat.zero_le n)
  · exact length_fill (List.length_take_le n _)

section

variable (before got after : List UInt8) {n off : ℕ}

theorem inside (hoff : before.length = off) (hin : got ++ after ≠ []) :
    ¬ (before ++ (got ++ after)).length ≤ off := by
  have hpos := List.length_pos_iff.mpr hin
  simp only [List.length_append] at hpos ⊢
  omega

/-- Reads in the middle find what is there. -/
theorem Read_append (hoff : before.length = off) (hlen : got.length = n)
    (hin : got ++ after ≠ []) :
    Read ⟨before ++ (got ++ after), off⟩ n =
      ((got, none), ⟨before ++ (got ++ after), off + n⟩) := by
  unfold Read
  rw [if_neg (inside before got after hoff hin)]
  subst hoff
  subst hlen
  simp only [List.drop_left, List.take_left, fill_length]

theorem ReadAt_append (hoff : before.length = off) (hlen : got.length = n)
    (hin : got ++ after ≠ []) (i : ℕ) :
    ReadAt ⟨before ++ (got ++ after), i⟩ n off = (got, none) := by
  unfold ReadAt
  rw [if_neg (inside before got after hoff hin)]
  subst hoff
  subst hlen
  simp only [List.drop_left, List.take_left, lt_irrefl, if_false,
    fill_length]

end

/-- A read of bytes that are not all there finds the end of input. -/
theorem ReadAt_short {r : BytesReader} {n off : ℕ}
    (hshort : r.s.length ≤ off ∨ r.s.length < off + n) :
    ∃ got, r.ReadAt n off = (got, some .eof) := by
  unfold ReadAt
  split
  next => exact ⟨_, rfl⟩
  next hlt =>
    have hcount : ((r.s.drop off).take n).length < n := by
      rw [List.length_take, List.length_drop]
      omega
    refine ⟨fill n ((r.s.drop off).take n), ?_⟩
    simp only [hcount, if_true]

end BytesReader

end Go
