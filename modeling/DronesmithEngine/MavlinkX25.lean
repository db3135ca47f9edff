import DronesmithEngine.Checksums
import Mathlib.Tactic

/-!
# The X25 checksum

`mavlink/x25/x25.go`.  The checksum state is the 16-bit register itself.
-/

namespace DronesmithEngine.Mavlink.X25

open Checksums

def New : UInt16 := 0xffff

def WriteByte (crc : UInt16) (b : UInt8) : UInt16 :=
  let tmp := b ^^^ (crc &&& 0xff).toUInt8
  let tmp := tmp ^^^ (tmp <<< 4)
  (crc >>> 8) ^^^ (tmp.toUInt16 <<< 8) ^^^ (tmp.toUInt16 <<< 3) ^^^
    (tmp.toUInt16 >>> 4)

def Write (crc : UInt16) (p : List UInt8) : UInt16 :=
  p.foldl WriteByte crc

theorem Write_append (crc : UInt16) (p q : List UInt8) :
    Write crc (p ++ q) = Write (Write crc p) q := by
  simp [Write]

/-! ## Changes are detected -/

/-- What the low byte of the register, combined with a byte, adds to it. -/
def entry (x : UInt8) : UInt16 :=
  let tmp := x ^^^ (x <<< 4)
  (tmp.toUInt16 <<< 8) ^^^ (tmp.toUInt16 <<< 3) ^^^ (tmp.toUInt16 >>> 4)

theorem entries_lead_back :
    ∀ i ∈ List.range 256,
      tableIndex 0x8408 ((entry i.toUInt8).toNat / 256) = i := by
  decide +kernel

theorem entry_injective : Function.Injective fun x => entry x >>> 8 := by
  apply injective_of_tableIndex 0x8408
  intro x
  have hback := entries_lead_back x.toNat (List.mem_range.mpr x.toNat_lt)
  rw [Nat.toUInt8_eq, UInt8.ofNat_toNat] at hback
  exact hback

theorem toUInt8_low (crc : UInt16) : (crc &&& 0xff).toUInt8 = crc.toUInt8 := by
  apply UInt8.toNat_inj.mp
  have hmask := Nat.and_two_pow_sub_one_eq_mod (crc.toNat % 256) 8
  simp at hmask ⊢
  rw [hmask]

theorem WriteByte_eq : WriteByte = reflectedStep entry := by
  funext crc b
  rw [WriteByte, toUInt8_low]
  simp only [reflectedStep, entry, UInt16.xor_assoc]

theorem WriteByte_detecting : Detecting WriteByte := by
  rw [WriteByte_eq]
  exact reflectedStep_detecting entry_injective

/-! ## Bit by bit -/

def Sum16 (crc : UInt16) : UInt16 := crc

theorem entry_eq (x : UInt8) : entry x = (shift 0x8408)^[8] x.toUInt16 := by
  have hall : ∀ i ∈ List.range 256,
      entry i.toUInt8 = (shift 0x8408)^[8] i.toUInt16 := by
    decide +kernel
  have hentry := hall x.toNat (List.mem_range.mpr x.toNat_lt)
  rw [Nat.toUInt8_eq, UInt8.ofNat_toNat] at hentry
  rw [hentry]
  exact congrArg _ (UInt16.toNat_inj.mp (by simp))

/-- The checksum is the bitwise one of the reflected polynomial, and can be
written in parts. -/
theorem Sum16_eq_bitwise (p : List UInt8) :
    Sum16 (Write New p) = bitwise 0x8408 0xffff p ∧
      ∀ crc q, Write (Write crc p) q = Write crc (p ++ q) := by
  refine ⟨?_, fun crc q => (Write_append crc p q).symm⟩
  have hstep : WriteByte = bitwiseStep 0x8408 := by
    rw [WriteByte_eq, bitwiseStep_eq]
    exact congrArg reflectedStep (funext entry_eq)
  rw [Sum16, Write, New, bitwise, hstep]

example :
    bitwise 0x8408 0xffff [49, 50, 51, 52, 53, 54, 55, 56, 57] = 0x6f91 := by
  decide +kernel

end DronesmithEngine.Mavlink.X25
