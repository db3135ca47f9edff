import DronesmithEngine.Vehicle
import Mathlib.Tactic

/-!
# Names of parameters

A parameter's id is an array of bytes.  `UpdateFromParam` makes a string of
it, byte by byte, and `SetParam` makes an array of a string, also byte by
byte; in between, a byte from 128 on has become two.
-/

namespace DronesmithEngine.Api.VehicleApi

open Go Mavlink

/-- The bytes of an id in front of its first zero byte. -/
def idBytes (ParamId : Vector UInt8 16) : List UInt8 :=
  ParamId.toList.takeWhile (· ≠ 0)

theorem idBytes_ne_zero {ParamId : Vector UInt8 16} {c : UInt8}
    (hc : c ∈ idBytes ParamId) : c ≠ 0 := by
  have hall := List.all_takeWhile (l := ParamId.toList)
    (p := fun c : UInt8 => decide (c ≠ 0))
  simpa using List.all_eq_true.mp hall c hc

theorem length_idBytes_le (ParamId : Vector UInt8 16) :
    (idBytes ParamId).length ≤ 16 := by
  have hle := (List.takeWhile_prefix (l := ParamId.toList)
    (fun c : UInt8 => decide (c ≠ 0))).length_le
  rwa [Vector.length_toList] at hle

def Ascii (name : List UInt8) : Prop := ∀ c ∈ name, c < 0x80

theorem stringOfByte_of_lt {c : UInt8} (hc : c < 0x80) :
    stringOfByte c = [c] := if_pos hc

theorem length_stringOfByte_of_ge {c : UInt8} (hc : ¬ c < 0x80) :
    (stringOfByte c).length = 2 := by
  rw [stringOfByte, if_neg hc]
  rfl

theorem one_le_length_stringOfByte (c : UInt8) :
    1 ≤ (stringOfByte c).length := by
  unfold stringOfByte
  split
  · exact le_rfl
  · exact Nat.le_succ 1

theorem or_ne_zero {a : UInt8} (ha : a ≠ 0) (x : UInt8) : a ||| x ≠ 0 :=
  fun hzero => ha (UInt8.or_eq_zero_iff.mp hzero).1

/-- Both bytes of a code point have their highest bit set. -/
theorem stringOfByte_ne_zero {c : UInt8} (hc : c ≠ 0) :
    ∀ b ∈ stringOfByte c, b ≠ 0 := by
  unfold stringOfByte
  split
  · rw [List.forall_mem_singleton]
    exact hc
  · rw [List.forall_mem_cons, List.forall_mem_singleton]
    exact ⟨or_ne_zero (by decide) _, or_ne_zero (by decide) _⟩

theorem flatMap_stringOfByte {name : List UInt8} (hname : Ascii name) :
    name.flatMap stringOfByte = name := by
  induction name with
  | nil => rfl
  | cons c rest ih =>
      rw [List.flatMap_cons, stringOfByte_of_lt (hname c List.mem_cons_self),
        ih fun b hb => hname b (List.mem_cons_of_mem c hb)]
      rfl

theorem length_le_flatMap (name : List UInt8) :
    name.length ≤ (name.flatMap stringOfByte).length := by
  induction name with
  | nil => exact le_rfl
  | cons c rest ih =>
      have hone := one_le_length_stringOfByte c
      rw [List.flatMap_cons, List.length_append, List.length_cons]
      omega

theorem ascii_of_length {name : List UInt8}
    (hlength : (name.flatMap stringOfByte).length = name.length) :
    Ascii name := by
  induction name with
  | nil => intro c hc; cases hc
  | cons c rest ih =>
      have hone := one_le_length_stringOfByte c
      have hrest := length_le_flatMap rest
      rw [List.flatMap_cons, List.length_append, List.length_cons] at hlength
      intro b hb
      rcases List.mem_cons.mp hb with rfl | hmem
      · by_contra hhigh
        have htwo := length_stringOfByte_of_ge hhigh
        omega
      · exact ih (by omega) b hmem

theorem paramName_ne_zero {ParamId : Vector UInt8 16} {b : UInt8}
    (hb : b ∈ paramName ParamId) : b ≠ 0 := by
  obtain ⟨c, hc, hmem⟩ := List.mem_flatMap.mp hb
  exact stringOfByte_ne_zero (idBytes_ne_zero hc) b hmem

/-- The array that `SetParam` makes of a name, where it makes one. -/
def padded (name : List UInt8) : Vector UInt8 16 :=
  Vector.ofFn fun i => name.getD i.val 0

/-- Two names without zero bytes that fit are padded to the same array only
if they have one length. -/
theorem length_le_of_padded {name other : List UInt8}
    (hname : ∀ b ∈ name, b ≠ 0) (hfits : name.length ≤ 16)
    (hpadded : padded name = padded other) : name.length ≤ other.length := by
  by_contra hlt
  have hi : other.length < name.length := not_le.mp hlt
  have hbound : other.length < 16 := hi.trans_le hfits
  have hat := congrArg
    (fun bytes : Vector UInt8 16 => bytes[other.length]) hpadded
  simp only [padded, Vector.getElem_ofFn, List.getD_eq_getElem?_getD,
    List.getElem?_eq_getElem hi, Option.getD_some,
    List.getElem?_eq_none le_rfl, Option.getD_none] at hat
  exact hname _ (List.getElem_mem hi) hat

variable (v : VehicleApi) (m : Mavlink.ParamValue) (now : Time)

theorem SetParam_of_le {name : List UInt8} (hfits : name.length ≤ 16)
    (value : Float32) :
    v.SetParam name value =
      .ok
        { ParamValue := value
          TargetSystem := v.GetSystemId
          TargetComponent := 0
          ParamId := padded name
          ParamType := ((v.params.lookup name).map Param.Encode).getD 0 } :=
  if_pos hfits

theorem SetParam_of_gt {name : List UInt8} (hlong : 16 < name.length)
    (value : Float32) : v.SetParam name value = .error .indexOutOfRange :=
  if_neg (not_le.mpr hlong)

/-- Setting the parameter that a message was about sends its id, up to the
first zero byte, and its type. -/
def SetsParam (value : Float32) : Prop :=
  ∃ set, (v.UpdateFromParam m now).SetParam (paramName m.ParamId) value =
      .ok set ∧
    set.ParamId = padded (idBytes m.ParamId) ∧ set.ParamType = m.ParamType ∧
      set.ParamValue = value

theorem lookup_UpdateFromParam :
    (v.UpdateFromParam m now).params.lookup (paramName m.ParamId) =
      some ⟨m.ParamIndex.toUInt64, m.ParamValue, m.ParamType⟩ :=
  Finmap.lookup_insert _

theorem setsParam_iff (value : Float32) :
    v.SetsParam m now value ↔ Ascii (idBytes m.ParamId) := by
  constructor
  · rintro ⟨set, hset, hid, -, -⟩
    apply ascii_of_length
    have hfits : (paramName m.ParamId).length ≤ 16 := by
      by_contra hlong
      rw [SetParam_of_gt _ (not_le.mp hlong)] at hset
      cases hset
    rw [SetParam_of_le _ hfits] at hset
    cases hset
    have hle := length_le_of_padded (fun _ => paramName_ne_zero) hfits hid
    exact le_antisymm hle (length_le_flatMap _)
  · intro hascii
    have hname : paramName m.ParamId = idBytes m.ParamId :=
      flatMap_stringOfByte hascii
    have hfits : (paramName m.ParamId).length ≤ 16 := by
      rw [hname]
      exact length_idBytes_le m.ParamId
    refine ⟨_, SetParam_of_le _ hfits value, by rw [hname], ?_, rfl⟩
    rw [lookup_UpdateFromParam]
    rfl

/-- The names that come from a message, and those that are too long for
one. -/
theorem SetParam_sets_iff (value : Float32) :
    (v.SetsParam m now value ↔ Ascii (idBytes m.ParamId)) ∧
    ∀ name : List UInt8, 16 < name.length →
      v.SetParam name value = .error .indexOutOfRange ∧
      ∀ (vehicle : Vehicle) params,
        Vehicle.SetParam name value params vehicle =
          (.error .indexOutOfRange, vehicle) := by
  refine ⟨v.setsParam_iff m now value, fun name hlong => ?_⟩
  refine ⟨v.SetParam_of_gt hlong value, fun vehicle params => ?_⟩
  rw [Vehicle.SetParam, Effect.read_bind,
    vehicle.api.SetParam_of_gt hlong value, Effect.lift_error_bind]

/-- A name of seventeen bytes. -/
theorem SetParam_sets_iff_seventeen :
    VehicleApi.SetParam {} (List.replicate 17 65) 0 =
      .error .indexOutOfRange :=
  ((SetParam_sets_iff {} {} 0 0).2 (List.replicate 17 65) (by decide)).1

/-- An id of the byte 233: the parameter is stored under a name of two
bytes. -/
theorem latin_id_is_changed :
    ¬ ∀ (v : VehicleApi) (m : Mavlink.ParamValue) now value,
      v.SetsParam m now value := by
  intro hall
  let m : Mavlink.ParamValue :=
    { ParamId := (Vector.replicate 16 0).set 0 233 }
  have hascii := (setsParam_iff {} m 0 0).mp (hall {} m 0 0)
  exact absurd (hascii 233 (by decide)) (by decide)

end DronesmithEngine.Api.VehicleApi
