import DronesmithEngine.ByteLayout
import Mathlib.Tactic

/-!
# Generated statements

The Go statements that `mavlink/generator/generator.go` writes into `Pack` and
`Unpack`, with their text and their meaning.  A number is its bit pattern, of
a float as of an integer.  Code that does not compile has no meaning, and
neither has code that panics.
-/

namespace DronesmithEngine.Generator

open ByteLayout

abbrev Text := List Char

/-! ## Types -/

inductive GoKind
  | uint
  | int
  | float
  deriving DecidableEq

structure GoPrim where
  kind : GoKind
  bits : ℕ
  deriving DecidableEq

def goPrims : List (String × GoPrim) :=
  [("byte", ⟨.uint, 8⟩), ("uint8", ⟨.uint, 8⟩), ("uint16", ⟨.uint, 16⟩),
    ("uint32", ⟨.uint, 32⟩), ("uint64", ⟨.uint, 64⟩), ("int8", ⟨.int, 8⟩),
    ("int16", ⟨.int, 16⟩), ("int32", ⟨.int, 32⟩), ("int64", ⟨.int, 64⟩),
    ("float32", ⟨.float, 32⟩), ("float64", ⟨.float, 64⟩)]

def goPrim (t : Text) : Option GoPrim :=
  (goPrims.find? fun entry => entry.1.toList = t).map Prod.snd

/-- A type of a field, which may be an array. -/
structure GoFieldType where
  len : Option ℕ
  elem : GoPrim
  deriving DecidableEq

def decimal (s : Text) : Option ℕ :=
  if s ≠ [] ∧ s.all Char.isDigit then some (Nat.ofDigitChars 10 s 0)
  else none

/-- A length that starts with a zero would be octal. -/
def goFieldType (t : Text) : Option GoFieldType :=
  match t with
  | '[' :: rest => do
      let digits := rest.takeWhile (· ≠ ']')
      let n ← if digits.head? = some '0' then none else decimal digits
      let elem ← goPrim ((rest.dropWhile (· ≠ ']')).drop 1)
      some ⟨some n, elem⟩
  | _ => (goPrim t).map (⟨none, ·⟩)

def GoFieldType.count (t : GoFieldType) : ℕ := t.len.getD 1

@[simp] theorem GoFieldType.count_array (n : ℕ) (elem : GoPrim) :
    GoFieldType.count ⟨some n, elem⟩ = n := rfl

/-- Bytes of an element. -/
def GoFieldType.width (t : GoFieldType) : ℕ := t.elem.bits / 8

theorem GoFieldType.width_bytes (len : Option ℕ) :
    GoFieldType.width ⟨len, ⟨.uint, 8⟩⟩ = 1 := by
  change 8 / 8 = 1
  rfl

def GoFieldType.size (t : GoFieldType) : ℕ := t.count * t.width

/-- The bit patterns of a field: one, or one for each element. -/
def GoFieldType.WellTyped (t : GoFieldType) (value : List ℕ) : Prop :=
  value.length = t.count ∧ ∀ x ∈ value, x < 2 ^ t.elem.bits

/-- The number of a bit pattern. -/
def GoPrim.toInt (t : GoPrim) (x : ℕ) : ℤ :=
  if t.kind = .int ∧ 2 ^ (t.bits - 1) ≤ x then (x : ℤ) - 2 ^ t.bits else x

/-- Conversion to an integer type. -/
def convert (t : GoPrim) (bits x : ℕ) : ℕ := (t.toInt x % 2 ^ bits).toNat

/-! ## Statements -/

inductive GoExpr
  | v
  | self (name : Text)

inductive Offset
  | const (n : ℕ)
  | indexed (base stride : ℕ)

inductive PackStmt
  | index (offset : Offset) (value : GoExpr)
  | putFloat (bits : ℕ) (offset : Offset) (value : GoExpr)
  | putUint (bits : ℕ) (offset : Offset) (value : GoExpr)
  | copyArray (offset : ℕ) (name : Text)
  | rangeLoop (name : Text) (body : PackStmt)

inductive UnpackExpr
  | byteAt (type : Text) (offset : Offset)
  | floatAt (bits : ℕ) (offset : Offset)
  | uintAt (type : Text) (bits : ℕ) (offset : Offset)

inductive UnpackStmt
  | copySlice (name : Text) (lo hi : ℕ)
  | indexLoop (name : Text) (value : UnpackExpr)
  | assign (name : Text) (value : UnpackExpr)

def GoExpr.text : GoExpr → String
  | .v => "v"
  | .self name => "self." ++ String.ofList name

def Offset.text : Offset → String
  | .const n => toString n
  | .indexed base stride => toString base ++ " + i * " ++ toString stride

def PackStmt.text : PackStmt → String
  | .index offset value =>
      "payload[" ++ offset.text ++ "] = byte(" ++ value.text ++ ")"
  | .putFloat bits offset value =>
      "binary.LittleEndian.PutUint" ++ toString bits ++ "(payload[" ++
        offset.text ++ ":], math.Float" ++ toString bits ++ "bits(" ++
          value.text ++ "))"
  | .putUint bits offset value =>
      "binary.LittleEndian.PutUint" ++ toString bits ++ "(payload[" ++
        offset.text ++ ":], uint" ++ toString bits ++ "(" ++ value.text ++
          "))"
  | .copyArray offset name =>
      "copy(payload[" ++ toString offset ++ ":], self." ++
        String.ofList name ++ "[:])"
  | .rangeLoop name body =>
      "for i, v := range self." ++ String.ofList name ++ " \x7b\n" ++
        body.text ++ "\n\x7d"

def UnpackExpr.text : UnpackExpr → String
  | .byteAt type offset =>
      String.ofList type ++ "(p.Payload[" ++ offset.text ++ "])"
  | .floatAt bits offset =>
      "math.Float" ++ toString bits ++ "frombits(binary.LittleEndian.Uint" ++
        toString bits ++ "(p.Payload[" ++ offset.text ++ ":]))"
  | .uintAt type bits offset =>
      String.ofList type ++ "(binary.LittleEndian.Uint" ++ toString bits ++
        "(p.Payload[" ++ offset.text ++ ":]))"

def UnpackStmt.text : UnpackStmt → String
  | .copySlice name lo hi =>
      "copy(self." ++ String.ofList name ++ "[:], p.Payload[" ++
        toString lo ++ ":" ++ toString hi ++ "])"
  | .indexLoop name value =>
      "for i := 0; i < len(self." ++ String.ofList name ++ "); i++ \x7b\n" ++
        "self." ++ String.ofList name ++ "[i] = " ++ value.text ++ "\n\x7d"
  | .assign name value =>
      "self." ++ String.ofList name ++ " = " ++ value.text

/-! ## Meaning -/

/-- The fields of a message by their names in Go. -/
abbrev Record := Text → List ℕ

/-- The types in the declaration of the message. -/
abbrev FieldTypes := Text → Option GoFieldType

def Offset.eval (i : ℕ) : Offset → ℕ
  | .const n => n
  | .indexed base stride => base + i * stride

/-- `v` is the element of a loop. -/
def GoExpr.eval (types : FieldTypes) (self : Record)
    (v : Option (GoPrim × ℕ)) : GoExpr → Option (GoPrim × ℕ)
  | .v => v
  | .self name =>
      match types name, self name with
      | some ⟨none, elem⟩, [x] => some (elem, x)
      | _, _ => none

/-- `binary.LittleEndian.PutUint16`, `PutUint32` or `PutUint64`. -/
def PutUint (bits : ℕ) (payload : List UInt8) (offset x : ℕ) :
    Option (List UInt8) :=
  if bits ∈ [16, 32, 64] ∧ offset + bits / 8 ≤ payload.length then
    some (splice payload offset (toBytes (bits / 8) x))
  else none

def Uint (bits : ℕ) (payload : List UInt8) (offset : ℕ) : Option ℕ :=
  if bits ∈ [16, 32, 64] ∧ offset + bits / 8 ≤ payload.length then
    some (ofBytes (region payload offset (bits / 8)))
  else none

def PackStmt.exec (types : FieldTypes) (self : Record) :
    PackStmt → ℕ → Option (GoPrim × ℕ) → List UInt8 → Option (List UInt8)
  | .index offset value, i, v, payload => do
      let (t, x) ← value.eval types self v
      if t.kind ≠ .float ∧ offset.eval i < payload.length then
        some (payload.set (offset.eval i) (UInt8.ofNat (convert t 8 x)))
      else none
  | .putFloat bits offset value, i, v, payload => do
      let (t, x) ← value.eval types self v
      if t = ⟨.float, bits⟩ then PutUint bits payload (offset.eval i) x
      else none
  | .putUint bits offset value, i, v, payload => do
      let (t, x) ← value.eval types self v
      if t.kind ≠ .float then
        PutUint bits payload (offset.eval i) (convert t bits x)
      else none
  | .copyArray offset name, _, _, payload =>
      match types name with
      | some ⟨some _, elem⟩ =>
          if elem = ⟨.uint, 8⟩ ∧ offset ≤ payload.length then
            let data := (self name).take (payload.length - offset)
            some (splice payload offset (data.map UInt8.ofNat))
          else none
      | _ => none
  | .rangeLoop name body, _, _, payload =>
      match types name with
      | some ⟨some _, elem⟩ =>
          (self name).zipIdx.foldlM
            (fun payload (x, i) =>
              body.exec types self i (some (elem, x)) payload)
            payload
      | _ => none

def UnpackExpr.eval (payload : List UInt8) (i : ℕ) :
    UnpackExpr → Option (GoPrim × ℕ)
  | .byteAt type offset => do
      let t ← goPrim type
      let b ← payload[offset.eval i]?
      if t.kind ≠ .float then some (t, convert ⟨.uint, 8⟩ t.bits b.toNat)
      else none
  | .floatAt bits offset => do
      let x ← Uint bits payload (offset.eval i)
      some (⟨.float, bits⟩, x)
  | .uintAt type bits offset => do
      let t ← goPrim type
      let x ← Uint bits payload (offset.eval i)
      if t.kind ≠ .float then some (t, convert ⟨.uint, bits⟩ t.bits x)
      else none

/-- One assignment of a loop. -/
def assignElem (name : Text) (elem : GoPrim) (value : UnpackExpr)
    (payload : List UInt8) (self : Record) (i : ℕ) : Option Record := do
  let (t, x) ← value.eval payload i
  if t = elem then
    some (Function.update self name ((self name).set i x))
  else none

def UnpackStmt.exec (types : FieldTypes) (payload : List UInt8)
    (self : Record) : UnpackStmt → Option Record
  | .copySlice name lo hi =>
      match types name with
      | some ⟨some n, elem⟩ =>
          if elem = ⟨.uint, 8⟩ ∧ lo ≤ hi ∧ hi ≤ payload.length then
            let data := (region payload lo (hi - lo)).take n
            some (Function.update self name
              (data.map UInt8.toNat ++ (self name).drop data.length))
          else none
      | _ => none
  | .indexLoop name value =>
      match types name with
      | some ⟨some n, elem⟩ =>
          (List.range n).foldlM (assignElem name elem value payload) self
      | _ => none
  | .assign name value =>
      match types name with
      | some ⟨none, elem⟩ => do
          let (t, x) ← value.eval payload 0
          if t = elem then some (Function.update self name [x]) else none
      | _ => none

/-! ## What the statements do -/

theorem convert_self {t : GoPrim} {x : ℕ} (hx : x < 2 ^ t.bits) :
    convert t t.bits x = x := by
  have hx' : (x : ℤ) < 2 ^ t.bits := by exact_mod_cast hx
  have hmod : (x : ℤ) % 2 ^ t.bits = x :=
    Int.emod_eq_of_lt (Int.natCast_nonneg x) hx'
  rw [convert, GoPrim.toInt]
  split
  · rw [Int.sub_emod, Int.emod_self, sub_zero, Int.emod_emod, hmod,
      Int.toNat_natCast]
  · rw [hmod, Int.toNat_natCast]

/-- The statement stores a number of the type at the offset. -/
def PackStmt.Stores (stmt : PackStmt) (types : FieldTypes) (self : Record)
    (t : GoPrim) (offset : Offset) (value : GoExpr) : Prop :=
  ∀ i v x payload, value.eval types self v = some (t, x) →
    x < 2 ^ t.bits → offset.eval i + t.bits / 8 ≤ payload.length →
      stmt.exec types self i v payload =
        some (splice payload (offset.eval i) (toBytes (t.bits / 8) x))

/-- The expression is the number of the type at the offset. -/
def UnpackExpr.Loads (expr : UnpackExpr) (t : GoPrim) (offset : Offset) :
    Prop :=
  ∀ payload i, offset.eval i + t.bits / 8 ≤ payload.length →
    expr.eval payload i =
      some (t, ofBytes (region payload (offset.eval i) (t.bits / 8)))

section

variable {types : FieldTypes} {self : Record} {t : GoPrim} {offset : Offset}
  {value : GoExpr}

theorem stores_index (hkind : t.kind ≠ .float) (hbits : t.bits = 8) :
    (PackStmt.index offset value).Stores types self t offset value := by
  intro i v x payload hvalue hx hfits
  rw [hbits] at hfits
  have hin : offset.eval i < payload.length := hfits
  have hconvert : convert t 8 x = x := hbits ▸ convert_self hx
  simp only [PackStmt.exec, hvalue, Option.bind_eq_bind, Option.bind_some]
  rw [if_pos ⟨hkind, hin⟩, hconvert, set_eq_splice hin, hbits]
  rfl

theorem stores_putUint (hkind : t.kind ≠ .float)
    (hbits : t.bits ∈ [16, 32, 64]) :
    (PackStmt.putUint t.bits offset value).Stores types self t offset
      value := by
  intro i v x payload hvalue hx hfits
  simp only [PackStmt.exec, hvalue, Option.bind_eq_bind, Option.bind_some]
  rw [if_pos hkind, convert_self hx, PutUint, if_pos ⟨hbits, hfits⟩]

theorem stores_putFloat (hkind : t.kind = .float)
    (hbits : t.bits ∈ [16, 32, 64]) :
    (PackStmt.putFloat t.bits offset value).Stores types self t offset
      value := by
  intro i v x payload hvalue hx hfits
  have hfloat : t = ⟨.float, t.bits⟩ := by rw [← hkind]
  simp only [PackStmt.exec, hvalue, Option.bind_eq_bind, Option.bind_some]
  rw [if_pos hfloat, PutUint, if_pos ⟨hbits, hfits⟩]

theorem loads_byteAt {type : Text} (htype : goPrim type = some t)
    (hkind : t.kind ≠ .float) (hbits : t.bits = 8) :
    (UnpackExpr.byteAt type offset).Loads t offset := by
  intro payload i hfits
  rw [hbits] at hfits
  have hin : offset.eval i < payload.length := hfits
  have hregion : region payload (offset.eval i) 1 =
      [payload[offset.eval i]] := by
    rw [region, List.drop_eq_getElem_cons hin]
    rfl
  have hbyte : payload[offset.eval i].toNat < 2 ^ 8 :=
    payload[offset.eval i].toNat_lt
  rw [UnpackExpr.eval, htype, List.getElem?_eq_getElem hin, hbits, hregion]
  change (if t.kind ≠ .float then _ else _) = _
  rw [if_pos hkind, hbits, convert_self (t := ⟨.uint, 8⟩) hbyte]
  rfl

theorem loads_uintAt {type : Text} (htype : goPrim type = some t)
    (hkind : t.kind ≠ .float) (hbits : t.bits ∈ [16, 32, 64]) :
    (UnpackExpr.uintAt type t.bits offset).Loads t offset := by
  intro payload i hfits
  have hlt := ofBytes_lt (region payload (offset.eval i) (t.bits / 8))
  rw [length_region hfits] at hlt
  have hnumber : ofBytes (region payload (offset.eval i) (t.bits / 8)) <
      2 ^ t.bits := by
    refine hlt.trans_le ?_
    rw [show 256 = 2 ^ 8 from rfl, ← pow_mul]
    exact Nat.pow_le_pow_right (by decide) (Nat.mul_div_le _ _)
  rw [UnpackExpr.eval, htype, Uint, if_pos ⟨hbits, hfits⟩]
  change (if t.kind ≠ .float then _ else _) = _
  rw [if_pos hkind, convert_self (t := ⟨.uint, t.bits⟩) hnumber]

theorem loads_floatAt (hkind : t.kind = .float)
    (hbits : t.bits ∈ [16, 32, 64]) :
    (UnpackExpr.floatAt t.bits offset).Loads t offset := by
  intro payload i hfits
  have hfloat : t = ⟨.float, t.bits⟩ := by rw [← hkind]
  rw [UnpackExpr.eval, Uint, if_pos ⟨hbits, hfits⟩, Option.bind_eq_bind,
    Option.bind_some, ← hfloat]

end

/-- The statement writes the field to the payload. -/
def PackStmt.Packs (stmt : PackStmt) (types : FieldTypes) (name : Text)
    (t : GoFieldType) (offset : ℕ) : Prop :=
  ∀ self payload, t.WellTyped (self name) →
    offset + t.size ≤ payload.length →
      stmt.exec types self 0 none payload =
        some (splice payload offset (wordsToBytes t.width (self name)))

/-- The statement reads the field from the payload. -/
def UnpackStmt.Unpacks (stmt : UnpackStmt) (types : FieldTypes)
    (name : Text) (t : GoFieldType) (offset : ℕ) : Prop :=
  ∀ self payload, (self name).length = t.count →
    offset + t.size ≤ payload.length →
      stmt.exec types payload self =
        some (Function.update self name
          (bytesToWords t.width t.count (region payload offset t.size)))

section

variable {types : FieldTypes} {name : Text} {elem : GoPrim} {offset : ℕ}

theorem packs_scalar {stmt : PackStmt}
    (htype : types name = some ⟨none, elem⟩)
    (hstores : ∀ self, stmt.Stores types self elem (.const offset)
      (.self name)) :
    stmt.Packs types name ⟨none, elem⟩ offset := by
  intro self payload ⟨hcount, hwords⟩ hfits
  obtain ⟨x, hx⟩ := List.length_eq_one_iff.mp hcount
  rw [hx, List.forall_mem_singleton] at hwords
  rw [GoFieldType.size, GoFieldType.count, Option.getD_none, one_mul]
    at hfits
  have hvalue : (GoExpr.self name).eval types self none = some (elem, x) := by
    rw [GoExpr.eval, htype, hx]
  rw [hstores self 0 none x payload hvalue hwords hfits, hx, wordsToBytes,
    List.flatMap_singleton]
  rfl

theorem packs_copyArray {n : ℕ} (helem : elem = ⟨.uint, 8⟩)
    (htype : types name = some ⟨some n, elem⟩) :
    (PackStmt.copyArray offset name).Packs types name ⟨some n, elem⟩
      offset := by
  intro self payload ⟨hcount, _⟩ hfits
  subst helem
  have hfits' : offset + n ≤ payload.length := by
    simpa [GoFieldType.size, GoFieldType.count, GoFieldType.width] using hfits
  have hall : (self name).take (payload.length - offset) = self name := by
    refine List.take_of_length_le ?_
    rw [hcount]
    exact Nat.le_sub_of_add_le' hfits'
  rw [PackStmt.exec, htype]
  change (if _ then _ else _) = _
  rw [if_pos ⟨rfl, by omega⟩, hall, GoFieldType.width_bytes,
    wordsToBytes_one]

/-- One pass of the loop stores one number, right after the ones before. -/
theorem foldlM_stores {self : Record} {body : PackStmt}
    (hbody : body.Stores types self elem
      (.indexed offset (elem.bits / 8)) .v)
    {words : List ℕ} (hwords : ∀ x ∈ words, x < 2 ^ elem.bits) {start : ℕ}
    {payload : List UInt8}
    (hfits : offset + (start + words.length) * (elem.bits / 8) ≤
      payload.length) :
    (words.zipIdx start).foldlM
        (fun payload entry =>
          body.exec types self entry.2 (some (elem, entry.1)) payload)
        payload =
      some (splice payload (offset + start * (elem.bits / 8))
        (wordsToBytes (elem.bits / 8) words)) := by
  induction words generalizing start payload with
  | nil =>
      rw [wordsToBytes, List.flatMap_nil, splice_nil]
      rfl
  | cons x words ih =>
      rw [List.forall_mem_cons] at hwords
      rw [List.length_cons] at hfits
      have hhere : offset + start * (elem.bits / 8) + elem.bits / 8 ≤
          payload.length := by
        refine le_trans ?_ hfits
        rw [add_assoc, ← Nat.succ_mul]
        exact Nat.add_le_add_left (Nat.mul_le_mul_right _ (by omega)) _
      have hstep : body.exec types self start (some (elem, x)) payload =
          some (splice payload (offset + start * (elem.bits / 8))
            (toBytes (elem.bits / 8) x)) :=
        hbody start (some (elem, x)) x payload rfl hwords.1 hhere
      have hlength := length_toBytes (elem.bits / 8) x
      have hlater : offset + (start + 1 + words.length) * (elem.bits / 8) ≤
          (splice payload (offset + start * (elem.bits / 8))
            (toBytes (elem.bits / 8) x)).length := by
        rwa [length_splice (by rwa [hlength]), Nat.add_right_comm start 1]
      have hrest := ih hwords.2 hlater
      have hnext : offset + (start + 1) * (elem.bits / 8) =
          offset + start * (elem.bits / 8) +
            (toBytes (elem.bits / 8) x).length := by
        rw [hlength, Nat.succ_mul, add_assoc]
      rw [List.zipIdx_cons, List.foldlM_cons]
      change (body.exec types self start (some (elem, x)) payload).bind _ = _
      rw [hstep, Option.bind_some, hrest, hnext,
        splice_splice (by rwa [hlength]), wordsToBytes, wordsToBytes,
        List.flatMap_cons]

theorem packs_rangeLoop {n : ℕ} {body : PackStmt}
    (htype : types name = some ⟨some n, elem⟩)
    (hbody : ∀ self, body.Stores types self elem
      (.indexed offset (elem.bits / 8)) .v) :
    (PackStmt.rangeLoop name body).Packs types name ⟨some n, elem⟩
      offset := by
  intro self payload ⟨hcount, hwords⟩ hfits
  have hfits' : offset + (0 + (self name).length) * (elem.bits / 8) ≤
      payload.length := by
    rw [zero_add, hcount]
    exact hfits
  have hloop := foldlM_stores (hbody self) hwords hfits'
  rw [zero_mul, add_zero] at hloop
  rw [PackStmt.exec, htype]
  exact hloop

theorem unpacks_scalar {value : UnpackExpr}
    (htype : types name = some ⟨none, elem⟩)
    (hloads : value.Loads elem (.const offset)) :
    (UnpackStmt.assign name value).Unpacks types name ⟨none, elem⟩
      offset := by
  intro self payload _ hfits
  rw [GoFieldType.size, GoFieldType.count, Option.getD_none, one_mul]
    at hfits ⊢
  have heval : value.eval payload 0 =
      some (elem, ofBytes (region payload offset (elem.bits / 8))) :=
    hloads payload 0 hfits
  have hone : bytesToWords (elem.bits / 8) 1
      (region payload offset (elem.bits / 8)) =
        [ofBytes (region payload offset (elem.bits / 8))] := by
    rw [bytesToWords_succ, region, List.take_take, min_self]
    rfl
  rw [UnpackStmt.exec, htype]
  simp only [heval, Option.bind_eq_bind, Option.bind_some, if_true]
  exact congrArg (fun words => some (Function.update self name words))
    hone.symm

theorem unpacks_copySlice {n : ℕ} (helem : elem = ⟨.uint, 8⟩)
    (htype : types name = some ⟨some n, elem⟩) :
    (UnpackStmt.copySlice name offset (offset + n)).Unpacks types name
      ⟨some n, elem⟩ offset := by
  intro self payload hcount hfits
  subst helem
  rw [GoFieldType.size, GoFieldType.width_bytes, mul_one,
    GoFieldType.count_array] at hfits ⊢
  have hall : (region payload offset (offset + n - offset)).take n =
      region payload offset n := by
    rw [Nat.add_sub_cancel_left]
    exact List.take_of_length_le (length_region hfits).le
  have hwords : bytesToWords 1 n (region payload offset n) =
      (region payload offset n).map UInt8.toNat := by
    have hone := bytesToWords_one (region payload offset n)
    rwa [length_region hfits] at hone
  have hwhole : (self name).drop (region payload offset n).length = [] :=
    List.drop_of_length_le
      (by rw [length_region hfits, hcount]; exact le_refl _)
  rw [UnpackStmt.exec, htype]
  change (if _ then _ else _) = _
  rw [if_pos ⟨rfl, Nat.le_add_right _ _, hfits⟩, hall]
  change some (Function.update self name
    (_ ++ (self name).drop (region payload offset n).length)) = _
  rw [hwhole, List.append_nil, ← hwords]

/-- One pass of the loop assigns one element and keeps those after it. -/
theorem foldlM_assignElem {value : UnpackExpr} {self : Record}
    {payload : List UInt8}
    (hloads : value.Loads elem (.indexed offset (elem.bits / 8))) {k : ℕ}
    (hk : k ≤ (self name).length)
    (hfits : offset + k * (elem.bits / 8) ≤ payload.length) :
    (List.range k).foldlM (assignElem name elem value payload) self =
      some (Function.update self name
        (bytesToWords (elem.bits / 8) k (payload.drop offset) ++
          (self name).drop k)) := by
  induction k with
  | zero =>
      change some self = _
      rw [List.drop_zero]
      exact congrArg some (Function.update_eq_self name self).symm
  | succ k ih =>
      rw [Nat.succ_mul, ← add_assoc] at hfits
      have heval : value.eval payload k =
          some (elem, ofBytes (region payload
            (offset + k * (elem.bits / 8)) (elem.bits / 8))) :=
        hloads payload k hfits
      have hnumber : region payload (offset + k * (elem.bits / 8))
          (elem.bits / 8) =
            region (payload.drop offset) (k * (elem.bits / 8))
              (elem.bits / 8) := by
        rw [region, region, List.drop_drop]
      have hlength :=
        length_bytesToWords (elem.bits / 8) k (payload.drop offset)
      rw [List.range_succ, List.foldlM_append, ih (by omega) (by omega)]
      change (assignElem name elem value payload _ k).bind some = _
      rw [assignElem, heval]
      simp only [Option.bind_eq_bind, Option.bind_some, if_true,
        Function.update_self, Function.update_idem]
      rw [List.set_append_right _ _ hlength.le, hlength, Nat.sub_self,
        List.drop_eq_getElem_cons hk, List.set_cons_zero, hnumber,
        bytesToWords_snoc, List.append_assoc]
      rfl

theorem unpacks_indexLoop {n : ℕ} {value : UnpackExpr}
    (htype : types name = some ⟨some n, elem⟩)
    (hloads : value.Loads elem (.indexed offset (elem.bits / 8))) :
    (UnpackStmt.indexLoop name value).Unpacks types name ⟨some n, elem⟩
      offset := by
  intro self payload hcount hfits
  rw [GoFieldType.count_array] at hcount
  have hloop := foldlM_assignElem hloads (k := n) hcount.ge hfits
  rw [List.drop_of_length_le hcount.le, List.append_nil,
    ← bytesToWords_region] at hloop
  rw [UnpackStmt.exec, htype]
  exact hloop

end

end DronesmithEngine.Generator
