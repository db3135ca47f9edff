import DronesmithEngine.GeneratedCode

/-!
# Message generator

`mavlink/generator/generator.go` turns the fields that a dialect declares for
a message into a struct with `Pack` and `Unpack`.  It derives the Go type, the
size and the length of a field from the text of its C type, sorts the fields by
size, lays them out and chooses the statements of each.  For every message of
supported types the statements of `Pack` and `Unpack` undo each other.
-/

namespace DronesmithEngine.Generator

open ByteLayout

/-! ## Types of fields -/

inductive GeneratorFailure
  /-- A panic, `c2goPrimitive: unhandled primitive type - %s`. -/
  | unhandledPrimitive (ctype : Text)
  /-- A panic. -/
  | sliceBounds
  /-- The error of `strconv.Atoi`. -/
  | atoi (s : Text)
  /-- The error `Unknown message field size`. -/
  | unknownSize
  /-- A panic, `unhandled bitsize`. -/
  | unhandledBitsize
  deriving DecidableEq

abbrev Generated := Except GeneratorFailure

/-- The first byte is cut off each part, so that a first character of several
bytes falls apart, and each byte is replaced as invalid.  Other letters outside
ASCII keep their case. -/
def UpperCamelCase (s : Text) : Text :=
  (s.splitOn '_').flatMap fun frag =>
    match frag with
    | [] => []
    | c :: rest =>
        let first :=
          if c.utf8Size = 1 then [c.toUpper]
          else List.replicate c.utf8Size (Char.ofNat 0xFFFD)
        first ++ rest.map Char.toLower

def sizedTypes : List String :=
  ["uint8_t", "uint16_t", "uint32_t", "uint64_t", "int8_t", "int16_t",
    "int32_t", "int64_t"]

/-- Necessary for Go's static typing. -/
def c2goPrimitive (ctype : Text) : Generated Text :=
  if ctype ∈ sizedTypes.map String.toList then
    .ok (ctype.takeWhile (· ≠ '_'))
  else if ctype = "char".toList then .ok "byte".toList
  else if ctype = "float".toList then .ok "float32".toList
  else if ctype = "double".toList then .ok "float64".toList
  else if ctype = "uint8_t_mavlink_version".toList then .ok "uint8".toList
  else .error (.unhandledPrimitive ctype)

def goArrayType (s : Text) : Text :=
  if ']' ∈ s then (s.dropWhile (· ≠ ']')).drop 1 else s

/-- An `int` of 64 bits. -/
def Atoi (s : Text) : Generated ℤ :=
  let signed := s.head? = some '-' ∨ s.head? = some '+'
  match decimal (if signed then s.drop 1 else s) with
  | none => .error (.atoi s)
  | some n =>
      if s.head? = some '-' then
        if n ≤ 2 ^ 63 then .ok (-n) else .error (.atoi s)
      else if n < 2 ^ 63 then .ok n
      else .error (.atoi s)

/-- Bit size of a type; an array has that of its elements. -/
def bitSize (name : Text) : Generated ℕ :=
  if "byte".toList <:+ name then .ok 8
  else
    match (goArrayType name).dropWhile (· ∉ "8136".toList) with
    | [] => .error .unknownSize
    | digits => Int.toNat <$> Atoi digits

def GoTypeInfo (s : Text) : Generated (Text × ℕ × ℤ) := do
  let (name, arraylen) ←
    if '[' ∈ s then do
      let idx := s.idxOf '['
      let primitive ← c2goPrimitive (s.take idx)
      if s.length - 1 < idx + 1 then .error .sliceBounds
      else do
        let arraylen ← Atoi ((s.drop (idx + 1)).dropLast)
        pure (s.drop idx ++ primitive, arraylen)
    else do
      let primitive ← c2goPrimitive s
      pure (primitive, 0)
  let bitsz ← bitSize name
  pure (name, bitsz, arraylen)

structure MessageField where
  CType : Text
  Name : Text
  GoType : Text
  /-- Used for generating the packing code, and for sorting the fields. -/
  BitSize : ℕ
  ArrayLen : ℤ
  /-- From the beginning of the payload. -/
  ByteOffset : ℕ
  deriving DecidableEq

namespace MessageField

def IsFloat (f : MessageField) : Prop :=
  "float".toList <+: goArrayType f.GoType

instance (f : MessageField) : Decidable f.IsFloat :=
  inferInstanceAs (Decidable (_ <+: _))

def SizeInBytes (f : MessageField) : ℕ :=
  if 0 < f.ArrayLen then f.BitSize / 8 * f.ArrayLen.toNat
  else f.BitSize / 8

/-- The elements are copied as they are. -/
def Copied (f : MessageField) : Prop :=
  "byte".toList <:+ f.GoType ∨ "uint8".toList <:+ f.GoType

instance (f : MessageField) : Decidable f.Copied :=
  inferInstanceAs (Decidable (_ ∨ _))

/-! ## Statements of a field -/

def payloadPackPrimitive (f : MessageField) (offset : Offset)
    (name : GoExpr) : Generated PackStmt :=
  if f.BitSize = 8 then .ok (.index offset name)
  else if f.IsFloat then
    if f.BitSize ∈ [32, 64] then .ok (.putFloat f.BitSize offset name)
    else .error .unhandledBitsize
  else if f.BitSize ∈ [16, 32, 64] then
    .ok (.putUint f.BitSize offset name)
  else .error .unhandledBitsize

/-- Go code to pack arrays into a payload. -/
def PayloadPackSequence (f : MessageField) : Generated PackStmt :=
  let name := UpperCamelCase f.Name
  if 0 < f.ArrayLen then
    if f.Copied then .ok (.copyArray f.ByteOffset name)
    else
      .rangeLoop name <$>
        f.payloadPackPrimitive (.indexed f.ByteOffset (f.BitSize / 8)) .v
  else f.payloadPackPrimitive (.const f.ByteOffset) (.self name)

def payloadUnpackPrimitive (f : MessageField) (offset : Offset) :
    Generated UnpackExpr :=
  if f.BitSize = 8 then .ok (.byteAt (goArrayType f.GoType) offset)
  else if f.IsFloat then
    if f.BitSize ∈ [32, 64] then .ok (.floatAt f.BitSize offset)
    else .error .unhandledBitsize
  else if f.BitSize ∈ [16, 32, 64] then
    .ok (.uintAt (goArrayType f.GoType) f.BitSize offset)
  else .error .unhandledBitsize

/-- Go code to unpack arrays. -/
def PayloadUnpackSequence (f : MessageField) : Generated UnpackStmt :=
  let name := UpperCamelCase f.Name
  if 0 < f.ArrayLen then
    if f.Copied then
      .ok (.copySlice name f.ByteOffset (f.ByteOffset + f.ArrayLen.toNat))
    else
      .indexLoop name <$>
        f.payloadUnpackPrimitive (.indexed f.ByteOffset (f.BitSize / 8))
  else .assign name <$> f.payloadUnpackPrimitive (.const f.ByteOffset)

/-- The type of the field, from its C type. -/
def typed (f : MessageField) : Generated MessageField := do
  let (goname, gosz, golen) ← GoTypeInfo f.CType
  pure { f with GoType := goname, BitSize := gosz, ArrayLen := golen }

end MessageField

/-! ## Messages -/

structure Message where
  Fields : List MessageField

def Message.Size (m : Message) : ℕ := total MessageField.SizeInBytes m.Fields

/-- Offsets for use in payload packing and unpacking. -/
def setOffsets : ℕ → List MessageField → List MessageField
  | _, [] => []
  | offset, f :: fields =>
      { f with ByteOffset := offset } ::
        setOffsets (offset + f.SizeInBytes) fields

/-- Fields sorted according to their size, a stable sort in reverse. -/
def Message.sorted (m : Message) : List MessageField :=
  m.Fields.mergeSort fun f g => g.BitSize ≤ f.BitSize

def Message.process (m : Message) : Generated Message := do
  let fields ← m.Fields.mapM MessageField.typed
  pure ⟨setOffsets 0 (Message.sorted ⟨fields⟩)⟩

/-- What the template makes of a message. -/
structure MessageClass where
  message : Message
  pack : List PackStmt
  unpack : List UnpackStmt

def Message.emit (m : Message) : Generated MessageClass := do
  let pack ← m.Fields.mapM MessageField.PayloadPackSequence
  let unpack ← m.Fields.mapM MessageField.PayloadUnpackSequence
  pure ⟨m, pack, unpack⟩

def generateClasses (messages : List Message) :
    Generated (List MessageClass) := do
  let processed ← messages.mapM Message.process
  processed.mapM Message.emit

namespace MessageClass

/-- The struct that the class declares. -/
def types (c : MessageClass) : FieldTypes := fun name => do
  let f ← c.message.Fields.find? fun f => UpperCamelCase f.Name = name
  goFieldType f.GoType

def Pack (c : MessageClass) (self : Record) : Option (List UInt8) :=
  c.pack.foldlM
    (fun payload stmt => stmt.exec c.types self 0 none payload)
    (List.replicate c.message.Size 0)

/-- A payload that is too small is an error. -/
def Unpack (c : MessageClass) (payload : List UInt8) (self : Record) :
    Option Record :=
  if payload.length < c.message.Size then none
  else c.unpack.foldlM (fun self stmt => stmt.exec c.types payload self) self

end MessageClass

/-! ## Supported C types -/

def cTypes : List (String × GoPrim) :=
  [("uint8_t", ⟨.uint, 8⟩), ("uint16_t", ⟨.uint, 16⟩),
    ("uint32_t", ⟨.uint, 32⟩), ("uint64_t", ⟨.uint, 64⟩),
    ("int8_t", ⟨.int, 8⟩), ("int16_t", ⟨.int, 16⟩), ("int32_t", ⟨.int, 32⟩),
    ("int64_t", ⟨.int, 64⟩), ("char", ⟨.uint, 8⟩), ("float", ⟨.float, 32⟩),
    ("double", ⟨.float, 64⟩), ("uint8_t_mavlink_version", ⟨.uint, 8⟩)]

/-- The C type of a scalar, or of an array of positive length. -/
inductive CTypeOf : Text → GoFieldType → Prop
  | scalar {s : String} {elem : GoPrim} (hs : (s, elem) ∈ cTypes) :
      CTypeOf s.toList ⟨none, elem⟩
  | array {s : String} {elem : GoPrim} {n : ℕ} (hs : (s, elem) ∈ cTypes)
      (hn : 0 < n) :
      CTypeOf (s.toList ++ '[' :: (Nat.toDigits 10 n ++ [']']))
        ⟨some n, elem⟩

def Supported (ctype : Text) : Prop := ∃ t, CTypeOf ctype t

/-- The Go name of a type without a length. -/
structure GoName (name : Text) (elem : GoPrim) : Prop where
  prim : goPrim name = some elem
  noBracket : ']' ∉ name ∧ '[' ∉ name
  float : "float".toList <+: name ↔ elem.kind = .float
  copied : "byte".toList <:+ name ∨ "uint8".toList <:+ name ↔
    elem = ⟨.uint, 8⟩
  size : bitSize name = .ok elem.bits

instance (name : Text) (elem : GoPrim) : Decidable (GoName name elem) :=
  decidable_of_iff
    (goPrim name = some elem ∧ (']' ∉ name ∧ '[' ∉ name) ∧
      ("float".toList <+: name ↔ elem.kind = .float) ∧
      ("byte".toList <:+ name ∨ "uint8".toList <:+ name ↔
        elem = ⟨.uint, 8⟩) ∧
      bitSize name = .ok elem.bits)
    ⟨fun ⟨h₁, h₂, h₃, h₄, h₅⟩ => ⟨h₁, h₂, h₃, h₄, h₅⟩,
      fun ⟨h₁, h₂, h₃, h₄, h₅⟩ => ⟨h₁, h₂, h₃, h₄, h₅⟩⟩

theorem c2goPrimitive_cTypes : ∀ entry ∈ cTypes,
    '[' ∉ entry.1.toList ∧
      ∃ name ∈ (c2goPrimitive entry.1.toList).toOption,
        GoName name entry.2 := by
  decide

theorem goName_cTypes {s : String} {elem : GoPrim}
    (hs : (s, elem) ∈ cTypes) :
    '[' ∉ s.toList ∧
      ∃ name, c2goPrimitive s.toList = .ok name ∧ GoName name elem := by
  obtain ⟨hbracket, name, hprimitive, hname⟩ := c2goPrimitive_cTypes _ hs
  refine ⟨hbracket, name, ?_, hname⟩
  cases hresult : c2goPrimitive s.toList with
  | error e =>
      rw [hresult] at hprimitive
      cases hprimitive
  | ok result =>
      rw [hresult] at hprimitive
      exact congrArg _ (Option.some.inj hprimitive)

theorem goArrayType_array {before name : Text} (hbefore : ']' ∉ before) :
    goArrayType (before ++ ']' :: name) = name := by
  have hkeep : ∀ c ∈ before, decide (c ≠ ']') = true := fun c hc =>
    decide_eq_true fun h => hbefore (h ▸ hc)
  rw [goArrayType, if_pos (by simp), List.dropWhile_append_of_pos hkeep]
  rfl

theorem goArrayType_scalar {name : Text} (hname : ']' ∉ name) :
    goArrayType name = name := if_neg hname

theorem suffix_array_iff {p before name : Text} (hp : ']' ∉ p) :
    p <:+ before ++ ']' :: name ↔ p <:+ name := by
  refine ⟨fun hsuffix => ?_, fun hsuffix => ?_⟩
  · have htail : ']' :: name <:+ before ++ ']' :: name :=
      List.suffix_append _ _
    rcases List.suffix_or_suffix_of_suffix hsuffix htail with hin | hout
    · rcases List.suffix_cons_iff.mp hin with rfl | hname
      · exact absurd List.mem_cons_self hp
      · exact hname
    · exact absurd (hout.subset List.mem_cons_self) hp
  · exact hsuffix.trans
      ((List.suffix_cons _ _).trans (List.suffix_append _ _))

theorem bitSize_array {before name : Text} (hbefore : ']' ∉ before)
    (hname : ']' ∉ name) :
    bitSize (before ++ ']' :: name) = bitSize name := by
  have hbyte : "byte".toList <:+ before ++ ']' :: name ↔
      "byte".toList <:+ name := suffix_array_iff (by decide)
  rw [bitSize, bitSize, goArrayType_array hbefore,
    goArrayType_scalar hname]
  simp only [hbyte]

/-! ### Lengths -/

theorem head_toDigits {n : ℕ} (hn : 0 < n) :
    (Nat.toDigits 10 n).head? ≠ some '0' := by
  induction n using Nat.strongRecOn with
  | ind n ih =>
      rcases Nat.lt_or_ge n 10 with hlt | hge
      · rw [Nat.toDigits_of_lt_base hlt]
        interval_cases n <;> decide
      · have hprefix := ih (n / 10) (by omega) (by omega)
        rw [Nat.toDigits_of_base_le (by decide) hge,
          List.head?_append_of_ne_nil _ Nat.toDigits_ne_nil]
        exact hprefix

theorem all_isDigit_toDigits (n : ℕ) :
    (Nat.toDigits 10 n).all Char.isDigit = true :=
  List.all_eq_true.mpr fun _ hc =>
    Nat.isDigit_of_mem_toDigits (by decide) (by decide) hc

theorem decimal_toDigits (n : ℕ) : decimal (Nat.toDigits 10 n) = some n := by
  rw [decimal, if_pos ⟨Nat.toDigits_ne_nil, all_isDigit_toDigits n⟩,
    Nat.ofDigitChars_ten_toDigits]

theorem not_mem_toDigits {n : ℕ} {c : Char} (hc : c.isDigit = false) :
    c ∉ Nat.toDigits 10 n := by
  intro hin
  have hdigit := List.all_eq_true.mp (all_isDigit_toDigits n) c hin
  rw [hc] at hdigit
  cases hdigit

theorem head_toDigits_ne {n : ℕ} {c : Char} (hc : c.isDigit = false) :
    (Nat.toDigits 10 n).head? ≠ some c := fun hhead =>
  not_mem_toDigits hc (List.mem_of_mem_head? hhead)

theorem Atoi_toDigits (n : ℕ) :
    Atoi (Nat.toDigits 10 n) =
      if n < 2 ^ 63 then .ok (n : ℤ)
      else .error (.atoi (Nat.toDigits 10 n)) := by
  have hminus := head_toDigits_ne (n := n) (c := '-') (by decide)
  have hplus := head_toDigits_ne (n := n) (c := '+') (by decide)
  rw [Atoi, if_neg (not_or.mpr ⟨hminus, hplus⟩), decimal_toDigits]
  simp only [if_neg hminus]

/-! ### Go types -/

/-- The Go type stands for `t`, and the generator reads it so. -/
structure Declares (GoType : Text) (t : GoFieldType) : Prop where
  field : goFieldType GoType = some t
  elem : goPrim (goArrayType GoType) = some t.elem
  float : "float".toList <+: goArrayType GoType ↔ t.elem.kind = .float
  copied : "byte".toList <:+ GoType ∨ "uint8".toList <:+ GoType ↔
    t.elem = ⟨.uint, 8⟩
  size : bitSize GoType = .ok t.elem.bits

theorem GoName.declares_scalar {name : Text} {elem : GoPrim}
    (hname : GoName name elem) : Declares name ⟨none, elem⟩ where
  field := by
    rw [goFieldType.eq_def]
    split
    · exact absurd List.mem_cons_self hname.noBracket.2
    · rw [hname.prim, Option.map_some]
  elem := by rw [goArrayType_scalar hname.noBracket.1, hname.prim]
  float := by rw [goArrayType_scalar hname.noBracket.1, hname.float]
  copied := hname.copied
  size := hname.size

theorem GoName.declares_array {name : Text} {elem : GoPrim}
    (hname : GoName name elem) {n : ℕ} (hn : 0 < n) :
    Declares (('[' :: Nat.toDigits 10 n) ++ ']' :: name)
      ⟨some n, elem⟩ := by
  have hdigits : ']' ∉ Nat.toDigits 10 n := not_mem_toDigits (by decide)
  have hbefore : ']' ∉ '[' :: Nat.toDigits 10 n := fun hin =>
    (List.mem_cons.mp hin).elim (by decide) hdigits
  have hkeep : ∀ c ∈ Nat.toDigits 10 n, decide (c ≠ ']') = true :=
    fun c hc => decide_eq_true fun h => hdigits (h ▸ hc)
  refine ⟨?_, ?_, ?_, ?_, ?_⟩
  · rw [List.cons_append, goFieldType, List.takeWhile_append_of_pos hkeep,
      List.dropWhile_append_of_pos hkeep, List.takeWhile_cons,
      List.dropWhile_cons]
    simp only [ne_eq, not_true_eq_false, decide_false, Bool.false_eq_true,
      if_false, List.append_nil, if_neg (head_toDigits hn),
      decimal_toDigits, List.drop_one, List.tail_cons, hname.prim,
      Option.bind_eq_bind, Option.bind_some]
  · rw [goArrayType_array hbefore, hname.prim]
  · rw [goArrayType_array hbefore, hname.float]
  · rw [suffix_array_iff (by decide), suffix_array_iff (by decide),
      hname.copied]
  · rw [bitSize_array hbefore hname.noBracket.1, hname.size]

theorem GoTypeInfo_scalar {s : String} {elem : GoPrim}
    (hs : (s, elem) ∈ cTypes) :
    ∃ goname, Declares goname ⟨none, elem⟩ ∧
      GoTypeInfo s.toList = .ok (goname, elem.bits, 0) := by
  obtain ⟨hbracket, name, hprimitive, hname⟩ := goName_cTypes hs
  have hdeclares := hname.declares_scalar
  refine ⟨name, hdeclares, ?_⟩
  rw [GoTypeInfo, if_neg hbracket, hprimitive]
  change (bitSize name).bind _ = _
  rw [hdeclares.size]
  rfl

theorem GoTypeInfo_array {s : String} {elem : GoPrim}
    (hs : (s, elem) ∈ cTypes) {n : ℕ} (hn : 0 < n) :
    ∃ goname, Declares goname ⟨some n, elem⟩ ∧
      GoTypeInfo (s.toList ++ '[' :: (Nat.toDigits 10 n ++ [']'])) =
        if n < 2 ^ 63 then .ok (goname, elem.bits, n)
        else .error (.atoi (Nat.toDigits 10 n)) := by
  obtain ⟨hbracket, name, hprimitive, hname⟩ := goName_cTypes hs
  have hdeclares := hname.declares_array hn
  have hidx : (s.toList ++ '[' :: (Nat.toDigits 10 n ++ [']'])).idxOf '[' =
      s.toList.length := by
    rw [List.idxOf_append_of_notMem hbracket, List.idxOf_cons_self,
      Nat.add_zero]
  have hlength : (s.toList ++ '[' :: (Nat.toDigits 10 n ++ [']'])).length =
      s.toList.length + (Nat.toDigits 10 n).length + 2 := by
    simp only [List.length_append, List.length_cons, List.length_nil]
    omega
  have hafter : (s.toList ++ '[' :: (Nat.toDigits 10 n ++ [']'])).drop
      (s.toList.length + 1) = Nat.toDigits 10 n ++ [']'] := by
    rw [← List.drop_drop, List.drop_left]
    rfl
  refine ⟨_, hdeclares, ?_⟩
  rw [GoTypeInfo, if_pos (by simp)]
  simp only [hidx, List.take_left, hprimitive, hafter, List.drop_left,
    List.dropLast_concat, Atoi_toDigits]
  change (if _ then _ else _ : Generated (Text × ℕ × ℤ)) = _
  rw [if_neg (by rw [hlength]; omega)]
  split
  · have hname' : '[' :: (Nat.toDigits 10 n ++ [']']) ++ name =
        ('[' :: Nat.toDigits 10 n) ++ ']' :: name := by
      rw [← List.cons_append, List.append_assoc, List.singleton_append]
    change (bitSize ('[' :: (Nat.toDigits 10 n ++ [']']) ++ name)).bind
      (fun bitsz => .ok ('[' :: (Nat.toDigits 10 n ++ [']']) ++ name, bitsz,
        (n : ℤ))) = _
    rw [hname', hdeclares.size]
    rfl
  · rfl

/-! ## Fields after `GoTypeInfo` -/

/-- The generated values of a field of type `t`. -/
structure MessageField.Describes (f : MessageField) (t : GoFieldType) :
    Prop where
  declares : Declares f.GoType t
  bitSize : f.BitSize = t.elem.bits
  arrayLen : f.ArrayLen = (t.len.getD 0 : ℕ)
  positive : ∀ n ∈ t.len, 0 < n
  elem : t.elem ∈ cTypes.map Prod.snd

theorem describes_of_typed {f g : MessageField} {t : GoFieldType}
    (htype : CTypeOf f.CType t) (htyped : f.typed = .ok g) :
    g.Describes t := by
  generalize hctype : f.CType = ctype at htype
  cases htype with
  | @scalar s elem hs =>
      obtain ⟨goname, hdeclares, hinfo⟩ := GoTypeInfo_scalar hs
      rw [MessageField.typed, hctype, hinfo] at htyped
      cases htyped
      exact ⟨hdeclares, rfl, rfl, fun n hn => absurd hn (by simp),
        List.mem_map_of_mem hs⟩
  | @array s elem n hs hn =>
      obtain ⟨goname, hdeclares, hinfo⟩ := GoTypeInfo_array hs hn
      rw [MessageField.typed, hctype, hinfo] at htyped
      split at htyped
      · cases htyped
        exact ⟨hdeclares, rfl, rfl,
          fun k hk => Option.some.inj hk ▸ hn, List.mem_map_of_mem hs⟩
      · cases htyped

/-- Arrays whose length is an `int`. -/
theorem typed_ok {f : MessageField} {t : GoFieldType}
    (htype : CTypeOf f.CType t) (hfits : ∀ n ∈ t.len, n < 2 ^ 63) :
    ∃ g, f.typed = .ok g := by
  generalize hctype : f.CType = ctype at htype
  cases htype with
  | scalar hs =>
      obtain ⟨goname, -, hinfo⟩ := GoTypeInfo_scalar hs
      rw [MessageField.typed, hctype, hinfo]
      exact ⟨_, rfl⟩
  | @array s elem n hs hn =>
      obtain ⟨goname, -, hinfo⟩ := GoTypeInfo_array hs hn
      rw [MessageField.typed, hctype, hinfo, if_pos (hfits n rfl)]
      exact ⟨_, rfl⟩

/-- A byte that is no float, or more bytes. -/
theorem elem_bits : ∀ elem ∈ cTypes.map Prod.snd,
    (elem.bits = 8 ∧ elem.kind ≠ .float) ∨
      (elem.bits ≠ 8 ∧ elem.bits ∈ [16, 32, 64] ∧
        (elem.kind = .float → elem.bits ∈ [32, 64])) := by
  decide

section

variable {f : MessageField} {t : GoFieldType} {types : FieldTypes}

theorem MessageField.Describes.sizeInBytes (hf : f.Describes t) :
    f.SizeInBytes = t.size := by
  rw [SizeInBytes, hf.arrayLen, hf.bitSize, GoFieldType.size,
    GoFieldType.width, GoFieldType.count, mul_comm]
  cases hlen : t.len with
  | none => simp
  | some n => simp [hf.positive n hlen]

theorem MessageField.Describes.isFloat (hf : f.Describes t) :
    f.IsFloat ↔ t.elem.kind = .float := hf.declares.float

theorem MessageField.Describes.payloadPackPrimitive (hf : f.Describes t)
    (types : FieldTypes) (offset : Offset) (name : GoExpr) :
    ∃ stmt, f.payloadPackPrimitive offset name = .ok stmt ∧
      ∀ self, stmt.Stores types self t.elem offset name := by
  rw [MessageField.payloadPackPrimitive, hf.bitSize]
  rcases elem_bits _ hf.elem with
    ⟨hbyte, hkind⟩ | ⟨hbyte, hwords, hfloatBits⟩
  · rw [if_pos hbyte]
    exact ⟨_, rfl, fun _ => stores_index hkind hbyte⟩
  · rw [if_neg hbyte]
    by_cases hkind : t.elem.kind = .float
    · rw [if_pos (hf.isFloat.mpr hkind), if_pos (hfloatBits hkind)]
      exact ⟨_, rfl, fun _ => stores_putFloat hkind hwords⟩
    · rw [if_neg (mt hf.isFloat.mp hkind), if_pos hwords]
      exact ⟨_, rfl, fun _ => stores_putUint hkind hwords⟩

theorem MessageField.Describes.payloadUnpackPrimitive (hf : f.Describes t)
    (offset : Offset) :
    ∃ expr, f.payloadUnpackPrimitive offset = .ok expr ∧
      expr.Loads t.elem offset := by
  rw [MessageField.payloadUnpackPrimitive, hf.bitSize]
  rcases elem_bits _ hf.elem with
    ⟨hbyte, hkind⟩ | ⟨hbyte, hwords, hfloatBits⟩
  · rw [if_pos hbyte]
    exact ⟨_, rfl, loads_byteAt hf.declares.elem hkind hbyte⟩
  · rw [if_neg hbyte]
    by_cases hkind : t.elem.kind = .float
    · rw [if_pos (hf.isFloat.mpr hkind), if_pos (hfloatBits hkind)]
      exact ⟨_, rfl, loads_floatAt hkind hwords⟩
    · rw [if_neg (mt hf.isFloat.mp hkind), if_pos hwords]
      exact ⟨_, rfl, loads_uintAt hf.declares.elem hkind hwords⟩

/-- A scalar, an array that is copied, or an array with a loop. -/
theorem MessageField.Describes.payloadPackSequence (hf : f.Describes t)
    (types : FieldTypes)
    (htype : types (UpperCamelCase f.Name) = some t) :
    ∃ stmt, f.PayloadPackSequence = .ok stmt ∧
      stmt.Packs types (UpperCamelCase f.Name) t f.ByteOffset := by
  obtain ⟨len, elem⟩ := t
  rw [PayloadPackSequence, hf.arrayLen]
  cases len with
  | none =>
      obtain ⟨stmt, hstmt, hstores⟩ := hf.payloadPackPrimitive types
        (.const f.ByteOffset) (.self (UpperCamelCase f.Name))
      exact ⟨stmt, hstmt, packs_scalar htype hstores⟩
  | some n =>
      have hn : (0 : ℤ) < (n : ℕ) := by exact_mod_cast hf.positive n rfl
      by_cases hcopied : f.Copied
      · have helem := hf.declares.copied.mp hcopied
        refine ⟨.copyArray f.ByteOffset (UpperCamelCase f.Name), ?_,
          packs_copyArray helem htype⟩
        rw [Option.getD_some, if_pos hn, if_pos hcopied]
      · obtain ⟨body, hbody, hstores⟩ := hf.payloadPackPrimitive
          types (.indexed f.ByteOffset (f.BitSize / 8)) .v
        refine ⟨.rangeLoop (UpperCamelCase f.Name) body, ?_,
          packs_rangeLoop htype fun self => ?_⟩
        · rw [Option.getD_some, if_pos hn, if_neg hcopied, hbody]
          rfl
        · have hloop := hstores self
          rwa [hf.bitSize] at hloop

example :
    (MessageField.PayloadPackSequence ⟨"char[16]".toList,
      "param_id".toList, "[16]byte".toList, 8, 16, 8⟩).toOption.map
        PackStmt.text =
      some "copy(payload[8:], self.ParamId[:])" := by
  decide

theorem MessageField.Describes.payloadUnpackSequence (hf : f.Describes t)
    (types : FieldTypes)
    (htype : types (UpperCamelCase f.Name) = some t) :
    ∃ stmt, f.PayloadUnpackSequence = .ok stmt ∧
      stmt.Unpacks types (UpperCamelCase f.Name) t f.ByteOffset := by
  obtain ⟨len, elem⟩ := t
  rw [PayloadUnpackSequence, hf.arrayLen]
  cases len with
  | none =>
      obtain ⟨expr, hexpr, hloads⟩ :=
        hf.payloadUnpackPrimitive (.const f.ByteOffset)
      refine ⟨.assign (UpperCamelCase f.Name) expr, ?_,
        unpacks_scalar htype hloads⟩
      change (if (0 : ℤ) < 0 then _ else _) = _
      rw [if_neg (lt_irrefl _), hexpr]
      rfl
  | some n =>
      have hn : (0 : ℤ) < (n : ℕ) := by exact_mod_cast hf.positive n rfl
      by_cases hcopied : f.Copied
      · have helem := hf.declares.copied.mp hcopied
        refine ⟨.copySlice (UpperCamelCase f.Name) f.ByteOffset
          (f.ByteOffset + n), ?_, unpacks_copySlice helem htype⟩
        rw [Option.getD_some, if_pos hn, if_pos hcopied, Int.toNat_natCast]
      · obtain ⟨expr, hexpr, hloads⟩ := hf.payloadUnpackPrimitive
          (.indexed f.ByteOffset (f.BitSize / 8))
        rw [hf.bitSize] at hloads
        refine ⟨.indexLoop (UpperCamelCase f.Name) expr, ?_,
          unpacks_indexLoop htype hloads⟩
        rw [Option.getD_some, if_pos hn, if_neg hcopied, hexpr]
        rfl

end

example :
    (MessageField.PayloadUnpackSequence ⟨"float".toList,
      "param_value".toList, "float32".toList, 32, 0, 0⟩).toOption.map
        UnpackStmt.text =
      some ("self.ParamValue = math.Float32frombits(" ++
        "binary.LittleEndian.Uint32(p.Payload[0:]))") := by
  decide

end DronesmithEngine.Generator
