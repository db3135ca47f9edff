import DronesmithEngine.MavlinkGenerator

/-!
# Round trips of generated messages

From the fields of a message to the class that `generateClasses` emits: the
fields are sorted and laid out, and `Pack` and `Unpack` run their statements
one after another.
-/

namespace DronesmithEngine.Generator

open ByteLayout

theorem mapM_eq_ok_iff {α β : Type} {f : α → Generated β} {xs : List α}
    {ys : List β} :
    xs.mapM f = .ok ys ↔ List.Forall₂ (fun x y => f x = .ok y) xs ys := by
  induction xs generalizing ys with
  | nil =>
      rw [List.mapM_nil, List.forall₂_nil_left_iff]
      exact ⟨fun h => (Except.ok.inj h).symm, fun h => h ▸ rfl⟩
  | cons x xs ih =>
      rw [List.mapM_cons, List.forall₂_cons_left_iff]
      refine ⟨fun h => ?_, ?_⟩
      · cases hx : f x with
        | error e =>
            rw [hx] at h
            cases h
        | ok y =>
            cases hxs : xs.mapM f with
            | error e =>
                rw [hx, hxs] at h
                cases h
            | ok rest =>
                rw [hx, hxs] at h
                cases h
                exact ⟨y, rest, rfl, ih.mp hxs, rfl⟩
      · rintro ⟨y, rest, hx, hrest, rfl⟩
        rw [hx, ih.mpr hrest]
        rfl

theorem mapM_ok {α β : Type} {f : α → Generated β} {xs : List α}
    (hok : ∀ x ∈ xs, ∃ y, f x = .ok y) : ∃ ys, xs.mapM f = .ok ys := by
  induction xs with
  | nil => exact ⟨[], rfl⟩
  | cons x xs ih =>
      rw [List.forall_mem_cons] at hok
      obtain ⟨⟨y, hy⟩, hrest⟩ := hok
      obtain ⟨ys, hys⟩ := ih hrest
      exact ⟨y :: ys, mapM_eq_ok_iff.mpr
        (.cons hy (mapM_eq_ok_iff.mp hys))⟩

section

variable {α β γ : Type} {R : α → β → Prop} {S : β → γ → Prop}
  {xs : List α} {ys : List β} {zs : List γ}

theorem forall₂_mem_left (h : List.Forall₂ R xs ys) {x : α} (hx : x ∈ xs) :
    ∃ y ∈ ys, R x y := by
  induction h with
  | nil => cases hx
  | cons hxy _ ih =>
      rcases List.mem_cons.mp hx with rfl | hin
      · exact ⟨_, List.mem_cons_self, hxy⟩
      · obtain ⟨y, hy, hrel⟩ := ih hin
        exact ⟨y, List.mem_cons_of_mem _ hy, hrel⟩

theorem forall₂_mem_right (h : List.Forall₂ R xs ys) {y : β}
    (hy : y ∈ ys) : ∃ x ∈ xs, R x y :=
  forall₂_mem_left (R := flip R) h.flip hy

theorem forall₂_comp (hxy : List.Forall₂ R xs ys)
    (hyz : List.Forall₂ S ys zs) :
    List.Forall₂ (fun x z => ∃ y, R x y ∧ S y z) xs zs := by
  induction hxy generalizing zs with
  | nil =>
      cases hyz
      exact .nil
  | cons hr _ ih =>
      cases hyz with
      | cons hs hrest => exact .cons ⟨_, hr, hs⟩ (ih hrest)

end

/-! ## Layout -/

namespace MessageField

def unplaced (f : MessageField) : MessageField := { f with ByteOffset := 0 }

/-- The name of the field in Go. -/
def goField (f : MessageField) : Text := UpperCamelCase f.Name

end MessageField

/-- The fields by size, and those of one size in their old order. -/
structure StableReordering (before after : List MessageField) : Prop where
  perm : (after.map MessageField.unplaced).Perm
    (before.map MessageField.unplaced)
  sorted : after.Pairwise fun f g => g.BitSize ≤ f.BitSize
  stable : ∀ size,
    (after.filter (·.BitSize = size)).map MessageField.unplaced =
      (before.filter (·.BitSize = size)).map MessageField.unplaced

section

variable {before after : List MessageField} {f : MessageField}

theorem StableReordering.exists_before (h : StableReordering before after)
    (hf : f ∈ after) : ∃ g ∈ before, g.unplaced = f.unplaced :=
  List.mem_map.mp (h.perm.subset (List.mem_map_of_mem hf))

theorem StableReordering.exists_after (h : StableReordering before after)
    (hf : f ∈ before) : ∃ g ∈ after, g.unplaced = f.unplaced :=
  List.mem_map.mp (h.perm.symm.subset (List.mem_map_of_mem hf))

theorem StableReordering.names (h : StableReordering before after) :
    (after.map MessageField.goField).Perm
      (before.map MessageField.goField) := by
  have hnames := h.perm.map MessageField.goField
  rwa [List.map_map, List.map_map] at hnames

end

theorem laidOut_setOffsets (start : ℕ) (fields : List MessageField) :
    LaidOut MessageField.SizeInBytes MessageField.ByteOffset start
      (setOffsets start fields) := by
  induction fields generalizing start with
  | nil => trivial
  | cons f fields ih => exact ⟨rfl, ih _⟩

theorem map_unplaced_setOffsets (start : ℕ) (fields : List MessageField) :
    (setOffsets start fields).map MessageField.unplaced =
      fields.map MessageField.unplaced := by
  induction fields generalizing start with
  | nil => rfl
  | cons f fields ih => exact congrArg (_ :: ·) (ih _)

theorem filter_setOffsets (start size : ℕ) (fields : List MessageField) :
    ((setOffsets start fields).filter (·.BitSize = size)).map
        MessageField.unplaced =
      (fields.filter (·.BitSize = size)).map MessageField.unplaced := by
  have hfilter : ∀ fields' : List MessageField,
      (fields'.filter (·.BitSize = size)).map MessageField.unplaced =
        (fields'.map MessageField.unplaced).filter (·.BitSize = size) :=
    fun fields' => (List.filter_map
      (p := fun f : MessageField => f.BitSize = size)
      (f := MessageField.unplaced) (l := fields')).symm
  rw [hfilter, hfilter, map_unplaced_setOffsets]

section

variable (m : Message)

theorem bySize_trans (f g h : MessageField)
    (hfg : decide (g.BitSize ≤ f.BitSize) = true)
    (hgh : decide (h.BitSize ≤ g.BitSize) = true) :
    decide (h.BitSize ≤ f.BitSize) = true := by
  rw [decide_eq_true_eq] at *
  exact hgh.trans hfg

theorem bySize_total (f g : MessageField) :
    (decide (g.BitSize ≤ f.BitSize) || decide (f.BitSize ≤ g.BitSize)) =
      true := by
  rw [Bool.or_eq_true, decide_eq_true_eq, decide_eq_true_eq]
  exact Nat.le_total _ _

theorem pairwise_sorted :
    m.sorted.Pairwise fun f g => g.BitSize ≤ f.BitSize :=
  (List.pairwise_mergeSort bySize_trans bySize_total m.Fields).imp
    of_decide_eq_true

/-- The fields of one size are sorted as they are. -/
theorem filter_sorted (size : ℕ) :
    m.sorted.filter (·.BitSize = size) =
      m.Fields.filter (·.BitSize = size) := by
  have hequal : (m.Fields.filter (·.BitSize = size)).Pairwise
      fun f g => decide (g.BitSize ≤ f.BitSize) = true := by
    refine List.pairwise_of_forall_mem_list fun f hf g hg => ?_
    have hfsize := of_decide_eq_true (List.mem_filter.mp hf).2
    have hgsize := of_decide_eq_true (List.mem_filter.mp hg).2
    exact decide_eq_true (hgsize.trans hfsize.symm).le
  have hsub := (List.sublist_mergeSort bySize_trans bySize_total hequal
    List.filter_sublist).filter fun f => decide (f.BitSize = size)
  rw [List.filter_filter] at hsub
  simp only [Bool.and_self] at hsub
  have hperm := (List.mergeSort_perm m.Fields
    fun f g => g.BitSize ≤ f.BitSize).filter
      fun f => decide (f.BitSize = size)
  exact (hsub.eq_of_length hperm.length_eq.symm).symm

theorem stableReordering_setOffsets :
    StableReordering m.Fields (setOffsets 0 m.sorted) where
  perm := by
    rw [map_unplaced_setOffsets]
    exact (List.mergeSort_perm _ _).map _
  sorted := by
    have hsorted : (m.sorted.map MessageField.unplaced).Pairwise
        fun f g => g.BitSize ≤ f.BitSize :=
      List.pairwise_map.mpr (pairwise_sorted m)
    rw [← map_unplaced_setOffsets 0] at hsorted
    exact List.pairwise_map.mp hsorted
  stable size := by rw [filter_setOffsets, filter_sorted]

end

/-! ## Names -/

theorem find?_of_nodup {fields : List MessageField}
    (hnames : (fields.map MessageField.goField).Nodup) {f : MessageField}
    (hf : f ∈ fields) :
    fields.find? (fun g => g.goField = f.goField) = some f := by
  induction fields with
  | nil => cases hf
  | cons g fields ih =>
      rw [List.map_cons, List.nodup_cons] at hnames
      rcases List.mem_cons.mp hf with rfl | hin
      · exact List.find?_cons_of_pos (decide_eq_true rfl)
      · have hne : g.goField ≠ f.goField := fun h =>
          hnames.1 (h ▸ List.mem_map_of_mem hin)
        rw [List.find?_cons_of_neg (by simpa using hne)]
        exact ih hnames.2 hin

theorem foldl_update_of_notMem {fields : List MessageField}
    (value : MessageField → List ℕ) (self : Record) {name : Text}
    (hname : name ∉ fields.map MessageField.goField) :
    fields.foldl (fun self g => Function.update self g.goField (value g))
      self name = self name := by
  induction fields generalizing self with
  | nil => rfl
  | cons g fields ih =>
      rw [List.map_cons, List.mem_cons, not_or] at hname
      rw [List.foldl_cons, ih _ hname.2, Function.update_of_ne hname.1]

/-- Every field has been assigned. -/
theorem foldl_update {fields : List MessageField}
    (hnames : (fields.map MessageField.goField).Nodup)
    (value : MessageField → List ℕ) (self : Record) {f : MessageField}
    (hf : f ∈ fields) :
    fields.foldl (fun self g => Function.update self g.goField (value g))
      self f.goField = value f := by
  induction fields generalizing self with
  | nil => cases hf
  | cons g fields ih =>
      rw [List.map_cons, List.nodup_cons] at hnames
      rw [List.foldl_cons]
      rcases List.mem_cons.mp hf with rfl | hin
      · rw [foldl_update_of_notMem value _ hnames.1, Function.update_self]
      · exact ih hnames.2 _ hin

/-! ## Runs of `Pack` and `Unpack` -/

namespace MessageField

def count (f : MessageField) : ℕ :=
  if 0 < f.ArrayLen then f.ArrayLen.toNat else 1

/-- The bytes of the field in a payload of `self`. -/
def chunk (self : Record) (f : MessageField) : List UInt8 :=
  wordsToBytes (f.BitSize / 8) (self f.goField)

/-- The value of the field in a payload. -/
def value (payload : List UInt8) (f : MessageField) : List ℕ :=
  bytesToWords (f.BitSize / 8) f.count
    (region payload f.ByteOffset f.SizeInBytes)

theorem sizeInBytes_eq (f : MessageField) :
    f.SizeInBytes = f.count * (f.BitSize / 8) := by
  rw [SizeInBytes, count]
  split
  · exact mul_comm _ _
  · exact (one_mul _).symm

/-- The field of type `t` in a struct. -/
structure Member (types : FieldTypes) (f : MessageField) (t : GoFieldType) :
    Prop where
  describes : f.Describes t
  type : types f.goField = some t

end MessageField

def FieldTypes.WellTyped (types : FieldTypes) (self : Record) : Prop :=
  ∀ name t, types name = some t → t.WellTyped (self name)

section

variable {types : FieldTypes} {f : MessageField} {t : GoFieldType}
  {self : Record} {payload : List UInt8}

theorem MessageField.Describes.count (hf : f.Describes t) :
    f.count = t.count := by
  rw [MessageField.count, hf.arrayLen, GoFieldType.count]
  cases hlen : t.len with
  | none => rfl
  | some n =>
      rw [Option.getD_some, Option.getD_some, Int.toNat_natCast,
        if_pos (by exact_mod_cast hf.positive n hlen)]

theorem MessageField.Member.length_chunk (hf : f.Member types t)
    (hself : types.WellTyped self) :
    (f.chunk self).length = f.SizeInBytes := by
  have hcount := (hself _ _ hf.type).1
  rw [MessageField.chunk, length_wordsToBytes, hcount,
    f.sizeInBytes_eq, hf.describes.count]

theorem MessageField.Member.bits (hf : f.Member types t) :
    256 ^ (f.BitSize / 8) = 2 ^ t.elem.bits := by
  rw [hf.describes.bitSize, show 256 = 2 ^ 8 from rfl, ← pow_mul]
  rcases elem_bits _ hf.describes.elem with ⟨hbits, -⟩ | ⟨-, hbits, -⟩
  · rw [hbits]
  · simp only [List.mem_cons, List.not_mem_nil, or_false] at hbits
    rcases hbits with hbits | hbits | hbits <;> rw [hbits]

/-- Reading a chunk gives back what was written. -/
theorem MessageField.Member.value_chunk (hf : f.Member types t)
    (hself : types.WellTyped self)
    (hregion : region payload f.ByteOffset f.SizeInBytes = f.chunk self) :
    f.value payload = self f.goField := by
  obtain ⟨hcount, hwords⟩ := hself _ _ hf.type
  rw [← hf.bits] at hwords
  rw [MessageField.value, hregion, MessageField.chunk, hf.describes.count,
    ← hcount]
  exact bytesToWords_wordsToBytes hwords

theorem MessageField.chunk_value (hvalue : self f.goField = f.value payload)
    (hfits : f.ByteOffset + f.SizeInBytes ≤ payload.length) :
    f.chunk self = region payload f.ByteOffset f.SizeInBytes := by
  rw [MessageField.chunk, hvalue, MessageField.value]
  refine wordsToBytes_bytesToWords ?_
  rw [length_region hfits, f.sizeInBytes_eq]

theorem MessageField.Member.wellTyped_value (hf : f.Member types t) :
    t.WellTyped (f.value payload) := by
  refine ⟨?_, fun x hx => ?_⟩
  · rw [MessageField.value, length_bytesToWords, hf.describes.count]
  · rw [← hf.bits]
    exact mem_bytesToWords_lt hx

theorem MessageField.Member.wellTyped_update (hf : f.Member types t)
    (hself : types.WellTyped self) :
    types.WellTyped (Function.update self f.goField (f.value payload)) := by
  intro name t' htype
  by_cases hname : name = f.goField
  · rw [hname, hf.type] at htype
    obtain rfl := Option.some.inj htype
    rw [hname, Function.update_self]
    exact hf.wellTyped_value
  · rw [Function.update_of_ne hname]
    exact hself name t' htype

theorem MessageField.Member.exec_pack (hf : f.Member types t)
    (hself : types.WellTyped self) {stmt : PackStmt}
    (hstmt : f.PayloadPackSequence = .ok stmt)
    (hfits : f.ByteOffset + f.SizeInBytes ≤ payload.length) :
    stmt.exec types self 0 none payload =
      some (splice payload f.ByteOffset (f.chunk self)) := by
  obtain ⟨stmt', hstmt', hpacks⟩ := hf.describes.payloadPackSequence types hf.type
  rw [hstmt] at hstmt'
  obtain rfl := Except.ok.inj hstmt'
  rw [hf.describes.sizeInBytes] at hfits
  rw [hpacks self payload (hself _ _ hf.type) hfits, MessageField.chunk,
    hf.describes.bitSize]
  rfl

theorem MessageField.Member.exec_unpack (hf : f.Member types t)
    (hself : types.WellTyped self) {stmt : UnpackStmt}
    (hstmt : f.PayloadUnpackSequence = .ok stmt)
    (hfits : f.ByteOffset + f.SizeInBytes ≤ payload.length) :
    stmt.exec types payload self =
      some (Function.update self f.goField (f.value payload)) := by
  obtain ⟨stmt', hstmt', hunpacks⟩ :=
    hf.describes.payloadUnpackSequence types hf.type
  rw [hstmt] at hstmt'
  obtain rfl := Except.ok.inj hstmt'
  have hvalue : f.value payload =
      bytesToWords t.width t.count (region payload f.ByteOffset t.size) := by
    rw [MessageField.value, hf.describes.bitSize, hf.describes.count,
      hf.describes.sizeInBytes]
    rfl
  rw [hf.describes.sizeInBytes] at hfits
  rw [hvalue]
  exact hunpacks self payload (hself _ _ hf.type).1 hfits

/-- The statements of `Pack` write the chunks of the fields. -/
theorem foldlM_pack {fields : List MessageField} {stmts : List PackStmt}
    (hpack : List.Forall₂ (fun f stmt => f.PayloadPackSequence = .ok stmt)
      fields stmts)
    (hmember : ∀ f ∈ fields, ∃ t, f.Member types t)
    (hself : types.WellTyped self)
    (hfits : ∀ f ∈ fields,
      f.ByteOffset + f.SizeInBytes ≤ payload.length) :
    stmts.foldlM (fun payload stmt => stmt.exec types self 0 none payload)
        payload =
      some (fields.foldl
        (fun payload f => splice payload f.ByteOffset (f.chunk self))
        payload) := by
  induction hpack generalizing payload with
  | nil => rfl
  | @cons f stmt fields stmts hstmt hrest ih =>
      rw [List.forall_mem_cons] at hmember hfits
      obtain ⟨⟨t, hf⟩, hmembers⟩ := hmember
      have hlength : (splice payload f.ByteOffset (f.chunk self)).length =
          payload.length := by
        apply length_splice
        rw [hf.length_chunk hself]
        exact hfits.1
      rw [List.foldlM_cons, hf.exec_pack hself hstmt hfits.1,
        Option.bind_eq_bind, Option.bind_some, List.foldl_cons]
      exact ih hmembers (hlength.symm ▸ hfits.2)

/-- The statements of `Unpack` assign the fields. -/
theorem foldlM_unpack {fields : List MessageField}
    {stmts : List UnpackStmt}
    (hunpack : List.Forall₂
      (fun f stmt => f.PayloadUnpackSequence = .ok stmt) fields stmts)
    (hmember : ∀ f ∈ fields, ∃ t, f.Member types t)
    (hself : types.WellTyped self)
    (hfits : ∀ f ∈ fields,
      f.ByteOffset + f.SizeInBytes ≤ payload.length) :
    stmts.foldlM (fun self stmt => stmt.exec types payload self) self =
      some (fields.foldl
        (fun self f => Function.update self f.goField (f.value payload))
        self) ∧
    types.WellTyped (fields.foldl
      (fun self f => Function.update self f.goField (f.value payload))
      self) := by
  induction hunpack generalizing self with
  | nil => exact ⟨rfl, hself⟩
  | @cons f stmt fields stmts hstmt hrest ih =>
      rw [List.forall_mem_cons] at hmember hfits
      obtain ⟨⟨t, hf⟩, hmembers⟩ := hmember
      rw [List.foldlM_cons, hf.exec_unpack hself hstmt hfits.1,
        Option.bind_eq_bind, Option.bind_some, List.foldl_cons]
      exact ih hmembers (hf.wellTyped_update hself) hfits.2

end

/-! ## Classes -/

/-- A class whose fields lie one after another and have the types of the
struct, with the statements of its fields. -/
structure MessageClass.WellFormed (c : MessageClass) : Prop where
  laidOut : LaidOut MessageField.SizeInBytes MessageField.ByteOffset 0
    c.message.Fields
  names : (c.message.Fields.map MessageField.goField).Nodup
  member : ∀ f ∈ c.message.Fields, ∃ t, f.Member c.types t
  pack : List.Forall₂ (fun f stmt => f.PayloadPackSequence = .ok stmt)
    c.message.Fields c.pack
  unpack : List.Forall₂ (fun f stmt => f.PayloadUnpackSequence = .ok stmt)
    c.message.Fields c.unpack

namespace MessageClass.WellFormed

variable {c : MessageClass} {self v : Record} {payload : List UInt8}

theorem fits (hc : c.WellFormed) (hlength : payload.length = c.message.Size)
    {f : MessageField} (hf : f ∈ c.message.Fields) :
    f.ByteOffset + f.SizeInBytes ≤ payload.length := by
  have hfits := hc.laidOut.fits hf
  rwa [zero_add, ← Message.Size, ← hlength] at hfits

theorem length_chunk (hc : c.WellFormed) (hv : c.types.WellTyped v) :
    ∀ f ∈ c.message.Fields, (f.chunk v).length = f.SizeInBytes := by
  intro f hf
  obtain ⟨t, hmember⟩ := hc.member f hf
  exact hmember.length_chunk hv

/-- `Pack` concatenates the fields. -/
theorem pack_eq (hc : c.WellFormed) (hv : c.types.WellTyped v) :
    c.Pack v =
      some (c.message.Fields.flatMap (MessageField.chunk v)) := by
  have hlength : (List.replicate c.message.Size (0 : UInt8)).length =
      c.message.Size := List.length_replicate
  rw [MessageClass.Pack, foldlM_pack hc.pack hc.member hv
    (fun f hf => hc.fits hlength hf),
    hc.laidOut.foldl_splice_whole (hc.length_chunk hv) hlength]

/-- `Unpack` reads every field at its place. -/
theorem unpack_eq (hc : c.WellFormed) (hself : c.types.WellTyped self)
    (hlength : payload.length = c.message.Size) :
    ∃ w, c.Unpack payload self = some w ∧ c.types.WellTyped w ∧
      ∀ f ∈ c.message.Fields, w f.goField = f.value payload := by
  obtain ⟨hrun, hwell⟩ := foldlM_unpack hc.unpack hc.member hself
    fun f hf => hc.fits hlength hf
  refine ⟨_, ?_, hwell, fun f hf => foldl_update hc.names _ _ hf⟩
  rw [MessageClass.Unpack, if_neg hlength.ge.not_gt, hrun]

theorem length_pack (hc : c.WellFormed) (hv : c.types.WellTyped v) :
    (c.message.Fields.flatMap (MessageField.chunk v)).length =
      c.message.Size :=
  length_chunks (hc.length_chunk hv)

theorem unpack_pack (hc : c.WellFormed) (hv : c.types.WellTyped v)
    (hself : c.types.WellTyped self) :
    ∃ payload, c.Pack v = some payload ∧
      payload.length = c.message.Size ∧
      ∃ w, c.Unpack payload self = some w ∧
        ∀ f ∈ c.message.Fields, w f.goField = v f.goField := by
  have hlength := hc.length_pack hv
  obtain ⟨w, hunpack, -, hvalue⟩ := hc.unpack_eq hself hlength
  refine ⟨_, hc.pack_eq hv, hlength, w, hunpack, fun f hf => ?_⟩
  obtain ⟨t, hmember⟩ := hc.member f hf
  have hregion := hc.laidOut.region_chunks_whole (hc.length_chunk hv) hf
  rw [hvalue f hf, hmember.value_chunk hv hregion]

theorem pack_unpack (hc : c.WellFormed) (hself : c.types.WellTyped self)
    (hlength : payload.length = c.message.Size) :
    ∃ w, c.Unpack payload self = some w ∧ c.types.WellTyped w ∧
      c.Pack w = some payload := by
  obtain ⟨w, hunpack, hw, hvalue⟩ := hc.unpack_eq hself hlength
  refine ⟨w, hunpack, hw, ?_⟩
  have hchunks : c.message.Fields.flatMap (MessageField.chunk w) =
      c.message.Fields.flatMap fun f =>
        region payload f.ByteOffset f.SizeInBytes :=
    List.flatMap_congr fun f hf =>
      MessageField.chunk_value (hvalue f hf) (hc.fits hlength hf)
  rw [hc.pack_eq hw, hchunks, hc.laidOut.flatMap_region, region,
    List.drop_zero, ← Message.Size, ← hlength, List.take_length]

end MessageClass.WellFormed

/-! ## Generated classes -/

/-- The field after `GoTypeInfo` is the declared field with its size. -/
def MessageField.Sized (f g : MessageField) : Prop :=
  g.Name = f.Name ∧ g.CType = f.CType ∧
    ∃ t, CTypeOf f.CType t ∧ g.BitSize = t.elem.bits

/-- What a class keeps of its message, where the lengths, ranges and round
trips are those of its own fields. -/
structure Message.GeneratedAs (m : Message) (c : MessageClass) : Prop where
  reordered : ∃ fields, List.Forall₂ MessageField.Sized m.Fields fields ∧
    StableReordering fields c.message.Fields
  declared : ∀ f ∈ m.Fields, ∃ t, CTypeOf f.CType t ∧
    c.types (UpperCamelCase f.Name) = some t
  covered : ∀ i, i < c.message.Size ↔ ∃ f ∈ c.message.Fields,
    f.ByteOffset ≤ i ∧ i < f.ByteOffset + f.SizeInBytes
  disjoint : c.message.Fields.Pairwise fun f g =>
    f.ByteOffset + f.SizeInBytes ≤ g.ByteOffset
  unpack_pack : ∀ v self, c.types.WellTyped v → c.types.WellTyped self →
    ∃ payload, c.Pack v = some payload ∧
      payload.length = c.message.Size ∧
      ∃ w, c.Unpack payload self = some w ∧
        ∀ f ∈ m.Fields,
          w (UpperCamelCase f.Name) = v (UpperCamelCase f.Name)
  pack_unpack : ∀ payload self, payload.length = c.message.Size →
    c.types.WellTyped self →
      ∃ w, c.Unpack payload self = some w ∧ c.types.WellTyped w ∧
        c.Pack w = some payload

theorem typed_keeps {f g : MessageField} (htyped : f.typed = .ok g) :
    g.Name = f.Name ∧ g.CType = f.CType := by
  rw [MessageField.typed] at htyped
  cases hinfo : GoTypeInfo f.CType with
  | error e =>
      rw [hinfo] at htyped
      cases htyped
  | ok info =>
      rw [hinfo] at htyped
      cases htyped
      exact ⟨rfl, rfl⟩

section

variable {m m' : Message} {c : MessageClass}

theorem process_eq (hprocess : m.process = .ok m') :
    ∃ fields, List.Forall₂ (fun f g => f.typed = .ok g) m.Fields fields ∧
      m'.Fields = setOffsets 0 (Message.sorted ⟨fields⟩) := by
  rw [Message.process] at hprocess
  cases hfields : m.Fields.mapM MessageField.typed with
  | error e =>
      rw [hfields] at hprocess
      cases hprocess
  | ok fields =>
      rw [hfields] at hprocess
      cases hprocess
      exact ⟨fields, mapM_eq_ok_iff.mp hfields, rfl⟩

theorem emit_eq (hemit : m'.emit = .ok c) :
    c.message = m' ∧
      List.Forall₂ (fun f stmt => f.PayloadPackSequence = .ok stmt)
        m'.Fields c.pack ∧
      List.Forall₂ (fun f stmt => f.PayloadUnpackSequence = .ok stmt)
        m'.Fields c.unpack := by
  rw [Message.emit] at hemit
  cases hpack : m'.Fields.mapM MessageField.PayloadPackSequence with
  | error e =>
      rw [hpack] at hemit
      cases hemit
  | ok pack =>
      cases hunpack : m'.Fields.mapM MessageField.PayloadUnpackSequence with
      | error e =>
          rw [hpack, hunpack] at hemit
          cases hemit
      | ok unpack =>
          rw [hpack, hunpack] at hemit
          cases hemit
          exact ⟨rfl, mapM_eq_ok_iff.mp hpack, mapM_eq_ok_iff.mp hunpack⟩

theorem types_eq {fields : List MessageField} (hc : c.message.Fields = fields)
    (hnames : (fields.map MessageField.goField).Nodup) {f : MessageField}
    (hf : f ∈ fields) : c.types f.goField = goFieldType f.GoType := by
  subst hc
  have hfind := find?_of_nodup hnames hf
  change (c.message.Fields.find? fun g => g.goField = f.goField).bind _ = _
  rw [hfind, Option.bind_some]

theorem describes_of_unplaced {f g : MessageField} {t : GoFieldType}
    (hsame : g.unplaced = f.unplaced) (hg : g.Describes t) :
    f.Describes t := by
  obtain ⟨_, _, _, _, _, _⟩ := f
  obtain ⟨_, _, _, _, _, _⟩ := g
  simp only [MessageField.unplaced, MessageField.mk.injEq] at hsame
  obtain ⟨-, -, rfl, rfl, rfl, -⟩ := hsame
  exact ⟨hg.declares, hg.bitSize, hg.arrayLen, hg.positive, hg.elem⟩

theorem describes_of_supported {f g : MessageField}
    (hsupported : Supported f.CType) (htyped : f.typed = .ok g) :
    ∃ t, CTypeOf f.CType t ∧ g.Describes t :=
  hsupported.imp fun _ htype => ⟨htype, describes_of_typed htype htyped⟩

theorem describes_of_process (hprocess : m.process = .ok m')
    (hsupported : ∀ f ∈ m.Fields, Supported f.CType) :
    ∀ f ∈ m'.Fields, ∃ t, f.Describes t := by
  obtain ⟨fields, htyped, hfields⟩ := process_eq hprocess
  have hreordered : StableReordering fields m'.Fields :=
    hfields ▸ stableReordering_setOffsets ⟨fields⟩
  intro f hf
  obtain ⟨g, hg, hunplaced⟩ := hreordered.exists_before hf
  obtain ⟨f₀, hf₀, htype⟩ := forall₂_mem_right htyped hg
  obtain ⟨t, -, hdescribe⟩ :=
    describes_of_supported (hsupported f₀ hf₀) htype
  exact ⟨t, describes_of_unplaced hunplaced hdescribe⟩

theorem generatedAs_of_process (hprocess : m.process = .ok m')
    (hemit : m'.emit = .ok c)
    (hsupported : ∀ f ∈ m.Fields, Supported f.CType)
    (hnames : (m.Fields.map fun f => UpperCamelCase f.Name).Nodup) :
    m.GeneratedAs c := by
  obtain ⟨fields, htyped, hfields⟩ := process_eq hprocess
  obtain ⟨rfl, hpack, hunpack⟩ := emit_eq hemit
  have hreordered : StableReordering fields c.message.Fields :=
    hfields ▸ stableReordering_setOffsets ⟨fields⟩
  have hlaid : LaidOut MessageField.SizeInBytes MessageField.ByteOffset 0
      c.message.Fields := hfields ▸ laidOut_setOffsets 0 _
  have hsame : m.Fields.map MessageField.goField =
      fields.map MessageField.goField := by
    rw [← List.forall₂_eq_eq_eq, List.forall₂_map_left_iff,
      List.forall₂_map_right_iff]
    exact htyped.imp fun f g hg =>
      congrArg UpperCamelCase (typed_keeps hg).1.symm
  have hnodup : (c.message.Fields.map MessageField.goField).Nodup := by
    rw [hreordered.names.nodup_iff, ← hsame]
    exact hnames
  have htypes : ∀ {f t}, f ∈ c.message.Fields → f.Describes t →
      c.types f.goField = some t := fun hf hdescribe =>
    (types_eq rfl hnodup hf).trans hdescribe.declares.field
  have hmember : ∀ f ∈ c.message.Fields, ∃ t, f.Member c.types t := by
    intro f hf
    obtain ⟨t, hdescribe⟩ := describes_of_process hprocess hsupported f hf
    exact ⟨t, hdescribe, htypes hf hdescribe⟩
  have hplaced : ∀ f ∈ m.Fields, ∃ f' ∈ c.message.Fields,
      f'.goField = UpperCamelCase f.Name ∧
        ∃ t, CTypeOf f.CType t ∧ f'.Describes t := by
    intro f hf
    obtain ⟨g, hg, htype⟩ := forall₂_mem_left htyped hf
    obtain ⟨f', hf', hunplaced⟩ := hreordered.exists_after hg
    obtain ⟨t, hctype, hdescribe⟩ :=
      describes_of_supported (hsupported f hf) htype
    have hname : f'.Name = g.Name := by
      have hfield := congrArg MessageField.Name hunplaced
      exact hfield
    refine ⟨f', hf', ?_, t, hctype,
      describes_of_unplaced hunplaced.symm hdescribe⟩
    rw [MessageField.goField, hname, (typed_keeps htype).1]
  have hwell : c.WellFormed := ⟨hlaid, hnodup, hmember, hpack, hunpack⟩
  refine ⟨⟨fields, ?_, hreordered⟩, ?_, ?_, hlaid.disjoint, ?_, ?_⟩
  · refine ((List.forall₂_and_left _ _).mpr
      ⟨hsupported, htyped⟩).imp ?_
    intro f g ⟨hf, hg⟩
    obtain ⟨t, hctype, hdescribe⟩ := describes_of_supported hf hg
    exact ⟨(typed_keeps hg).1, (typed_keeps hg).2, t, hctype,
      hdescribe.bitSize⟩
  · intro f hf
    obtain ⟨f', hf', hname, t, hctype, hdescribe⟩ := hplaced f hf
    exact ⟨t, hctype, hname ▸ htypes hf' hdescribe⟩
  · intro i
    have htiles := hlaid.tiles i
    rwa [zero_add, and_iff_right (Nat.zero_le i)] at htiles
  · intro v self hv hself
    obtain ⟨payload, hpacked, hlength, w, hunpacked, hvalue⟩ :=
      hwell.unpack_pack hv hself
    refine ⟨payload, hpacked, hlength, w, hunpacked, fun f hf => ?_⟩
    obtain ⟨f', hf', hname, -⟩ := hplaced f hf
    rw [← hname, hvalue f' hf']
  · exact fun payload self hlength hself => hwell.pack_unpack hself hlength

theorem process_ok
    (hfits : ∀ f ∈ m.Fields,
      ∃ t, CTypeOf f.CType t ∧ ∀ n ∈ t.len, n < 2 ^ 63) :
    ∃ m', m.process = .ok m' := by
  have htyped : ∀ f ∈ m.Fields, ∃ g, f.typed = .ok g := fun f hf =>
    have ⟨_, htype, hlen⟩ := hfits f hf
    typed_ok htype hlen
  obtain ⟨fields, hfields⟩ := mapM_ok htyped
  rw [Message.process, hfields]
  exact ⟨_, rfl⟩

theorem emit_ok (hprocess : m.process = .ok m')
    (hsupported : ∀ f ∈ m.Fields, Supported f.CType) :
    ∃ c, m'.emit = .ok c := by
  have hdescribes := describes_of_process hprocess hsupported
  have hpack : ∀ f ∈ m'.Fields, ∃ stmt, f.PayloadPackSequence = .ok stmt :=
    fun f hf =>
      have ⟨t, hdescribe⟩ := hdescribes f hf
      (hdescribe.payloadPackSequence (fun _ => some t) rfl).imp
        fun _ => And.left
  have hunpack : ∀ f ∈ m'.Fields,
      ∃ stmt, f.PayloadUnpackSequence = .ok stmt := fun f hf =>
    have ⟨t, hdescribe⟩ := hdescribes f hf
    (hdescribe.payloadUnpackSequence (fun _ => some t) rfl).imp
      fun _ => And.left
  obtain ⟨pack, hpacked⟩ := mapM_ok hpack
  obtain ⟨unpack, hunpacked⟩ := mapM_ok hunpack
  rw [Message.emit, hpacked, hunpacked]
  exact ⟨_, rfl⟩

end

/-- Supported types are processed, when array lengths fit in an `int`. -/
theorem generateClasses_ok {messages : List Message}
    (hfits : ∀ m ∈ messages, ∀ f ∈ m.Fields,
      ∃ t, CTypeOf f.CType t ∧ ∀ n ∈ t.len, n < 2 ^ 63) :
    ∃ classes, generateClasses messages = .ok classes := by
  obtain ⟨processed, hprocessed⟩ :=
    mapM_ok fun m hm => process_ok (hfits m hm)
  have hemit : ∀ m' ∈ processed, ∃ c, m'.emit = .ok c := by
    intro m' hm'
    obtain ⟨m, hm, hprocess⟩ :=
      forall₂_mem_right (mapM_eq_ok_iff.mp hprocessed) hm'
    exact emit_ok hprocess fun f hf =>
      (hfits m hm f hf).imp fun _ => And.left
  obtain ⟨classes, hclasses⟩ := mapM_ok hemit
  rw [generateClasses, hprocessed]
  exact ⟨classes, hclasses⟩

/-- Every message whose fields have supported types and different names. -/
theorem generateClasses_generatedAs {messages : List Message}
    {classes : List MessageClass}
    (hgenerate : generateClasses messages = .ok classes) :
    List.Forall₂ (fun m c => (∀ f ∈ m.Fields, Supported f.CType) →
      (m.Fields.map fun f => UpperCamelCase f.Name).Nodup →
        m.GeneratedAs c) messages classes := by
  rw [generateClasses] at hgenerate
  cases hprocessed : messages.mapM Message.process with
  | error e =>
      rw [hprocessed] at hgenerate
      cases hgenerate
  | ok processed =>
      rw [hprocessed] at hgenerate
      have hemitted : List.Forall₂ (fun m' c => m'.emit = .ok c) processed
          classes := mapM_eq_ok_iff.mp hgenerate
      refine (forall₂_comp (mapM_eq_ok_iff.mp hprocessed) hemitted).imp ?_
      intro m c ⟨m', hprocess, hemit⟩ hsupported hnames
      exact generatedAs_of_process hprocess hemit hsupported hnames

/-- The fields of a parameter in the common dialect. -/
def paramValueMessage : Message :=
  ⟨[⟨"char[16]".toList, "param_id".toList, [], 0, 0, 0⟩,
    ⟨"float".toList, "param_value".toList, [], 0, 0, 0⟩,
    ⟨"uint8_t".toList, "param_type".toList, [], 0, 0, 0⟩,
    ⟨"uint16_t".toList, "param_count".toList, [], 0, 0, 0⟩,
    ⟨"uint16_t".toList, "param_index".toList, [], 0, 0, 0⟩]⟩

theorem paramValueMessage_types : ∀ f ∈ paramValueMessage.Fields,
    ∃ t, CTypeOf f.CType t ∧ ∀ n ∈ t.len, n < 2 ^ 63 := by
  have hchars : "char[16]".toList =
      "char".toList ++ '[' :: (Nat.toDigits 10 16 ++ [']']) := by decide
  have hid : CTypeOf "char[16]".toList ⟨some 16, ⟨.uint, 8⟩⟩ :=
    hchars ▸ .array (by decide) (by decide)
  have hscalar : ∀ entry ∈ cTypes,
      ∃ t, CTypeOf entry.1.toList t ∧ ∀ n ∈ t.len, n < 2 ^ 63 :=
    fun _ hs => ⟨_, .scalar hs, fun n hn => absurd hn (by simp)⟩
  simp only [paramValueMessage, List.forall_mem_cons]
  exact ⟨⟨_, hid, by decide⟩, hscalar ("float", ⟨.float, 32⟩) (by decide),
    hscalar ("uint8_t", ⟨.uint, 8⟩) (by decide),
    hscalar ("uint16_t", ⟨.uint, 16⟩) (by decide),
    hscalar ("uint16_t", ⟨.uint, 16⟩) (by decide), by simp⟩

theorem paramValueMessage_generated :
    ∃ c, generateClasses [paramValueMessage] = .ok [c] ∧
      paramValueMessage.GeneratedAs c := by
  obtain ⟨classes, hgenerate⟩ := generateClasses_ok
    (List.forall_mem_singleton.mpr paramValueMessage_types)
  have hclasses := generateClasses_generatedAs hgenerate
  rw [List.forall₂_cons_left_iff] at hclasses
  obtain ⟨c, rest, hc, hrest, rfl⟩ := hclasses
  rw [List.forall₂_nil_left_iff] at hrest
  subst hrest
  exact ⟨c, hgenerate, hc
    (fun f hf => (paramValueMessage_types f hf).imp fun _ => And.left)
    (by decide)⟩

end DronesmithEngine.Generator
