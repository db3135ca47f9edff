import DronesmithEngine.GeneratorStages

/-!
# Constants of enums

`generateEnums` of `mavlink/generator/generator.go` numbers the entries that
have no value by their position.  The XML decoder leaves an absent value 0, so
an entry that is given the value 0 is numbered too.
-/

namespace DronesmithEngine.Generator

/-! ## Enums in XML -/

structure XmlEntry where
  value : Option UInt16
  Name : Text

structure XmlEnum where
  Name : Text
  Entries : List XmlEntry

structure XmlDialect where
  Name : Text
  Enums : List XmlEnum
  Messages : List DialectMessage

def XmlEnum.decode (e : XmlEnum) : Enum where
  Name := e.Name
  Entries := e.Entries.map fun x => ⟨x.value.getD 0, x.Name⟩

def XmlDialect.decode (d : XmlDialect) : Dialect where
  Name := d.Name
  Enums := d.Enums.map XmlEnum.decode
  Messages := d.Messages

/-! ## What is to be emitted -/

namespace XmlEnum

/-- The constant of an entry with a value is that value. -/
def EmitsGiven (e : XmlEnum) (out : Enum) : Prop :=
  ∀ (i : ℕ) (x : XmlEntry) (v : UInt16), e.Entries[i]? = some x →
    x.value = some v → out.Entries[i]?.map EnumEntry.Value = some v

def KeepsDistinct (e : XmlEnum) (out : Enum) : Prop :=
  (e.Entries.filterMap XmlEntry.value).Nodup →
    (out.Entries.map EnumEntry.Value).Nodup

/-- Only an entry whose position is 0 as a `uint16` is given the value 0. -/
def ZeroFirst (e : XmlEnum) : Prop :=
  ∀ p ∈ e.Entries.zipIdx, p.1.value = some 0 → p.2.toUInt16 = 0

/-- The position of an entry without a value is neither the value nor, as a
`uint16`, the position of another entry. -/
def FreePositions (e : XmlEnum) : Prop :=
  ∀ p ∈ e.Entries.zipIdx, ∀ q ∈ e.Entries.zipIdx, p.2 ≠ q.2 →
    p.1.value = none → q.1.value.getD q.2.toUInt16 ≠ p.2.toUInt16

instance (e : XmlEnum) : Decidable e.ZeroFirst :=
  inferInstanceAs (Decidable (∀ p ∈ _, _))

instance (e : XmlEnum) : Decidable e.FreePositions :=
  inferInstanceAs (Decidable (∀ p ∈ _, _))

/-! ## What is emitted -/

variable {e : XmlEnum}

theorem emitted_getElem? (e : XmlEnum) (i : ℕ) :
    e.decode.fill.Entries[i]?.map EnumEntry.Value =
      e.Entries[i]?.map fun x =>
        if x.value.getD 0 = 0 then i.toUInt16 else x.value.getD 0 := by
  simp only [decode, Enum.fill, List.getElem?_mapIdx, List.getElem?_map,
    Option.map_map]
  congr 1
  funext x
  simp only [Function.comp_apply]
  split
  · rfl
  · rfl

theorem mem_positions {i : ℕ} {x : XmlEntry} (hx : e.Entries[i]? = some x) :
    (x, i) ∈ e.Entries.zipIdx :=
  List.mk_mem_zipIdx_iff_getElem?.mpr hx

theorem emitsGiven_iff : e.EmitsGiven e.decode.fill ↔ e.ZeroFirst := by
  constructor
  · rintro hgiven ⟨x, i⟩ hmem hzero
    have hx := List.mk_mem_zipIdx_iff_getElem?.mp hmem
    have hemitted := hgiven i x 0 hx hzero
    rw [emitted_getElem?, hx, Option.map_some, Option.some_inj, hzero,
      Option.getD_some, if_pos rfl] at hemitted
    exact hemitted
  · intro hfirst i x v hx hv
    rw [emitted_getElem?, hx, Option.map_some, hv, Option.getD_some]
    by_cases hzero : v = 0
    · subst hzero
      rw [if_pos rfl, hfirst (x, i) (mem_positions hx) hv]
    · rw [if_neg hzero]

/-- Where zero comes first, every entry gets its value or its position. -/
theorem ZeroFirst.emitted (hfirst : e.ZeroFirst) (i : ℕ) :
    e.decode.fill.Entries[i]?.map EnumEntry.Value =
      e.Entries[i]?.map fun x => x.value.getD i.toUInt16 := by
  rw [emitted_getElem?]
  cases hx : e.Entries[i]? with
  | none => rfl
  | some x =>
      rw [Option.map_some, Option.map_some, Option.some_inj]
      cases hv : x.value with
      | none => rfl
      | some v =>
          rw [Option.getD_some, Option.getD_some]
          by_cases hzero : v = 0
          · subst hzero
            rw [if_pos rfl, hfirst (x, i) (mem_positions hx) hv]
          · rw [if_neg hzero]

theorem given_ne (hgiven : (e.Entries.filterMap XmlEntry.value).Nodup)
    {i j : ℕ} {x y : XmlEntry} {v w : UInt16} (hne : i ≠ j)
    (hx : e.Entries[i]? = some x) (hy : e.Entries[j]? = some y)
    (hv : x.value = some v) (hw : y.value = some w) : v ≠ w := by
  have hpairs := List.pairwise_iff_getElem.mp
    (List.pairwise_filterMap.mp hgiven)
  obtain ⟨hi, rfl⟩ := List.getElem?_eq_some_iff.mp hx
  obtain ⟨hj, rfl⟩ := List.getElem?_eq_some_iff.mp hy
  rcases Nat.lt_or_gt_of_ne hne with hlt | hgt
  · exact hpairs i j hi hj hlt v hv w hw
  · exact (hpairs j i hj hi hgt w hw v hv).symm

theorem ZeroFirst.keepsDistinct_iff (hfirst : e.ZeroFirst) :
    e.KeepsDistinct e.decode.fill ↔
      ((e.Entries.filterMap XmlEntry.value).Nodup → e.FreePositions) := by
  refine imp_congr_right fun hgiven => ?_
  have hvalues : (e.decode.fill.Entries.map EnumEntry.Value).Nodup ↔
      ∀ (i j : ℕ) (x y : XmlEntry), i < j → e.Entries[i]? = some x →
        e.Entries[j]? = some y →
          x.value.getD i.toUInt16 ≠ y.value.getD j.toUInt16 := by
    rw [List.nodup_iff_getElem?_ne_getElem?]
    simp only [List.getElem?_map, hfirst.emitted]
    constructor
    · intro hne i j x y hij hx hy heq
      have hj : j < (e.decode.fill.Entries.map EnumEntry.Value).length := by
        have hlt := (List.getElem?_eq_some_iff.mp hy).1
        simpa [decode, Enum.fill] using hlt
      apply hne i j hij hj
      rw [hx, hy, Option.map_some, Option.map_some, heq]
    · intro hne i j hij hj heq
      have hlt : j < e.Entries.length := by
        simpa [decode, Enum.fill] using hj
      have hx := List.getElem?_eq_getElem (hij.trans hlt)
      have hy := List.getElem?_eq_getElem hlt
      rw [hx, hy, Option.map_some, Option.map_some, Option.some_inj] at heq
      exact hne i j _ _ hij hx hy heq
  rw [hvalues]
  constructor
  · rintro hne ⟨x, i⟩ hi ⟨y, j⟩ hj hij hnone heq
    have hx := List.mk_mem_zipIdx_iff_getElem?.mp hi
    have hy := List.mk_mem_zipIdx_iff_getElem?.mp hj
    rcases Nat.lt_or_gt_of_ne hij with hlt | hgt
    · apply hne i j x y hlt hx hy
      rw [hnone, heq, Option.getD_none]
    · apply hne j i y x hgt hy hx
      rw [hnone, heq, Option.getD_none]
  · intro hfree i j x y hij hx hy heq
    cases hv : x.value with
    | none =>
        apply hfree (x, i) (mem_positions hx) (y, j) (mem_positions hy)
          hij.ne hv
        rw [← heq, hv, Option.getD_none]
    | some v =>
        cases hw : y.value with
        | none =>
            apply hfree (y, j) (mem_positions hy) (x, i) (mem_positions hx)
              hij.ne' hw
            rw [heq, hw, Option.getD_none]
        | some w =>
            rw [hv, hw, Option.getD_some, Option.getD_some] at heq
            exact given_ne hgiven hij.ne hx hy hv hw heq

end XmlEnum

theorem generateEnums_written (d : XmlDialect) {k : ℕ} {e : XmlEnum}
    (he : d.Enums[k]? = some e) :
    d.decode.generateEnums.written[k]? = some (.enum e.decode.fill) := by
  simp only [XmlDialect.decode, Dialect.generateEnums, List.map_map,
    List.getElem?_map, he]
  rfl

/-- The constants of an enum are as its values ask for exactly when no entry
but the first has the value 0 and positions do not meet values. -/
theorem constants_faithful_iff (d : XmlDialect) {k : ℕ} {e : XmlEnum}
    (he : d.Enums[k]? = some e) :
    (∃ out, d.decode.generateEnums.written[k]? = some (.enum out) ∧
        e.EmitsGiven out ∧ e.KeepsDistinct out) ↔
      e.ZeroFirst ∧
        ((e.Entries.filterMap XmlEntry.value).Nodup → e.FreePositions) := by
  rw [generateEnums_written d he]
  have hout : (∃ out, some (GoDecl.enum e.decode.fill) = some (.enum out) ∧
      e.EmitsGiven out ∧ e.KeepsDistinct out) ↔
        e.EmitsGiven e.decode.fill ∧ e.KeepsDistinct e.decode.fill := by
    constructor
    · rintro ⟨out, heq, hout⟩
      cases heq
      exact hout
    · exact fun hout => ⟨_, rfl, hout⟩
  rw [hout, XmlEnum.emitsGiven_iff]
  exact and_congr_right fun hfirst => hfirst.keepsDistinct_iff

/-- The last of three entries has no value and is numbered. -/
def numbered : XmlEnum where
  Name := "MAV_RESULT".toList
  Entries :=
    [⟨some 0, "MAV_RESULT_ACCEPTED".toList⟩,
      ⟨some 1, "MAV_RESULT_TEMPORARILY_REJECTED".toList⟩,
      ⟨none, "MAV_RESULT_DENIED".toList⟩]

theorem constants_faithful_iff_numbered :
    ∃ out, (XmlDialect.mk [] [numbered] []).decode.generateEnums.written[0]? =
        some (.enum out) ∧
      numbered.EmitsGiven out ∧ numbered.KeepsDistinct out :=
  (constants_faithful_iff ⟨[], [numbered], []⟩ rfl).mpr
    ⟨by decide, fun _ => by decide⟩

/-- The value 0 behind another entry is taken for an absent one. -/
theorem zero_renumbered :
    ¬ ∀ (d : XmlDialect) (k : ℕ) (e : XmlEnum), d.Enums[k]? = some e →
      ∃ out, d.decode.generateEnums.written[k]? = some (.enum out) ∧
        e.EmitsGiven out ∧ e.KeepsDistinct out := by
  intro hall
  let e : XmlEnum := ⟨"FLAGS".toList,
    [⟨some 1, "FLAGS_ON".toList⟩, ⟨some 0, "FLAGS_OFF".toList⟩]⟩
  obtain ⟨out, hout, hgiven, -⟩ := hall ⟨[], [e], []⟩ 0 e rfl
  cases hout
  exact absurd (XmlEnum.emitsGiven_iff.mp hgiven) (by decide)

end DronesmithEngine.Generator
