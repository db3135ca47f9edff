import Mathlib.Tactic

/-!
# Numbers and regions in byte lists

Little-endian numbers of any number of bytes, lists of such numbers, and
fields that lie one after another.  Writing the chunks of all fields into a
list of bytes replaces it by their concatenation, and reading the region of a
field gives its chunk back.
-/

namespace ByteLayout

/-! ## Little-endian numbers -/

def toBytes : ℕ → ℕ → List UInt8
  | 0, _ => []
  | k + 1, x => UInt8.ofNat x :: toBytes k (x / 256)

def ofBytes : List UInt8 → ℕ
  | [] => 0
  | b :: bytes => b.toNat + 256 * ofBytes bytes

@[simp] theorem length_toBytes (k x : ℕ) : (toBytes k x).length = k := by
  induction k generalizing x with
  | zero => rfl
  | succ k ih => rw [toBytes, List.length_cons, ih]

theorem ofBytes_toBytes {k x : ℕ} (hx : x < 256 ^ k) :
    ofBytes (toBytes k x) = x := by
  induction k generalizing x with
  | zero =>
      rw [pow_zero, Nat.lt_one_iff] at hx
      rw [hx]
      rfl
  | succ k ih =>
      have hrest : x / 256 < 256 ^ k := by
        rw [pow_succ] at hx
        exact Nat.div_lt_of_lt_mul (by omega)
      rw [toBytes, ofBytes, ih hrest, UInt8.toNat_ofNat']
      omega

theorem toBytes_ofBytes (bytes : List UInt8) :
    toBytes bytes.length (ofBytes bytes) = bytes := by
  induction bytes with
  | nil => rfl
  | cons b bytes ih =>
      have hb : b.toNat < 256 := b.toNat_lt
      have hrest : (b.toNat + 256 * ofBytes bytes) / 256 = ofBytes bytes := by
        omega
      have hfirst : UInt8.ofNat (b.toNat + 256 * ofBytes bytes) = b := by
        apply UInt8.toNat_inj.mp
        rw [UInt8.toNat_ofNat']
        omega
      rw [List.length_cons, toBytes, ofBytes, hrest, ih, hfirst]

theorem ofBytes_lt (bytes : List UInt8) :
    ofBytes bytes < 256 ^ bytes.length := by
  induction bytes with
  | nil => exact Nat.one_pos
  | cons b bytes ih =>
      have hb : b.toNat < 256 := b.toNat_lt
      rw [ofBytes, List.length_cons, pow_succ]
      omega

/-! ## Regions -/

def region (bytes : List UInt8) (offset size : ℕ) : List UInt8 :=
  (bytes.drop offset).take size

def splice (bytes : List UInt8) (offset : ℕ) (chunk : List UInt8) :
    List UInt8 :=
  bytes.take offset ++ chunk ++ bytes.drop (offset + chunk.length)

theorem length_region {bytes : List UInt8} {offset size : ℕ}
    (hfits : offset + size ≤ bytes.length) :
    (region bytes offset size).length = size := by
  rw [region, List.length_take, List.length_drop]
  omega

theorem length_splice {bytes chunk : List UInt8} {offset : ℕ}
    (hfits : offset + chunk.length ≤ bytes.length) :
    (splice bytes offset chunk).length = bytes.length := by
  simp only [splice, List.length_append, List.length_take, List.length_drop]
  omega

theorem splice_append (before old after chunk : List UInt8)
    (hlength : chunk.length = old.length) :
    splice (before ++ old ++ after) before.length chunk =
      before ++ chunk ++ after := by
  have hskip : before.length + chunk.length = (before ++ old).length := by
    rw [List.length_append, hlength]
  rw [splice, hskip, List.drop_left, List.append_assoc before old,
    List.take_left]

theorem region_append (before chunk after : List UInt8) :
    region (before ++ chunk ++ after) before.length chunk.length = chunk := by
  rw [region, List.append_assoc, List.drop_left, List.take_left]

/-- Two chunks that are written one after the other. -/
theorem splice_splice {bytes first second : List UInt8} {offset : ℕ}
    (hfits : offset + first.length ≤ bytes.length) :
    splice (splice bytes offset first) (offset + first.length) second =
      splice bytes offset (first ++ second) := by
  have hbefore : (bytes.take offset ++ first).length =
      offset + first.length := by
    rw [List.length_append, List.length_take]
    omega
  have hafter : (splice bytes offset first).drop
      (offset + first.length + second.length) =
        bytes.drop (offset + (first ++ second).length) := by
    rw [splice, ← hbefore, List.drop_append, List.drop_of_length_le (by omega),
      List.nil_append, List.drop_drop, hbefore, List.length_append]
    congr 1
    omega
  rw [splice, hafter, splice, List.take_left' hbefore, splice,
    List.append_assoc (bytes.take offset)]

theorem splice_nil (bytes : List UInt8) (offset : ℕ) :
    splice bytes offset [] = bytes := by
  rw [splice, List.append_nil, List.length_nil, Nat.add_zero,
    List.take_append_drop]

theorem set_eq_splice {bytes : List UInt8} {offset : ℕ}
    (hfits : offset < bytes.length) (b : UInt8) :
    bytes.set offset b = splice bytes offset [b] := by
  rw [List.set_eq_take_append_cons_drop, if_pos hfits, splice,
    List.length_singleton, List.append_assoc, List.singleton_append]

theorem region_region {bytes : List UInt8} {offset size inner width : ℕ}
    (hinner : inner + width ≤ size) :
    region (region bytes offset size) inner width =
      region bytes (offset + inner) width := by
  rw [region, region, region, List.drop_take, List.drop_drop,
    List.take_take]
  congr 1
  omega

/-! ## Lists of numbers -/

def wordsToBytes (k : ℕ) (words : List ℕ) : List UInt8 :=
  words.flatMap (toBytes k)

def bytesToWords (k n : ℕ) (bytes : List UInt8) : List ℕ :=
  (List.range n).map fun i => ofBytes (region bytes (i * k) k)

theorem length_wordsToBytes (k : ℕ) (words : List ℕ) :
    (wordsToBytes k words).length = words.length * k := by
  induction words with
  | nil => simp [wordsToBytes]
  | cons x words ih =>
      rw [wordsToBytes, List.flatMap_cons, List.length_append,
        length_toBytes, List.length_cons, Nat.add_mul, one_mul, add_comm]
      exact congrArg (· + k) ih

@[simp] theorem length_bytesToWords (k n : ℕ) (bytes : List UInt8) :
    (bytesToWords k n bytes).length = n := by
  rw [bytesToWords, List.length_map, List.length_range]

theorem bytesToWords_succ (k n : ℕ) (bytes : List UInt8) :
    bytesToWords k (n + 1) bytes =
      ofBytes (bytes.take k) :: bytesToWords k n (bytes.drop k) := by
  rw [bytesToWords, List.range_succ_eq_map, List.map_cons, List.map_map]
  refine congrArg₂ List.cons ?_ (List.map_congr_left fun i _ => ?_)
  · rw [region, Nat.zero_mul, List.drop_zero]
  · rw [Function.comp, region, region, List.drop_drop]
    congr 3
    rw [Nat.succ_mul, add_comm]

theorem bytesToWords_snoc (k n : ℕ) (bytes : List UInt8) :
    bytesToWords k (n + 1) bytes =
      bytesToWords k n bytes ++ [ofBytes (region bytes (n * k) k)] := by
  rw [bytesToWords, bytesToWords, List.range_succ, List.map_append]
  rfl

theorem bytesToWords_region {k n offset : ℕ} (bytes : List UInt8) :
    bytesToWords k n (region bytes offset (n * k)) =
      bytesToWords k n (bytes.drop offset) := by
  refine List.map_congr_left fun i hi => ?_
  have hinner : i * k + k ≤ n * k := by
    rw [← Nat.succ_mul]
    exact Nat.mul_le_mul_right k (List.mem_range.mp hi)
  rw [region_region hinner, region, region, List.drop_drop]

theorem bytesToWords_wordsToBytes {k : ℕ} {words : List ℕ}
    (hwords : ∀ x ∈ words, x < 256 ^ k) :
    bytesToWords k words.length (wordsToBytes k words) = words := by
  induction words with
  | nil => rfl
  | cons x words ih =>
      rw [List.forall_mem_cons] at hwords
      have hlength := length_toBytes k x
      rw [List.length_cons, bytesToWords_succ, wordsToBytes,
        List.flatMap_cons, List.take_left' hlength, List.drop_left' hlength,
        ofBytes_toBytes hwords.1]
      exact congrArg _ (ih hwords.2)

theorem wordsToBytes_bytesToWords {k n : ℕ} {bytes : List UInt8}
    (hlength : bytes.length = n * k) :
    wordsToBytes k (bytesToWords k n bytes) = bytes := by
  induction n generalizing bytes with
  | zero =>
      rw [zero_mul, List.length_eq_zero_iff] at hlength
      rw [hlength]
      rfl
  | succ n ih =>
      rw [Nat.add_mul, one_mul] at hlength
      have htake : (bytes.take k).length = k := by
        rw [List.length_take]
        omega
      have hdrop : (bytes.drop k).length = n * k := by
        rw [List.length_drop]
        omega
      rw [bytesToWords_succ, wordsToBytes, List.flatMap_cons]
      have hfirst := toBytes_ofBytes (bytes.take k)
      rw [htake] at hfirst
      rw [hfirst]
      have hrest := ih hdrop
      rw [wordsToBytes] at hrest
      rw [hrest, List.take_append_drop]

theorem wordsToBytes_one (words : List ℕ) :
    wordsToBytes 1 words = words.map UInt8.ofNat := by
  rw [wordsToBytes, List.map_eq_flatMap]
  rfl

theorem bytesToWords_one (bytes : List UInt8) :
    bytesToWords 1 bytes.length bytes = bytes.map UInt8.toNat := by
  induction bytes with
  | nil => rfl
  | cons b bytes ih =>
      rw [List.length_cons, bytesToWords_succ, List.drop_one, List.tail_cons,
        ih, List.map_cons]
      rfl

theorem mem_bytesToWords_lt {k n x : ℕ} {bytes : List UInt8}
    (hx : x ∈ bytesToWords k n bytes) : x < 256 ^ k := by
  obtain ⟨i, -, rfl⟩ := List.mem_map.mp hx
  have hlt := ofBytes_lt (region bytes (i * k) k)
  refine hlt.trans_le (Nat.pow_le_pow_right (by decide) ?_)
  rw [region, List.length_take]
  exact Nat.min_le_left _ _

/-! ## Fields one after another -/

section

variable {F : Type*} {size offset : F → ℕ} {chunk : F → List UInt8}

/-- Every field begins where the one before it ends. -/
def LaidOut (size offset : F → ℕ) : ℕ → List F → Prop
  | _, [] => True
  | start, f :: fields =>
      offset f = start ∧ LaidOut size offset (start + size f) fields

def total (size : F → ℕ) (fields : List F) : ℕ := (fields.map size).sum

theorem length_chunks {fields : List F}
    (hchunk : ∀ f ∈ fields, (chunk f).length = size f) :
    (fields.flatMap chunk).length = total size fields := by
  induction fields with
  | nil => rfl
  | cons f fields ih =>
      rw [List.forall_mem_cons] at hchunk
      rw [List.flatMap_cons, List.length_append, hchunk.1, ih hchunk.2,
        total, total, List.map_cons, List.sum_cons]

/-- The ranges follow one another, and each byte lies in one of them. -/
theorem LaidOut.tiles {start : ℕ} {fields : List F}
    (hlaid : LaidOut size offset start fields) (i : ℕ) :
    (start ≤ i ∧ i < start + total size fields) ↔
      ∃ f ∈ fields, offset f ≤ i ∧ i < offset f + size f := by
  induction fields generalizing start with
  | nil =>
      refine iff_of_false (fun hin => ?_) (fun ⟨f, hf, _⟩ => ?_)
      · rw [total, List.map_nil, List.sum_nil] at hin
        omega
      · cases hf
  | cons f fields ih =>
      obtain ⟨rfl, hrest⟩ := hlaid
      have hih := ih hrest
      rw [total, List.map_cons, List.sum_cons, List.exists_mem_cons_iff,
        ← hih, total]
      omega

theorem LaidOut.le_offset {start : ℕ} {fields : List F}
    (hlaid : LaidOut size offset start fields) {g : F} (hg : g ∈ fields) :
    start ≤ offset g := by
  induction fields generalizing start with
  | nil => cases hg
  | cons f fields ih =>
      obtain ⟨rfl, hrest⟩ := hlaid
      rcases List.mem_cons.mp hg with rfl | hin
      · exact le_refl _
      · exact (Nat.le_add_right _ _).trans (ih hrest hin)

theorem LaidOut.disjoint {start : ℕ} {fields : List F}
    (hlaid : LaidOut size offset start fields) :
    fields.Pairwise fun f g => offset f + size f ≤ offset g := by
  induction fields generalizing start with
  | nil => exact List.Pairwise.nil
  | cons f fields ih =>
      obtain ⟨rfl, hrest⟩ := hlaid
      exact List.pairwise_cons.mpr
        ⟨fun g hg => hrest.le_offset hg, ih hrest⟩

theorem LaidOut.fits {start : ℕ} {fields : List F}
    (hlaid : LaidOut size offset start fields) {f : F} (hf : f ∈ fields) :
    offset f + size f ≤ start + total size fields := by
  induction fields generalizing start with
  | nil => cases hf
  | cons g fields ih =>
      obtain ⟨rfl, hrest⟩ := hlaid
      rw [total, List.map_cons, List.sum_cons]
      rcases List.mem_cons.mp hf with rfl | hin
      · omega
      · have hle := ih hrest hin
        rw [total] at hle
        omega

/-- Writing all chunks. -/
theorem LaidOut.foldl_splice {fields : List F}
    {before middle after : List UInt8}
    (hlaid : LaidOut size offset before.length fields)
    (hchunk : ∀ f ∈ fields, (chunk f).length = size f)
    (hmiddle : middle.length = total size fields) :
    fields.foldl (fun bytes f => splice bytes (offset f) (chunk f))
        (before ++ middle ++ after) =
      before ++ fields.flatMap chunk ++ after := by
  induction fields generalizing before middle with
  | nil =>
      rw [total, List.map_nil, List.sum_nil, List.length_eq_zero_iff]
        at hmiddle
      rw [hmiddle]
      rfl
  | cons f fields ih =>
      obtain ⟨hoffset, hrest⟩ := hlaid
      rw [List.forall_mem_cons] at hchunk
      rw [total, List.map_cons, List.sum_cons] at hmiddle
      have hfirst : (middle.take (size f)).length = size f := by
        rw [List.length_take]
        omega
      have hsecond : (middle.drop (size f)).length = total size fields := by
        rw [List.length_drop, total]
        omega
      have hsplit : before ++ middle ++ after =
          before ++ middle.take (size f) ++
            (middle.drop (size f) ++ after) := by
        rw [List.append_assoc before, List.append_assoc before,
          ← List.append_assoc (middle.take _), List.take_append_drop]
      rw [List.foldl_cons, hoffset, hsplit,
        splice_append _ _ _ _ (hchunk.1.trans hfirst.symm),
        ← List.append_assoc]
      have hlength : (before ++ chunk f).length = before.length + size f := by
        rw [List.length_append, hchunk.1]
      rw [ih (hlength.symm ▸ hrest) hchunk.2 hsecond, List.flatMap_cons,
        List.append_assoc before]

theorem LaidOut.foldl_splice_whole {fields : List F} {bytes : List UInt8}
    (hlaid : LaidOut size offset 0 fields)
    (hchunk : ∀ f ∈ fields, (chunk f).length = size f)
    (hbytes : bytes.length = total size fields) :
    fields.foldl (fun bytes f => splice bytes (offset f) (chunk f)) bytes =
      fields.flatMap chunk := by
  have hstart : LaidOut size offset ([] : List UInt8).length fields := hlaid
  have hsplices : fields.foldl
      (fun bytes f => splice bytes (offset f) (chunk f)) ([] ++ bytes ++ []) =
        [] ++ fields.flatMap chunk ++ [] := hstart.foldl_splice hchunk hbytes
  rwa [List.nil_append, List.append_nil, List.nil_append, List.append_nil]
    at hsplices

/-- Reading the region of one field. -/
theorem LaidOut.region_chunks {fields : List F}
    {before after : List UInt8}
    (hlaid : LaidOut size offset before.length fields)
    (hchunk : ∀ f ∈ fields, (chunk f).length = size f)
    {f : F} (hf : f ∈ fields) :
    region (before ++ fields.flatMap chunk ++ after) (offset f) (size f) =
      chunk f := by
  induction fields generalizing before with
  | nil => cases hf
  | cons g fields ih =>
      obtain ⟨hoffset, hrest⟩ := hlaid
      rw [List.forall_mem_cons] at hchunk
      rw [List.flatMap_cons]
      rcases List.mem_cons.mp hf with rfl | hin
      · rw [hoffset, ← hchunk.1, ← List.append_assoc before,
          List.append_assoc (before ++ chunk f)]
        exact region_append before (chunk f) _
      · have hlength : (before ++ chunk g).length =
            before.length + size g := by
          rw [List.length_append, hchunk.1]
        rw [← List.append_assoc before]
        exact ih (hlength.symm ▸ hrest) hchunk.2 hin

theorem LaidOut.region_chunks_whole {fields : List F}
    (hlaid : LaidOut size offset 0 fields)
    (hchunk : ∀ f ∈ fields, (chunk f).length = size f)
    {f : F} (hf : f ∈ fields) :
    region (fields.flatMap chunk) (offset f) (size f) = chunk f := by
  have hstart : LaidOut size offset ([] : List UInt8).length fields := hlaid
  have hregion : region ([] ++ fields.flatMap chunk ++ []) (offset f)
      (size f) = chunk f := hstart.region_chunks hchunk hf
  rwa [List.nil_append, List.append_nil] at hregion

/-- Reading all regions, from the first field on. -/
theorem LaidOut.flatMap_region {start : ℕ} {fields : List F}
    (hlaid : LaidOut size offset start fields) (bytes : List UInt8) :
    fields.flatMap (fun f => region bytes (offset f) (size f)) =
      region bytes start (total size fields) := by
  induction fields generalizing start with
  | nil =>
      rw [total, List.map_nil, List.sum_nil, region, List.take_zero]
      rfl
  | cons f fields ih =>
      obtain ⟨rfl, hrest⟩ := hlaid
      rw [List.flatMap_cons, ih hrest, total, total, List.map_cons,
        List.sum_cons, region, region, region, List.take_add,
        List.drop_drop]

end

end ByteLayout
