import DronesmithEngine.GoEffects
import DronesmithEngine.Pem

/-!
# The store

`cloudlink/store.go`: the settings that outlive the process.  `Set` writes all
pairs as one block over what the file held, without truncating it, and
`NewStore` reads the first 512 bytes back.  Strings are their bytes.
-/

namespace DronesmithEngine.Cloudlink

open Go

abbrev TextMap := GoMap (List UInt8) (List UInt8)

/-- The order in which a loop goes through the entries of a map. -/
structure RangeOrder where
  pairs : TextMap → List (Σ _ : List UInt8, List UInt8)
  entries : ∀ m, (pairs m : Multiset (Σ _ : List UInt8, List UInt8)) =
    m.entries

theorem rangeOrder_exists : Nonempty RangeOrder :=
  ⟨⟨fun m => m.entries.toList, fun m => Multiset.coe_toList m.entries⟩⟩

/-- The errors of the calls on the file.  A write comes with the number of
bytes that were written before it failed. -/
structure FileErrors where
  statErr : Option String
  openErr : Option String
  createErr : Option String
  readErr : Option String
  writeErr : Option (ℕ × String)

def FileErrors.none : FileErrors :=
  ⟨Option.none, Option.none, Option.none, Option.none, Option.none⟩

def SPLIT_CHAR : UInt8 := 45

def semicolon : UInt8 := 59

/-- The keys the program uses. -/
inductive StoreKey
  | email
  | pass
  | ruid
  | step
  | output
  deriving DecidableEq

def StoreKey.name : StoreKey → List UInt8
  | .email => Pem.ascii "email"
  | .pass => Pem.ascii "pass"
  | .ruid => Pem.ascii "ruid"
  | .step => Pem.ascii "step"
  | .output => Pem.ascii "output"

/-- A store with the file at its path. -/
structure Store where
  path : String
  data : TextMap
  file : Option (List UInt8)

namespace Store

def Get (s : Store) (name : List UInt8) : List UInt8 :=
  (s.data.lookup name).getD []

/-! ## Writing -/

def pairText (entry : Σ _ : List UInt8, List UInt8) : List UInt8 :=
  entry.1 ++ SPLIT_CHAR :: entry.2

def joinPairs (pairs : List (Σ _ : List UInt8, List UInt8)) : List UInt8 :=
  [semicolon].intercalate (pairs.map pairText)

def hash (pairs : List (Σ _ : List UInt8, List UInt8)) : Pem.Block :=
  ⟨Pem.ascii "LMON", joinPairs pairs⟩

/-- What a file holds after a write at its start. -/
def overwrite (file text : List UInt8) : List UInt8 :=
  text ++ file.drop text.length

/-- A missing file is not opened but created, and so is one that cannot be
opened, which empties it. -/
def openForWriting (errs : FileErrors) :
    Option (List UInt8) → Except String (List UInt8)
  | some file =>
      match errs.openErr, errs.createErr with
      | none, _ => .ok file
      | some _, none => .ok []
      | some _, some err => .error err
  | none =>
      match errs.createErr with
      | none => .ok []
      | some err => .error err

def Set (errs : FileErrors) (order : RangeOrder) (name value : List UInt8) :
    Effect Store (Option String) := fun s =>
  match openForWriting errs s.file with
  | .error err => (.ok (some err), s)
  | .ok file =>
      let data := s.data.insert name value
      let text := Pem.Encode (hash (order.pairs data))
      match errs.writeErr with
      | some (n, err) =>
          (.ok (some err),
            { s with
              data := data.erase name
              file := some (overwrite file (text.take n)) })
      | none =>
          (.ok none,
            { s with data := data, file := some (overwrite file text) })

/-! ## Reading -/

def loadPair (data : TextMap) (v : List UInt8) : TextMap :=
  match v.splitOn SPLIT_CHAR with
  | key :: value :: _ => data.insert key value
  | _ => data

def loadPairs (vals : List (List UInt8)) : TextMap := vals.foldl loadPair ∅

/-- The buffer after `file.Read(buf)`. -/
def buffer (file : List UInt8) : List UInt8 :=
  file.take 512 ++ List.replicate (512 - file.length) 0

def Load (errs : FileErrors) : Effect Store (Option String) := fun s =>
  match s.file, errs.openErr with
  | none, _ =>
      (.ok (some ("open " ++ s.path ++ ": no such file or directory")), s)
  | some _, some err => (.ok (some err), s)
  | some file, none =>
      match errs.readErr with
      | some err => (.ok (some err), s)
      | none =>
          if file = [] then (.ok (some "EOF"), s)
          else
            match Pem.Decode (buffer file) with
            | none => (.error .nilDereference, s)
            | some blk =>
                (.ok none,
                  { s with data := loadPairs (blk.bytes.splitOn semicolon) })

/-- `fpath` is the path of the file.  The error of `Load` is dropped. -/
def NewStore (errs : FileErrors) (fpath : String)
    (file : Option (List UInt8)) : Checked (Except String Store) :=
  match errs.statErr, file with
  | some err, _ => .ok (.error err)
  | none, none =>
      match errs.createErr with
      | some err => .ok (.error err)
      | none => .ok (.ok ⟨fpath, ∅, some []⟩)
  | none, some file =>
      match Load errs ⟨fpath, ∅, some file⟩ with
      | (.error e, _) => .error e
      | (.ok _, s) => .ok (.ok s)

/-- A store that is opened on the same path reads the same values. -/
def Survives (s : Store) : Prop :=
  ∃ t, NewStore .none s.path s.file = .ok (.ok t) ∧
    ∀ name, t.Get name = s.Get name

/-! ## The text of a map -/

def Plain (text : List UInt8) : Prop :=
  SPLIT_CHAR ∉ text ∧ semicolon ∉ text

instance (text : List UInt8) : Decidable (Plain text) :=
  inferInstanceAs (Decidable (_ ∧ _))

/-- What can be read back from a block has no separators in it. -/
def PlainMap (data : TextMap) : Prop :=
  ∀ name value, data.lookup name = some value → Plain name ∧ Plain value

theorem plainMap_empty : PlainMap ∅ := by
  intro name value hlookup
  rw [Finmap.lookup_empty] at hlookup
  cases hlookup

theorem plain_name (key : StoreKey) : Plain key.name := by
  cases key <;> decide

/-- How long the text of all pairs is. -/
def textLength (data : TextMap) : ℕ :=
  (data.entries.map fun entry =>
    entry.1.length + entry.2.length + 2).sum - 1

section

variable {pairs : List (Σ _ : List UInt8, List UInt8)} {data : TextMap}
  {name value : List UInt8}

theorem length_joinPairs
    (hpairs : (pairs : Multiset (Σ _ : List UInt8, List UInt8)) =
      data.entries) : (joinPairs pairs).length = textLength data := by
  rw [textLength, ← hpairs, Multiset.map_coe, Multiset.sum_coe]
  clear hpairs
  unfold joinPairs
  induction pairs with
  | nil => rfl
  | cons first pairs ih =>
      cases pairs with
      | nil =>
          simp only [List.map_cons, List.map_nil, List.intercalate_singleton,
            pairText, List.length_append, List.length_cons, List.sum_cons,
            List.sum_nil]
          omega
      | cons second pairs =>
          rw [List.map_cons, List.map_cons, List.intercalate_cons_cons,
            List.length_append, List.length_append, ← List.map_cons, ih]
          simp only [List.map_cons, List.sum_cons, pairText,
            List.length_append, List.length_cons, List.length_nil]
          omega

theorem semicolon_notMem_pairText {entry : Σ _ : List UInt8, List UInt8}
    (hname : Plain entry.1) (hvalue : Plain entry.2) :
    semicolon ∉ pairText entry := by
  rw [pairText, List.mem_append, List.mem_cons, not_or, not_or]
  exact ⟨hname.2, by decide, hvalue.2⟩

theorem loadPair_pairText {entry : Σ _ : List UInt8, List UInt8}
    (hname : Plain entry.1) (hvalue : Plain entry.2) :
    loadPair data (pairText entry) = data.insert entry.1 entry.2 := by
  rw [loadPair, pairText,
    List.splitOn_append_cons_self_of_not_mem hname.1,
    List.splitOn_eq_singleton hvalue.1]

/-- Filling a map with pairs that have different names. -/
theorem lookup_insertPairs (hnodup : (pairs.map Sigma.fst).Nodup) :
    (pairs.foldl (fun data entry => data.insert entry.1 entry.2)
        data).lookup name = some value ↔
      ⟨name, value⟩ ∈ pairs ∨
        name ∉ pairs.map Sigma.fst ∧ data.lookup name = some value := by
  induction pairs generalizing data with
  | nil => simp
  | cons first pairs ih =>
      rw [List.map_cons, List.nodup_cons] at hnodup
      rw [List.foldl_cons, ih hnodup.2]
      by_cases hfirst : name = first.1
      · subst hfirst
        have hothers : ⟨first.1, value⟩ ∉ pairs := fun hmem =>
          hnodup.1 (List.mem_map.mpr ⟨_, hmem, rfl⟩)
        have heq : ⟨first.1, value⟩ = first ↔ first.2 = value := by
          constructor
          · intro heq
            rw [← heq]
          · rintro rfl
            rfl
        simp [hothers, hnodup.1, heq]
      · have hne : ⟨name, value⟩ ≠ first := fun heq => hfirst (heq ▸ rfl)
        rw [Finmap.lookup_insert_of_ne data hfirst]
        simp [hfirst, hne]

theorem loadPairs_joinPairs
    (hpairs : (pairs : Multiset (Σ _ : List UInt8, List UInt8)) =
      data.entries)
    (hplain : ∀ entry ∈ pairs, Plain entry.1 ∧ Plain entry.2) :
    loadPairs ((joinPairs pairs).splitOn semicolon) = data := by
  have hfold : loadPairs ((joinPairs pairs).splitOn semicolon) =
      pairs.foldl (fun data entry => data.insert entry.1 entry.2) ∅ := by
    by_cases hempty : pairs = []
    · rw [hempty]
      rfl
    · have hparts : ∀ part ∈ pairs.map pairText, semicolon ∉ part := by
        intro part hpart
        obtain ⟨entry, hentry, rfl⟩ := List.mem_map.mp hpart
        have ⟨hname, hvalue⟩ := hplain entry hentry
        exact semicolon_notMem_pairText hname hvalue
      have hne : pairs.map pairText ≠ [] := by
        rwa [Ne, List.map_eq_nil_iff]
      rw [joinPairs, List.splitOn_intercalate semicolon hparts hne, loadPairs,
        List.foldl_map]
      apply List.foldl_ext
      intro data entry hentry
      have ⟨hname, hvalue⟩ := hplain entry hentry
      exact loadPair_pairText hname hvalue
  have hnodup : (pairs.map Sigma.fst).Nodup := by
    have hkeys := data.nodupKeys
    rw [← hpairs, Multiset.coe_nodupKeys] at hkeys
    exact hkeys
  rw [hfold]
  apply Finmap.ext_lookup
  intro name
  apply Option.ext
  intro value
  rw [lookup_insertPairs hnodup, Finmap.lookup_empty,
    Finmap.lookup_eq_some_iff, ← hpairs]
  simp

theorem PlainMap.loadPair {v : List UInt8} (hplain : PlainMap data)
    (hv : semicolon ∉ v) : PlainMap (loadPair data v) := by
  have hpart : ∀ part ∈ v.splitOn SPLIT_CHAR, Plain part := by
    intro part hpart
    have hsub := Splitting.sublist_of_mem_splitOn hpart
    exact ⟨Splitting.notMem_of_mem_splitOn hpart, fun hc =>
      hv (hsub.subset hc)⟩
  intro name value hlookup
  unfold Store.loadPair at hlookup
  split at hlookup
  next key stored others hsplit =>
    rw [hsplit, List.forall_mem_cons, List.forall_mem_cons] at hpart
    by_cases hname : name = key
    · rw [hname, Finmap.lookup_insert, Option.some_inj] at hlookup
      rw [hname, ← hlookup]
      exact ⟨hpart.1, hpart.2.1⟩
    · rw [Finmap.lookup_insert_of_ne data hname] at hlookup
      exact hplain name value hlookup
  next => exact hplain name value hlookup

theorem PlainMap.foldl {vals : List (List UInt8)} (hplain : PlainMap data)
    (hvals : ∀ v ∈ vals, semicolon ∉ v) :
    PlainMap (vals.foldl Store.loadPair data) := by
  induction vals generalizing data with
  | nil => exact hplain
  | cons v vals ih =>
      rw [List.forall_mem_cons] at hvals
      exact ih (hplain.loadPair hvals.1) hvals.2

theorem plainMap_loadPairs (text : List UInt8) :
    PlainMap (loadPairs (text.splitOn semicolon)) :=
  plainMap_empty.foldl fun _ hv => Splitting.notMem_of_mem_splitOn hv

end

/-! ## The file -/

theorem buffer_of_short {text : List UInt8} (hshort : text.length ≤ 512)
    (rest : List UInt8) :
    ∃ others, buffer (text ++ rest) = text ++ others := by
  rw [buffer, List.take_append, List.take_of_length_le hshort,
    List.append_assoc]
  exact ⟨_, rfl⟩

theorem buffer_of_long {text : List UInt8} (hlong : 512 ≤ text.length)
    (rest : List UInt8) : buffer (text ++ rest) = text.take 512 := by
  have hpad : 512 - (text ++ rest).length = 0 := by
    rw [List.length_append]
    omega
  rw [buffer, hpad, List.take_append_of_le_length hlong,
    List.replicate_zero, List.append_nil]

theorem length_block (text : List UInt8) :
    (Pem.Encode ⟨Pem.ascii "LMON", text⟩).length =
      40 + (4 * ((text.length + 2) / 3) +
        (4 * ((text.length + 2) / 3) + 63) / 64) :=
  Pem.length_Encode ⟨Pem.ascii "LMON", text⟩

/-- A block of 348 bytes fills the buffer. -/
theorem Decode_buffer_of_short {text : List UInt8}
    (hshort : text.length ≤ 348) (rest : List UInt8) :
    Pem.Decode (buffer (Pem.Encode ⟨Pem.ascii "LMON", text⟩ ++ rest)) =
      some ⟨Pem.ascii "LMON", text⟩ := by
  have hlength := length_block text
  have hblock : (Pem.Encode ⟨Pem.ascii "LMON", text⟩).length ≤ 512 := by
    omega
  obtain ⟨others, hbuffer⟩ := buffer_of_short hblock rest
  have hline : Pem.newline ∉ Pem.ascii "LMON" := by decide
  have hheader : Pem.colon ∉ Pem.ascii "LMON" := by decide
  rw [hbuffer]
  exact Pem.Decode_Encode_append others hline hheader

theorem Decode_buffer_of_long {text : List UInt8}
    (hlong : 348 < text.length) (rest : List UInt8) :
    Pem.Decode (buffer (Pem.Encode ⟨Pem.ascii "LMON", text⟩ ++ rest)) =
      none := by
  have hlength := length_block text
  have hline : Pem.newline ∉ Pem.ascii "LMON" := by decide
  have hdash : Pem.dash ∉ Pem.ascii "LMON" := by decide
  have hfirst : (Pem.beginLine (Pem.ascii "LMON")).length < 512 := by decide
  rw [buffer_of_long (by omega)]
  exact Pem.Decode_take_Encode hline hdash hfirst (by omega)

theorem Encode_append_ne_nil (b : Pem.Block) (rest : List UInt8) :
    Pem.Encode b ++ rest ≠ [] := by
  intro hnil
  have hlength := congrArg List.length hnil
  rw [List.length_append, Pem.length_Encode, List.length_nil] at hlength
  omega

/-! ## What survives -/

/-- The file begins with the pairs of the map. -/
def Written (s : Store) : Prop :=
  ∃ (pairs : List (Σ _ : List UInt8, List UInt8)) (rest : List UInt8),
    (pairs : Multiset (Σ _ : List UInt8, List UInt8)) = s.data.entries ∧
      s.file = some (Pem.Encode (hash pairs) ++ rest)

/-- What the format and the buffer can hold. -/
structure Fits (data : TextMap) : Prop where
  plain : ∀ name value, data.lookup name = some value → Plain value
  short : textLength data ≤ 348

section

variable {s : Store} {pairs : List (Σ _ : List UInt8, List UInt8)}
  {rest : List UInt8}

theorem NewStore_of_short (hshort : (joinPairs pairs).length ≤ 348)
    (hfile : s.file = some (Pem.Encode (hash pairs) ++ rest)) :
    NewStore .none s.path s.file = .ok (.ok
      { s with data := loadPairs ((joinPairs pairs).splitOn semicolon) }) := by
  have hdecode := Decode_buffer_of_short hshort rest
  have hne := Encode_append_ne_nil (hash pairs) rest
  rw [hfile]
  simp only [NewStore, FileErrors.none, Load]
  rw [if_neg hne, hash, hdecode]

theorem NewStore_of_long (hlong : 348 < (joinPairs pairs).length)
    (hfile : s.file = some (Pem.Encode (hash pairs) ++ rest)) :
    NewStore .none s.path s.file = .error .nilDereference := by
  have hdecode := Decode_buffer_of_long hlong rest
  have hne := Encode_append_ne_nil (hash pairs) rest
  rw [hfile]
  simp only [NewStore, FileErrors.none, Load]
  rw [if_neg hne, hash, hdecode]

theorem Written.survives (hwritten : s.Written)
    (hnames : ∀ name value, s.data.lookup name = some value → Plain name)
    (hfits : Fits s.data) : s.Survives := by
  obtain ⟨pairs, rest, hpairs, hfile⟩ := hwritten
  have hshort : (joinPairs pairs).length ≤ 348 := by
    rw [length_joinPairs hpairs]
    exact hfits.short
  have hplain : ∀ entry ∈ pairs, Plain entry.1 ∧ Plain entry.2 := by
    intro entry hentry
    have hlookup : s.data.lookup entry.1 = some entry.2 := by
      rw [Finmap.lookup_eq_some_iff, ← hpairs]
      exact Multiset.mem_coe.mpr hentry
    exact ⟨hnames _ _ hlookup, hfits.plain _ _ hlookup⟩
  refine ⟨_, NewStore_of_short hshort hfile, ?_⟩
  intro name
  rw [loadPairs_joinPairs hpairs hplain]

theorem Written.fits (hwritten : s.Written) (hsurvives : s.Survives) :
    Fits s.data := by
  obtain ⟨pairs, rest, hpairs, hfile⟩ := hwritten
  obtain ⟨t, hopen, hsame⟩ := hsurvives
  have hshort : (joinPairs pairs).length ≤ 348 := by
    by_contra hlong
    rw [NewStore_of_long (not_le.mp hlong) hfile] at hopen
    cases hopen
  rw [NewStore_of_short hshort hfile, Except.ok.injEq,
    Except.ok.injEq] at hopen
  constructor
  · intro name value hlookup
    have hget := hsame name
    rw [← hopen, Get, Get, hlookup, Option.getD_some] at hget
    dsimp only at hget
    rw [← hget]
    cases hloaded : (loadPairs
        ((joinPairs pairs).splitOn semicolon)).lookup name with
    | none => exact ⟨List.not_mem_nil, List.not_mem_nil⟩
    | some loaded => exact (plainMap_loadPairs _ name loaded hloaded).2
  · rw [← length_joinPairs hpairs]
    exact hshort

end

end Store

/-! ## Calls -/

/-- A call of `Set` whose writes succeed. -/
structure SetCall where
  errs : FileErrors
  order : RangeOrder
  key : StoreKey
  value : List UInt8
  opens : errs.openErr = none ∨ errs.createErr = none
  writes : errs.writeErr = none

namespace Store

def setAll (s : Store) (calls : List SetCall) : Store :=
  calls.foldl (fun s call =>
    (s.Set call.errs call.order call.key.name call.value).2) s

/-- The values that were set last. -/
def assigned (data : TextMap) (calls : List SetCall) : TextMap :=
  calls.foldl (fun data call => data.insert call.key.name call.value) data

section

variable {s : Store}

theorem Set_succeeds (call : SetCall) {file : List UInt8}
    (hfile : s.file = some file) :
    ∃ old, Set call.errs call.order call.key.name call.value s =
      (.ok none,
        { s with
          data := s.data.insert call.key.name call.value
          file := some (overwrite old (Pem.Encode (hash (call.order.pairs
            (s.data.insert call.key.name call.value))))) }) := by
  have hopened : ∃ old, openForWriting call.errs s.file = .ok old := by
    rw [hfile]
    cases hopen : call.errs.openErr with
    | none => exact ⟨file, by simp only [openForWriting, hopen]⟩
    | some err =>
        rcases call.opens with hnone | hnone
        · rw [hopen] at hnone
          cases hnone
        · exact ⟨[], by simp only [openForWriting, hopen, hnone]⟩
  obtain ⟨old, hold⟩ := hopened
  refine ⟨old, ?_⟩
  simp only [Set, hold, call.writes]

theorem setAll_data {file : List UInt8} (hfile : s.file = some file)
    (calls : List SetCall) :
    (s.setAll calls).data = assigned s.data calls := by
  induction calls generalizing s file with
  | nil => rfl
  | cons call calls ih =>
      obtain ⟨old, hset⟩ := Set_succeeds call hfile
      rw [setAll, assigned, List.foldl_cons, List.foldl_cons, hset]
      exact ih rfl

/-- After a call the file begins with the pairs, whatever it held. -/
theorem setAll_written {file : List UInt8} (hfile : s.file = some file)
    {calls : List SetCall} (hcalls : calls ≠ []) :
    (s.setAll calls).Written := by
  induction calls generalizing s file with
  | nil => exact absurd rfl hcalls
  | cons call calls ih =>
      obtain ⟨old, hset⟩ := Set_succeeds call hfile
      rw [setAll, List.foldl_cons, hset]
      by_cases hlast : calls = []
      · rw [hlast]
        exact ⟨_, _, call.order.entries _, rfl⟩
      · exact ih rfl hlast

theorem plain_assigned {data : TextMap}
    (hnames : ∀ name value, data.lookup name = some value → Plain name)
    (calls : List SetCall) :
    ∀ name value, (assigned data calls).lookup name = some value →
      Plain name := by
  induction calls generalizing data with
  | nil => exact hnames
  | cons call calls ih =>
      apply ih
      intro name value hlookup
      by_cases hname : name = call.key.name
      · rw [hname]
        exact plain_name call.key
      · rw [Finmap.lookup_insert_of_ne data hname] at hlookup
        exact hnames name value hlookup

end

/-! ## Opening -/

section

variable {fpath : String} {file : Option (List UInt8)} {t : Store}

theorem NewStore_empty :
    NewStore .none fpath (some []) = .ok (.ok ⟨fpath, ∅, some []⟩) := rfl

theorem NewStore_ok (hopen : NewStore .none fpath file = .ok (.ok t)) :
    t = ⟨fpath, ∅, some []⟩ ∨ ∃ (text : List UInt8) (stored : List UInt8),
      t = ⟨fpath, loadPairs (text.splitOn semicolon), some stored⟩ ∧
        file = some stored := by
  simp only [NewStore, FileErrors.none, Load] at hopen
  cases file with
  | none =>
      rw [Except.ok.injEq, Except.ok.injEq] at hopen
      exact Or.inl hopen.symm
  | some stored =>
      dsimp only at hopen
      by_cases hempty : stored = []
      · rw [if_pos hempty, hempty, Except.ok.injEq,
          Except.ok.injEq] at hopen
        exact Or.inl hopen.symm
      · rw [if_neg hempty] at hopen
        cases hdecode : Pem.Decode (buffer stored) with
        | none =>
            rw [hdecode] at hopen
            cases hopen
        | some blk =>
            rw [hdecode, Except.ok.injEq, Except.ok.injEq] at hopen
            exact Or.inr ⟨blk.bytes, stored, hopen.symm, rfl⟩

theorem survives_of_NewStore
    (hopen : NewStore .none fpath file = .ok (.ok t)) : t.Survives := by
  refine ⟨t, ?_, fun _ => rfl⟩
  rcases NewStore_ok hopen with rfl | ⟨text, stored, rfl, rfl⟩
  · exact NewStore_empty
  · exact hopen

theorem plain_of_NewStore
    (hopen : NewStore .none fpath file = .ok (.ok t)) :
    ∀ name value, t.data.lookup name = some value → Plain name := by
  rcases NewStore_ok hopen with rfl | ⟨text, stored, rfl, -⟩
  · exact fun name value hlookup => (plainMap_empty name value hlookup).1
  · exact fun name value hlookup =>
      (plainMap_loadPairs text name value hlookup).1

theorem file_of_NewStore
    (hopen : NewStore .none fpath file = .ok (.ok t)) :
    ∃ stored, t.file = some stored := by
  rcases NewStore_ok hopen with rfl | ⟨text, stored, rfl, -⟩
  · exact ⟨[], rfl⟩
  · exact ⟨stored, rfl⟩

/-- A store that was opened on any file and then set survives exactly when
the values set last have no separators and are short together. -/
theorem setAll_survives_iff
    (hopen : NewStore .none fpath file = .ok (.ok t))
    (calls : List SetCall) :
    (t.setAll calls).Survives ↔
      calls = [] ∨ Fits (assigned t.data calls) := by
  obtain ⟨stored, hfile⟩ := file_of_NewStore hopen
  have hdata := setAll_data hfile calls
  by_cases hcalls : calls = []
  · rw [hcalls]
    exact iff_of_true (survives_of_NewStore hopen) (Or.inl rfl)
  · have hwritten := setAll_written hfile hcalls
    have hnames := plain_assigned (plain_of_NewStore hopen) calls
    rw [or_iff_right hcalls, ← hdata]
    rw [← hdata] at hnames
    exact ⟨hwritten.fits, hwritten.survives hnames⟩

theorem setAll_survives_iff_email : ∃ order : RangeOrder,
    (setAll ⟨".lmon", ∅, some []⟩
      [⟨.none, order, .email, Pem.ascii "me", Or.inl rfl, rfl⟩]).Survives := by
  obtain ⟨order⟩ := rangeOrder_exists
  have hfits : Fits
      ((∅ : TextMap).insert StoreKey.email.name (Pem.ascii "me")) := by
    constructor
    · intro name value hlookup
      by_cases hname : name = StoreKey.email.name
      · rw [hname, Finmap.lookup_insert, Option.some_inj] at hlookup
        rw [← hlookup]
        decide
      · rw [Finmap.lookup_insert_of_ne _ hname,
          Finmap.lookup_empty] at hlookup
        cases hlookup
    · decide
  have hopen : NewStore .none ".lmon" (some []) =
      .ok (.ok ⟨".lmon", ∅, some []⟩) := NewStore_empty
  exact ⟨order, (setAll_survives_iff hopen _).mpr (Or.inr hfits)⟩

/-- Behind the separator of names and values a value is lost. -/
theorem value_with_dash_lost : ¬ ∀ order : RangeOrder,
    (setAll ⟨".lmon", ∅, some []⟩
      [⟨.none, order, .pass, Pem.ascii "a-b", Or.inl rfl, rfl⟩]).Survives := by
  obtain ⟨order⟩ := rangeOrder_exists
  intro hall
  have hwritten := setAll_written (s := ⟨".lmon", ∅, some []⟩) rfl
    (List.cons_ne_nil
      (⟨.none, order, .pass, Pem.ascii "a-b", Or.inl rfl, rfl⟩ : SetCall) [])
  have hplain := (hwritten.fits (hall order)).plain StoreKey.pass.name
    (Pem.ascii "a-b") (Finmap.lookup_insert ∅)
  exact absurd hplain (by decide)

end

end Store

end DronesmithEngine.Cloudlink
