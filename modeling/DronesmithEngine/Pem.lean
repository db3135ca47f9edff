import DronesmithEngine.Base64
import Mathlib.Data.List.DropRight
import Mathlib.Tactic

/-!
# PEM blocks

A block is the base64 text of some bytes in lines, between a line that begins
and one that ends it.  `Decode` returns the first block of its input that is
well formed.  What `Encode` writes is such a block, whatever follows it, and
a prefix of it that lacks more than the last line break is none.
-/

/-! ## Splitting -/

namespace Splitting

variable {α : Type} [DecidableEq α] {a : α} {part xs : List α}

theorem notMem_of_mem_splitOn (hpart : part ∈ xs.splitOn a) : a ∉ part := by
  induction xs generalizing part with
  | nil =>
      rw [List.splitOn_nil, List.mem_singleton] at hpart
      rw [hpart]
      exact List.not_mem_nil
  | cons x xs ih =>
      rw [List.splitOn_cons_eq_if_modifyHead] at hpart
      split at hpart
      next =>
        rcases List.mem_cons.mp hpart with rfl | hpart
        · exact List.not_mem_nil
        · exact ih hpart
      next hne =>
        cases hsplit : xs.splitOn a with
        | nil => exact absurd hsplit (List.splitOn_ne_nil a xs)
        | cons first others =>
            rw [hsplit, List.modifyHead_cons, List.mem_cons] at hpart
            rcases hpart with rfl | hpart
            · have hfirst : a ∉ first :=
                ih (hsplit ▸ List.mem_cons_self)
              rw [List.mem_cons, not_or]
              exact ⟨fun heq => hne (beq_iff_eq.mpr heq.symm), hfirst⟩
            · exact ih (hsplit ▸ List.mem_cons_of_mem first hpart)

omit [DecidableEq α] in
theorem sublist_intercalate (sep : List α) {parts : List (List α)}
    (hpart : part ∈ parts) : part.Sublist (sep.intercalate parts) := by
  induction parts with
  | nil => cases hpart
  | cons first others ih =>
      cases others with
      | nil =>
          rw [List.mem_singleton.mp hpart, List.intercalate_singleton]
      | cons second others =>
          rw [List.intercalate_cons_cons]
          rcases List.mem_cons.mp hpart with rfl | hpart
          · exact (List.sublist_append_left _ sep).trans
              (List.sublist_append_left _ _)
          · exact (ih hpart).trans (List.sublist_append_right _ _)

theorem sublist_of_mem_splitOn (hpart : part ∈ xs.splitOn a) :
    part.Sublist xs := by
  have hsub := sublist_intercalate [a] hpart
  rwa [List.intercalate_splitOn] at hsub

/-- Lines that all end with the separator, and what is behind them. -/
theorem splitOn_lines {lines : List (List α)} (rest : List α)
    (hlines : ∀ line ∈ lines, a ∉ line) :
    (lines.flatMap (· ++ [a]) ++ rest).splitOn a =
      lines ++ rest.splitOn a := by
  induction lines with
  | nil => rfl
  | cons line lines ih =>
      rw [List.forall_mem_cons] at hlines
      rw [List.flatMap_cons, List.append_assoc, List.append_assoc,
        List.singleton_append,
        List.splitOn_append_cons_self_of_not_mem hlines.1, ih hlines.2,
        List.cons_append]

omit [DecidableEq α] in
theorem length_lines (lines : List (List α)) :
    (lines.flatMap (· ++ [a])).length =
      lines.flatten.length + lines.length := by
  induction lines with
  | nil => rfl
  | cons line lines ih =>
      simp only [List.flatMap_cons, List.flatten_cons, List.length_append,
        List.length_cons, List.length_nil, ih]
      omega

end Splitting

namespace Pem

open Splitting

def ascii (s : String) : List UInt8 :=
  s.toList.map fun c => UInt8.ofNat c.toNat

def newline : UInt8 := 10
def dash : UInt8 := 45
def colon : UInt8 := 58

structure Block where
  type : List UInt8
  bytes : List UInt8

def beginLine (type : List UInt8) : List UInt8 :=
  ascii "-----BEGIN " ++ type ++ ascii "-----"

def endLine (type : List UInt8) : List UInt8 :=
  ascii "-----END " ++ type ++ ascii "-----"

/-! ## Writing -/

/-- Lines of 64 characters, and a last one with what is left. -/
def wrap (text : List UInt8) : List (List UInt8) :=
  if text = [] then [] else text.take 64 :: wrap (text.drop 64)
termination_by text.length
decreasing_by
  rename_i hne
  have := List.length_pos_iff.mpr hne
  rw [List.length_drop]
  omega

def blockLines (b : Block) : List (List UInt8) :=
  beginLine b.type :: (wrap (Base64.encode b.bytes) ++ [endLine b.type])

def Encode (b : Block) : List UInt8 :=
  (blockLines b).flatMap (· ++ [newline])

/-! ## Reading -/

def isBlank (c : UInt8) : Bool := c = 32 || c = 9

def isSpace (c : UInt8) : Bool := isBlank c || c = newline || c = 13

/-- A line without a carriage return and blanks at its end. -/
def getLine (line : List UInt8) : List UInt8 :=
  (if line.getLast? = some 13 then line.dropLast else line).rdropWhile
    isBlank

def beginType (line : List UInt8) : Option (List UInt8) :=
  let rest := line.drop 11
  let n := rest.length - 5
  if line.take 11 = ascii "-----BEGIN " ∧ rest.drop n = ascii "-----" then
    some (rest.take n)
  else none

def isEnd (line : List UInt8) : Bool := line.take 9 = ascii "-----END "

/-- The bytes of a block whose first line was read. -/
def blockBytes (type : List UInt8) (lines : List (List UInt8)) :
    Option (List UInt8) :=
  -- Lines with a colon are headers.
  let lines := lines.dropWhile (colon ∈ ·)
  let text := lines.takeWhile (!isEnd ·)
  match lines.dropWhile (!isEnd ·) with
  | [] => none
  | line :: _ =>
      if line = endLine type then
        Base64.decode (text.flatten.filter (!isSpace ·))
      else none

def decodeLines : List (List UInt8) → Option Block
  | [] => none
  | line :: rest =>
      match beginType line with
      | none => decodeLines rest
      | some type =>
          match blockBytes type rest with
          | some bytes => some ⟨type, bytes⟩
          | none => decodeLines rest

def Decode (data : List UInt8) : Option Block :=
  decodeLines ((data.splitOn newline).map getLine)

/-! ## Lines -/

theorem wrap_flatten (text : List UInt8) : (wrap text).flatten = text := by
  induction text using wrap.induct with
  | case1 => rw [wrap]; rfl
  | case2 text hne ih =>
      rw [wrap, if_neg hne, List.flatten_cons, ih, List.take_append_drop]

theorem mem_of_mem_wrap {text line : List UInt8} (hline : line ∈ wrap text)
    {c : UInt8} (hc : c ∈ line) : c ∈ text := by
  rw [← wrap_flatten text]
  exact List.mem_flatten_of_mem hline hc

theorem length_wrap (text : List UInt8) :
    (wrap text).length = (text.length + 63) / 64 := by
  induction text using wrap.induct with
  | case1 => rw [wrap]; rfl
  | case2 text hne ih =>
      have hpos := List.length_pos_iff.mpr hne
      rw [wrap, if_neg hne, List.length_cons, ih, List.length_drop]
      omega

/-- The characters of a base64 text are none of those that lines and blocks
are recognised by. -/
theorem text_char {bs : List UInt8} {c : UInt8}
    (hc : c ∈ Base64.encode bs) :
    c ≠ newline ∧ c ≠ dash ∧ c ≠ colon ∧ isSpace c = false := by
  have hall : (Base64.padding :: Base64.alphabet).all (fun c =>
      c ≠ newline ∧ c ≠ dash ∧ c ≠ colon ∧ isSpace c = false) = true := by
    decide
  exact of_decide_eq_true
    (List.all_eq_true.mp hall c (Base64.encode_mem hc))

theorem getLine_eq_self {line : List UInt8}
    (hlast : ∀ c ∈ line.getLast?, isSpace c = false) :
    getLine line = line := by
  have hreturn : line.getLast? ≠ some 13 := by
    intro heq
    exact absurd (hlast 13 heq) (by decide)
  rw [getLine, if_neg hreturn, List.rdropWhile_eq_self_iff]
  intro hne hblank
  have hspace := hlast (line.getLast hne)
    (List.getLast?_eq_some_getLast hne)
  simp [isSpace, hblank] at hspace

theorem getLine_sublist (line : List UInt8) :
    (getLine line).Sublist line := by
  unfold getLine
  refine (List.rdropWhile_prefix _ _).sublist.trans ?_
  split
  · exact List.dropLast_sublist line
  · exact List.Sublist.refl line

theorem beginLine_last (type : List UInt8) :
    (beginLine type).getLast? = some dash := by
  rw [beginLine, List.getLast?_append]
  rfl

theorem endLine_last (type : List UInt8) :
    (endLine type).getLast? = some dash := by
  rw [endLine, List.getLast?_append]
  rfl

theorem beginType_beginLine (type : List UInt8) :
    beginType (beginLine type) = some type := by
  have hdrop : (beginLine type).drop 11 = type ++ ascii "-----" := by
    rw [beginLine, List.append_assoc]
    exact List.drop_left' rfl
  have htake : (beginLine type).take 11 = ascii "-----BEGIN " := by
    rw [beginLine, List.append_assoc]
    exact List.take_left' rfl
  have hlength : (type ++ ascii "-----").length - 5 = type.length := by
    rw [List.length_append]
    exact Nat.add_sub_cancel type.length 5
  simp only [beginType, hdrop, htake, hlength, List.drop_left,
    List.take_left]
  rfl

theorem isEnd_endLine (type : List UInt8) : isEnd (endLine type) = true := by
  have htake : (endLine type).take 9 = ascii "-----END " := by
    rw [endLine, List.append_assoc]
    exact List.take_left' rfl
  rw [isEnd, htake]
  exact decide_eq_true rfl

/-! ## A block that was written -/

section

variable {b : Block} {rest : List UInt8}

theorem isEnd_of_text {line : List UInt8}
    (hline : line ∈ wrap (Base64.encode b.bytes)) :
    isEnd line = false := by
  rw [isEnd, decide_eq_false_iff_not]
  intro hmarks
  have hdash : dash ∈ line.take 9 := by
    rw [hmarks]
    decide
  exact (text_char (mem_of_mem_wrap hline
    (List.mem_of_mem_take hdash))).2.1 rfl

theorem blockBytes_blockLines {rest : List (List UInt8)}
    (htype : colon ∉ b.type) :
    blockBytes b.type
        (wrap (Base64.encode b.bytes) ++ endLine b.type :: rest) =
      some b.bytes := by
  have hcolon : (wrap (Base64.encode b.bytes) ++
      endLine b.type :: rest).dropWhile (colon ∈ ·) =
        wrap (Base64.encode b.bytes) ++ endLine b.type :: rest := by
    have hend : colon ∉ endLine b.type := by
      simp only [endLine, List.mem_append, not_or]
      exact ⟨⟨by decide, htype⟩, by decide⟩
    cases hbody : wrap (Base64.encode b.bytes) with
    | nil => simp [hend]
    | cons line body =>
        have hline : colon ∉ line := fun hc =>
          (text_char (mem_of_mem_wrap (hbody ▸ List.mem_cons_self) hc)).2.2.1
            rfl
        simp [hline]
  have htext : ∀ line ∈ wrap (Base64.encode b.bytes),
      (!isEnd line) = true := fun line hline => by
    rw [isEnd_of_text hline, Bool.not_false]
  have hend : (!isEnd (endLine b.type)) = false := by
    rw [isEnd_endLine, Bool.not_true]
  have htakeEnd : (endLine b.type :: rest).takeWhile (!isEnd ·) = [] := by
    rw [List.takeWhile_cons, hend]
    rfl
  have hdropEnd : (endLine b.type :: rest).dropWhile (!isEnd ·) =
      endLine b.type :: rest := by
    rw [List.dropWhile_cons, hend]
    rfl
  have hfilter : (Base64.encode b.bytes).filter (!isSpace ·) =
      Base64.encode b.bytes := by
    rw [List.filter_eq_self]
    intro c hc
    rw [(text_char hc).2.2.2, Bool.not_false]
  simp only [blockBytes, hcolon, List.takeWhile_append_of_pos htext,
    List.dropWhile_append_of_pos htext, htakeEnd, hdropEnd,
    List.append_nil, wrap_flatten, hfilter, Base64.decode_encode, if_true]

theorem newline_notMem_blockLines (htype : newline ∉ b.type) :
    ∀ line ∈ blockLines b, newline ∉ line := by
  intro line hline
  simp only [blockLines, List.mem_cons, List.mem_append, List.not_mem_nil,
    or_false] at hline
  rcases hline with rfl | hline | rfl
  · simp only [beginLine, List.mem_append, not_or]
    exact ⟨⟨by decide, htype⟩, by decide⟩
  · exact fun hc => (text_char (mem_of_mem_wrap hline hc)).1 rfl
  · simp only [endLine, List.mem_append, not_or]
    exact ⟨⟨by decide, htype⟩, by decide⟩

theorem getLine_blockLines : (blockLines b).map getLine = blockLines b := by
  have hsame : ∀ line ∈ blockLines b, getLine line = id line := by
    intro line hline
    apply getLine_eq_self
    intro c hc
    simp only [blockLines, List.mem_cons, List.mem_append, List.not_mem_nil,
      or_false] at hline
    rcases hline with rfl | hline | rfl
    · rw [beginLine_last, Option.mem_some_iff] at hc
      rw [← hc]
      rfl
    · have hmem := List.mem_of_getLast? hc
      exact (text_char (mem_of_mem_wrap hline hmem)).2.2.2
    · rw [endLine_last, Option.mem_some_iff] at hc
      rw [← hc]
      rfl
  rw [List.map_congr_left hsame, List.map_id]

/-- What stands behind a block does not keep it from being read. -/
theorem Decode_Encode_append (rest : List UInt8) (hline : newline ∉ b.type)
    (hheader : colon ∉ b.type) : Decode (Encode b ++ rest) = some b := by
  rw [Decode, Encode,
    splitOn_lines rest (newline_notMem_blockLines hline), List.map_append,
    getLine_blockLines, blockLines, List.cons_append, decodeLines,
    beginType_beginLine]
  simp only [List.append_assoc, List.singleton_append,
    blockBytes_blockLines hheader]

/-! ## A block that was cut -/

/-- What `Encode` writes between the first line and the last dash. -/
def body (b : Block) : List UInt8 :=
  (wrap (Base64.encode b.bytes)).flatMap (· ++ [newline]) ++
    (ascii "-----END " ++ b.type ++ ascii "----")

theorem Encode_eq (b : Block) :
    Encode b =
      beginLine b.type ++ newline :: (body b ++ [dash, newline]) := by
  have hlast : ascii "-----" = ascii "----" ++ [dash] := by decide
  simp only [Encode, blockLines, body, endLine, hlast, List.flatMap_cons,
    List.flatMap_append, List.flatMap_nil, List.append_assoc,
    List.cons_append, List.nil_append, List.append_nil]

theorem count_body (htype : dash ∉ b.type) : (body b).count dash = 9 := by
  have htext : ((wrap (Base64.encode b.bytes)).flatMap
      (· ++ [newline])).count dash = 0 := by
    rw [List.count_eq_zero]
    intro hdash
    obtain ⟨line, hline, hdash⟩ := List.mem_flatMap.mp hdash
    rcases List.mem_append.mp hdash with hdash | hdash
    · exact (text_char (mem_of_mem_wrap hline hdash)).2.1 rfl
    · exact absurd hdash (by decide)
  have hfirst : (ascii "-----END ").count dash = 5 := by decide
  have hlast : (ascii "----").count dash = 4 := by decide
  simp only [body, List.count_append, htext, hfirst, hlast,
    List.count_eq_zero.mpr htype]

theorem length_Encode (b : Block) :
    (Encode b).length = 2 * b.type.length + 32 +
      (4 * ((b.bytes.length + 2) / 3) +
        (4 * ((b.bytes.length + 2) / 3) + 63) / 64) := by
  have hfirst : (beginLine b.type).length = b.type.length + 16 := by
    have hbegin : (ascii "-----BEGIN ").length = 11 := rfl
    have hdashes : (ascii "-----").length = 5 := rfl
    rw [beginLine, List.length_append, List.length_append, hbegin, hdashes]
    omega
  have hbody : (body b).length = (Base64.encode b.bytes).length +
      (wrap (Base64.encode b.bytes)).length + (b.type.length + 13) := by
    have hend : (ascii "-----END ").length = 9 := rfl
    have hdashes : (ascii "----").length = 4 := rfl
    rw [body, List.length_append, length_lines, wrap_flatten,
      List.length_append, List.length_append, hend, hdashes]
    omega
  rw [length_wrap, Base64.length_encode] at hbody
  rw [Encode_eq, List.length_append, List.length_cons, List.length_append,
    hfirst, hbody, List.length_cons, List.length_singleton]
  omega

end

theorem beginType_of_count {line : List UInt8} (hcount : line.count dash < 10) :
    beginType line = none := by
  rw [beginType, if_neg]
  rintro ⟨hfirst, hlast⟩
  have hsplit := List.take_append_drop 11 line
  have hrest := List.take_append_drop ((line.drop 11).length - 5)
    (line.drop 11)
  rw [hlast] at hrest
  rw [hfirst, ← hrest] at hsplit
  have hbegin : (ascii "-----BEGIN ").count dash = 5 := by decide
  have hend : (ascii "-----").count dash = 5 := by decide
  rw [← hsplit, List.count_append, List.count_append, hbegin, hend] at hcount
  omega

theorem count_endLine (type : List UInt8) :
    10 ≤ (endLine type).count dash := by
  have hfirst : (ascii "-----END ").count dash = 5 := by decide
  have hlast : (ascii "-----").count dash = 5 := by decide
  rw [endLine, List.count_append, List.count_append, hfirst, hlast]
  omega

theorem blockBytes_of_count (type : List UInt8) {lines : List (List UInt8)}
    (hlines : ∀ line ∈ lines, line.count dash < 10) :
    blockBytes type lines = none := by
  unfold blockBytes
  dsimp only
  split
  next => rfl
  next line others hrest =>
    have hmem : line ∈ lines := by
      have hsuffix := (List.dropWhile_suffix (!isEnd ·)).trans
        (List.dropWhile_suffix (l := lines) (colon ∈ ·))
      exact hsuffix.subset (hrest ▸ List.mem_cons_self)
    rw [if_neg]
    rintro rfl
    have hfew := hlines (endLine type) hmem
    have hmany := count_endLine type
    omega

theorem decodeLines_of_count {lines : List (List UInt8)}
    (hlines : ∀ line ∈ lines, line.count dash < 10) :
    decodeLines lines = none := by
  induction lines with
  | nil => rfl
  | cons line lines ih =>
      rw [List.forall_mem_cons] at hlines
      rw [decodeLines, beginType_of_count hlines.1]
      exact ih hlines.2

/-- Without all the dashes of an end line there is no block. -/
theorem Decode_of_count {first rest : List UInt8} (hfirst : newline ∉ first)
    (hrest : rest.count dash < 10) :
    Decode (first ++ newline :: rest) = none := by
  have hlines : ∀ line ∈ (rest.splitOn newline).map getLine,
      line.count dash < 10 := by
    intro line hline
    obtain ⟨part, hpart, rfl⟩ := List.mem_map.mp hline
    have hsub := (getLine_sublist part).trans (sublist_of_mem_splitOn hpart)
    exact lt_of_le_of_lt (hsub.count_le dash) hrest
  rw [Decode, List.splitOn_append_cons_self_of_not_mem hfirst,
    List.map_cons, decodeLines]
  split
  next => exact decodeLines_of_count hlines
  next type _ =>
    rw [blockBytes_of_count type hlines]
    exact decodeLines_of_count hlines

theorem Decode_take_Encode {b : Block} {n : ℕ} (hline : newline ∉ b.type)
    (hdash : dash ∉ b.type) (hfirst : (beginLine b.type).length < n)
    (hcut : n + 2 ≤ (Encode b).length) :
    Decode ((Encode b).take n) = none := by
  obtain ⟨m, rfl⟩ := Nat.exists_eq_add_of_lt hfirst
  have hnewline : newline ∉ beginLine b.type := by
    simp only [beginLine, List.mem_append, not_or]
    exact ⟨⟨by decide, hline⟩, by decide⟩
  have hlength : m ≤ (body b).length := by
    rw [Encode_eq] at hcut
    simp only [List.length_append, List.length_cons, List.length_nil] at hcut
    omega
  rw [Encode_eq, Nat.add_assoc, List.take_length_add_append,
    List.take_succ_cons, List.take_append_of_le_length hlength]
  apply Decode_of_count hnewline
  have hcount := (List.take_sublist m (body b)).count_le dash
  rw [count_body hdash] at hcount
  omega

end Pem
