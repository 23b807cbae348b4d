import Mathlib.Data.List.DropRight
import Mathlib.Data.List.Infix
import Mathlib.Data.List.TakeWhile

/-!
# Strings

The operations of `str` that the parsers use.  Characters are Unicode scalar
values; lengths are those of the UTF-8 encoding.
-/

namespace Skybase.Text

/-- `char::is_whitespace`: the Unicode property `White_Space`. -/
def isWhitespace (c : Char) : Bool :=
  let code := c.toNat
  (0x9 ≤ code && code ≤ 0xD) || code == 0x20 || code == 0x85 || code == 0xA0 || code == 0x1680 ||
    (0x2000 ≤ code && code ≤ 0x200A) || code == 0x2028 || code == 0x2029 || code == 0x202F ||
    code == 0x205F || code == 0x3000

/-- `str::trim`. -/
def trim (text : String) : String :=
  String.ofList ((text.toList.dropWhile isWhitespace).reverse.dropWhile isWhitespace).reverse

/-- What is left when the characters of a kind are cut off both ends. -/
def strip (kind : Char → Bool) (chars : List Char) : List Char :=
  (chars.dropWhile kind).rdropWhile kind

theorem trim_eq_strip (text : String) :
    trim text = String.ofList (strip isWhitespace text.toList) :=
  rfl

section Strip

variable {kind : Char → Bool} {chars : List Char}

theorem dropWhile_append_cons {c : Char} (other : kind c = false) (front back : List Char) :
    (front ++ c :: back).dropWhile kind = front.dropWhile kind ++ c :: back := by
  induction front with
  | nil => exact List.dropWhile_cons_of_neg (by simp [other])
  | cons d front ih =>
      rw [List.cons_append, List.dropWhile_cons, List.dropWhile_cons, ih]
      split
      · rfl
      · rfl

theorem rdropWhile_append_cons {c : Char} (other : kind c = false) (front back : List Char) :
    (front ++ c :: back).rdropWhile kind = front ++ c :: back.rdropWhile kind := by
  rw [List.rdropWhile, List.reverse_append, List.reverse_cons, List.append_assoc,
    List.singleton_append, dropWhile_append_cons other, List.reverse_append, List.reverse_cons,
    List.reverse_reverse, List.append_assoc, List.singleton_append, List.rdropWhile]

/-- On both sides of a character that stays, the parts lose their outer ends. -/
theorem strip_append_cons {c : Char} (other : kind c = false) (front back : List Char) :
    strip kind (front ++ c :: back) = front.dropWhile kind ++ c :: back.rdropWhile kind := by
  rw [strip, dropWhile_append_cons other, rdropWhile_append_cons other]

/-- Stripping cuts nothing off but characters of the kind. -/
theorem exists_eq_append_strip (kind : Char → Bool) (chars : List Char) :
    ∃ front back : List Char, (∀ c ∈ front, kind c = true) ∧ (∀ c ∈ back, kind c = true) ∧
      chars = front ++ strip kind chars ++ back := by
  refine ⟨chars.takeWhile kind, (chars.dropWhile kind).rtakeWhile kind,
    fun c mem => List.mem_takeWhile_imp mem, fun c mem => List.mem_rtakeWhile_imp mem, ?_⟩
  rw [strip, List.append_assoc, List.rdropWhile_append_rtakeWhile,
    List.takeWhile_append_dropWhile]

theorem mem_strip {c : Char} (mem : c ∈ chars) (other : kind c = false) : c ∈ strip kind chars := by
  rcases exists_eq_append_strip kind chars with ⟨front, back, frontKind, backKind, cut⟩
  rw [cut, List.mem_append, List.mem_append] at mem
  rcases mem with (inFront | inside) | inBack
  · rw [frontKind c inFront] at other
    cases other
  · exact inside
  · rw [backKind c inBack] at other
    cases other

theorem strip_append_left {front : List Char} (all : ∀ c ∈ front, kind c = true) :
    strip kind (front ++ chars) = strip kind chars := by
  rw [strip, List.dropWhile_append_of_pos all, strip]

theorem strip_append_right {back : List Char} (all : ∀ c ∈ back, kind c = true) :
    strip kind (chars ++ back) = strip kind chars := by
  rw [strip, List.dropWhile_append]
  split
  · next empty =>
      rw [List.isEmpty_iff] at empty
      rw [strip, empty, List.dropWhile_eq_nil_iff.mpr all]
  · rw [List.rdropWhile, List.reverse_append, List.dropWhile_append_of_pos, strip, List.rdropWhile]
    intro c mem
    exact all c (List.mem_reverse.mp mem)

@[simp]
theorem strip_dropWhile : strip kind (chars.dropWhile kind) = strip kind chars := by
  rw [strip, List.dropWhile_idempotent, strip]

@[simp]
theorem strip_rdropWhile : strip kind (chars.rdropWhile kind) = strip kind chars := by
  have cut := List.rdropWhile_append_rtakeWhile (p := kind) (l := chars)
  have ofKind : ∀ c ∈ chars.rtakeWhile kind, kind c = true :=
    fun c mem => List.mem_rtakeWhile_imp mem
  rw [← strip_append_right ofKind, cut]

theorem strip_eq_self_of_forall (none : ∀ c ∈ chars, kind c = false) :
    strip kind chars = chars := by
  have kept : ∀ part : List Char, (∀ c ∈ part, kind c = false) → part.dropWhile kind = part := by
    intro part all
    cases part with
    | nil => rfl
    | cons first rest =>
        exact List.dropWhile_cons_of_neg (by simp [all first List.mem_cons_self])
  rw [strip, kept chars none, List.rdropWhile,
    kept _ fun c mem => none c (List.mem_reverse.mp mem), List.reverse_reverse]

/-- A text that begins and ends with other characters is stripped already. -/
theorem strip_eq_self {first : Char} {rest front : List Char} {last : Char}
    (begins : chars = first :: rest) (firstOther : kind first = false)
    (ends : chars = front ++ [last]) (lastOther : kind last = false) :
    strip kind chars = chars := by
  have kept : chars.dropWhile kind = chars := by
    rw [begins]
    exact List.dropWhile_cons_of_neg (by simp [firstOther])
  rw [strip, kept, ends]
  exact List.rdropWhile_concat_neg kind front last (by simp [lastOther])

@[simp]
theorem strip_strip : strip kind (strip kind chars) = strip kind chars := by
  rw [strip.eq_def kind chars, strip_rdropWhile, strip_dropWhile, ← strip]

end Strip

/-- A text that begins and ends with other characters than whitespace is
trimmed already. -/
theorem trim_eq_self {text : String} {first last : Char} {middle : List Char}
    (ends : text.toList = first :: (middle ++ [last])) (firstSolid : isWhitespace first = false)
    (lastSolid : isWhitespace last = false) : trim text = text := by
  have concat : text.toList = (first :: middle) ++ [last] := ends
  rw [trim_eq_strip, strip_eq_self ends firstSolid concat lastSolid, String.ofList_toList]

/-- A JSON object is trimmed and not empty. -/
theorem trim_braced (members : String) :
    trim ("\x7b" ++ members ++ "\x7d") = "\x7b" ++ members ++ "\x7d" := by
  have ends : ("\x7b" ++ members ++ "\x7d").toList = '\x7b' :: (members.toList ++ ['\x7d']) := by
    simp only [String.toList_append]
    rfl
  exact trim_eq_self ends (by decide) (by decide)

theorem isEmpty_braced (members : String) : ("\x7b" ++ members ++ "\x7d").isEmpty = false := by
  rw [Bool.eq_false_iff, Ne, String.isEmpty_iff, ← String.toList_inj, String.toList_append,
    String.toList_append]
  exact List.cons_ne_nil _ _

/-- Trimming cuts whitespace off both ends. -/
theorem exists_toList_eq_append_trim (text : String) :
    ∃ front back : List Char, (∀ c ∈ front, isWhitespace c = true) ∧
      (∀ c ∈ back, isWhitespace c = true) ∧ text.toList = front ++ (trim text).toList ++ back := by
  rw [trim_eq_strip, String.toList_ofList]
  exact exists_eq_append_strip isWhitespace text.toList

/-- Trimming takes nothing but whitespace away. -/
theorem mem_trim_or_isWhitespace {text : String} {c : Char} (mem : c ∈ text.toList) :
    c ∈ (trim text).toList ∨ isWhitespace c = true := by
  rw [trim_eq_strip, String.toList_ofList]
  cases white : isWhitespace c with
  | false => exact Or.inl (mem_strip mem white)
  | true => exact Or.inr rfl

theorem trim_isInfix (text : String) : (trim text).toList <:+: text.toList := by
  rcases exists_toList_eq_append_trim text with ⟨front, back, _, _, cut⟩
  exact ⟨front, back, cut.symm⟩

@[simp]
theorem trim_trim (text : String) : trim (trim text) = trim text := by
  rw [trim_eq_strip, trim_eq_strip, String.toList_ofList, strip_strip]

/-- `str::as_bytes`. -/
def bytes (text : String) : List UInt8 := text.toList.flatMap String.utf8EncodeChar

theorem bytes_injective : Function.Injective bytes := by
  intro first second same
  rw [← String.toByteArray_inj, ← String.utf8Encode_toList, ← String.utf8Encode_toList,
    List.utf8Encode, List.utf8Encode]
  exact congrArg List.toByteArray same

/-- `str::len`. -/
def len (text : String) : Nat := (bytes text).length

/-- `str::split` at a character. -/
def split (text : String) (separator : Char) : List String :=
  (text.toList.splitOn separator).map String.ofList

theorem split_of_not_mem {text : String} {separator : Char} (absent : separator ∉ text.toList) :
    split text separator = [text] := by
  rw [split, List.splitOn_eq_singleton absent, List.map_singleton, String.ofList_toList]

/-- A separator ends the first part. -/
theorem split_append {first : String} {separator : Char} (absent : separator ∉ first.toList)
    (rest : String) :
    split (first ++ String.singleton separator ++ rest) separator =
      first :: split rest separator := by
  rw [split, String.toList_append, String.toList_append, String.toList_singleton,
    List.append_assoc, List.singleton_append,
    List.splitOn_append_cons_self_of_not_mem absent, List.map_cons, String.ofList_toList, split]

/-- The parts make up the text again. -/
theorem toList_eq_of_split {text : String} {separator : Char} {parts : List String}
    (cut : split text separator = parts) :
    text.toList = [separator].intercalate (parts.map String.toList) := by
  have whole : [separator].intercalate (text.toList.splitOn separator) = text.toList :=
    List.intercalate_splitOn separator
  rw [← cut, split, List.map_map]
  have lists : (String.toList ∘ String.ofList) = id := by
    funext chars
    exact String.toList_ofList
  rw [lists, List.map_id]
  exact whole.symm

theorem not_mem_of_mem_splitOn {separator : Char} {chars piece : List Char}
    (mem : piece ∈ chars.splitOn separator) : separator ∉ piece := by
  induction chars generalizing piece with
  | nil =>
      rw [List.splitOn_nil, List.mem_singleton] at mem
      rw [mem]
      exact List.not_mem_nil
  | cons c chars ih =>
      rw [List.splitOn_cons_eq_if_modifyHead] at mem
      split at mem
      · rcases List.mem_cons.mp mem with rfl | later
        · exact List.not_mem_nil
        · exact ih later
      · next differs =>
          rw [beq_iff_eq] at differs
          cases pieces : chars.splitOn separator with
          | nil =>
              rw [pieces] at mem
              exact absurd mem List.not_mem_nil
          | cons first rest =>
              rw [pieces, List.modifyHead_cons, List.mem_cons] at mem
              rcases mem with rfl | later
              · have absent := ih (pieces ▸ List.mem_cons_self)
                rw [List.mem_cons, not_or]
                exact ⟨Ne.symm differs, absent⟩
              · exact ih (pieces ▸ List.mem_cons_of_mem first later)

/-- No part has a separator in it. -/
theorem not_mem_of_mem_split {text part : String} {separator : Char}
    (mem : part ∈ split text separator) : separator ∉ part.toList := by
  rw [split, List.mem_map] at mem
  rcases mem with ⟨piece, pieceMem, rfl⟩
  rw [String.toList_ofList]
  exact not_mem_of_mem_splitOn pieceMem

theorem mem_of_mem_intersperse {α : Type} {element separator : α} :
    ∀ {pieces : List α}, element ∈ pieces.intersperse separator →
      element ∈ pieces ∨ element = separator
  | [], mem => Or.inl mem
  | [piece], mem => Or.inl mem
  | piece :: next :: pieces, mem => by
      rw [List.intersperse_cons_cons, List.mem_cons, List.mem_cons] at mem
      rcases mem with rfl | rfl | later
      · exact Or.inl List.mem_cons_self
      · exact Or.inr rfl
      · rcases mem_of_mem_intersperse later with inside | between
        · exact Or.inl (List.mem_cons_of_mem _ inside)
        · exact Or.inr between

/-- What is in a joined text separates its parts or is in one of them. -/
theorem mem_intercalate {α : Type} {element separator : α} {pieces : List (List α)}
    (mem : element ∈ [separator].intercalate pieces) :
    element = separator ∨ ∃ piece ∈ pieces, element ∈ piece := by
  rw [List.intercalate, List.mem_flatten] at mem
  rcases mem with ⟨piece, pieceMem, inside⟩
  rcases mem_of_mem_intersperse pieceMem with part | rfl
  · exact Or.inr ⟨piece, part, inside⟩
  · exact Or.inl (List.mem_singleton.mp inside)

/-- Every other character than the separator is in one of the parts. -/
theorem exists_mem_split {text : String} {separator c : Char} (mem : c ∈ text.toList)
    (other : c ≠ separator) : ∃ part ∈ split text separator, c ∈ part.toList := by
  have whole : [separator].intercalate (text.toList.splitOn separator) = text.toList :=
    List.intercalate_splitOn separator
  rw [← whole] at mem
  rcases mem_intercalate mem with same | ⟨piece, part, inside⟩
  · exact absurd same other
  · exact ⟨String.ofList piece, List.mem_map_of_mem part, by simpa using inside⟩

/-- `str::contains` on a character. -/
def contains (text : String) (c : Char) : Bool := text.toList.contains c

/-- `str::starts_with`. -/
def startsWith (text start : String) : Bool := start.toList.isPrefixOf text.toList

/-- `str::strip_prefix`. -/
def stripPrefix (text start : String) : Option String :=
  if startsWith text start then some (String.ofList (text.toList.drop start.toList.length))
  else none

theorem stripPrefix_append (start rest : String) :
    stripPrefix (start ++ rest) start = some rest := by
  have starts : startsWith (start ++ rest) start = true := by
    rw [startsWith, List.isPrefixOf_iff_prefix, String.toList_append]
    exact List.prefix_append _ _
  rw [stripPrefix, if_pos starts, String.toList_append, List.drop_left, String.ofList_toList]

theorem eq_append_of_stripPrefix {text start rest : String}
    (stripped : stripPrefix text start = some rest) : text = start ++ rest := by
  unfold stripPrefix at stripped
  split at stripped
  · next starts =>
      rw [startsWith, List.isPrefixOf_iff_prefix] at starts
      rcases starts with ⟨tail, tail_eq⟩
      rw [← tail_eq, List.drop_left] at stripped
      cases stripped
      rw [← String.toList_inj, String.toList_append, String.toList_ofList, tail_eq]
  · cases stripped

/-- `str::eq_ignore_ascii_case`. -/
def eqIgnoreAsciiCase (first second : String) : Bool :=
  first.toList.map Char.toLower == second.toList.map Char.toLower

/-! ## Occurrences -/

/-- `str::contains` on a text. -/
def containsText (text pattern : String) : Bool := decide (pattern.toList <:+: text.toList)

theorem containsText_iff (text pattern : String) :
    containsText text pattern = true ↔ pattern.toList <:+: text.toList :=
  decide_eq_true_iff

/-- `str::ends_with` on a character. -/
def endsWith (text : String) (c : Char) : Bool := text.toList.getLast? == some c

/-- `str::trim_start`. -/
def trimStart (text : String) : String := String.ofList (text.toList.dropWhile isWhitespace)

/-- `str::trim_matches` on a character. -/
def trimMatches (text : String) (c : Char) : String :=
  String.ofList ((text.toList.dropWhile (· == c)).rdropWhile (· == c))

/-- `str::find` on a character and `str::split_at` where it stands: what stands
before it, and the rest, with it. -/
def splitAtChar (text : String) (c : Char) : Option (String × String) :=
  match text.toList.span (· != c) with
  | (_, []) => none
  | (before, rest) => some (String.ofList before, String.ofList rest)

/-- `str::split_once` on a character. -/
def splitOnce (text : String) (c : Char) : Option (String × String) :=
  match text.toList.span (· != c) with
  | (_, []) => none
  | (before, _ :: after) => some (String.ofList before, String.ofList after)

section Cut

variable {c : Char} {before : List Char}

theorem span_append_cons (absent : c ∉ before) (after : List Char) :
    (before ++ c :: after).span (· != c) = (before, c :: after) := by
  have all : ∀ d ∈ before, (d != c) = true := by
    intro d mem
    rw [bne_iff_ne]
    rintro rfl
    exact absent mem
  have stops : ¬ (c != c) = true := by simp
  rw [List.span_eq_takeWhile_dropWhile, List.takeWhile_append_of_pos all,
    List.dropWhile_append_of_pos all, List.takeWhile_cons_of_neg (p := (· != c)) stops,
    List.dropWhile_cons_of_neg (p := (· != c)) stops, List.append_nil]

theorem span_of_not_mem (absent : c ∉ before) : before.span (· != c) = (before, []) := by
  have all : ∀ d ∈ before, (d != c) = true := by
    intro d mem
    rw [bne_iff_ne]
    rintro rfl
    exact absent mem
  rw [List.span_eq_takeWhile_dropWhile, List.takeWhile_eq_self_iff.mpr all,
    List.dropWhile_eq_nil_iff.mpr all]

theorem splitAtChar_append (absent : c ∉ before) (after : List Char) :
    splitAtChar (String.ofList (before ++ c :: after)) c =
      some (String.ofList before, String.ofList (c :: after)) := by
  rw [splitAtChar, String.toList_ofList, span_append_cons absent]

theorem splitAtChar_of_not_mem (absent : c ∉ before) :
    splitAtChar (String.ofList before) c = none := by
  rw [splitAtChar, String.toList_ofList, span_of_not_mem absent]

theorem splitOnce_append (absent : c ∉ before) (after : List Char) :
    splitOnce (String.ofList (before ++ c :: after)) c =
      some (String.ofList before, String.ofList after) := by
  rw [splitOnce, String.toList_ofList, span_append_cons absent]

theorem splitOnce_of_not_mem (absent : c ∉ before) :
    splitOnce (String.ofList before) c = none := by
  rw [splitOnce, String.toList_ofList, span_of_not_mem absent]

end Cut

/-- `str::trim_end_matches` on a character. -/
def trimEndMatches (text : String) (c : Char) : String :=
  String.ofList (text.toList.rdropWhile (· == c))

/-- `str::to_ascii_lowercase`. -/
def toAsciiLowercase (text : String) : String := String.ofList (text.toList.map Char.toLower)

/-- What follows the first occurrence of a pattern. -/
def afterPattern (pattern : List Char) : List Char → Option (List Char)
  | [] => if pattern.isPrefixOf [] then some [] else none
  | c :: rest =>
      if pattern.isPrefixOf (c :: rest) then some ((c :: rest).drop pattern.length)
      else afterPattern pattern rest

/-- `str::find` on a text, and the slice that starts where the occurrence ends. -/
def findAfter (text pattern : String) : Option String :=
  (afterPattern pattern.toList text.toList).map String.ofList

/-- The first occurrence of a pattern is where its first character first occurs. -/
theorem afterPattern_append {first : Char} {pattern front : List Char} (absent : first ∉ front)
    (rest : List Char) :
    afterPattern (first :: pattern) (front ++ first :: pattern ++ rest) = some rest := by
  induction front with
  | nil =>
      have starts : (first :: pattern).isPrefixOf (first :: (pattern ++ rest)) = true := by
        rw [List.isPrefixOf_iff_prefix, ← List.cons_append]
        exact List.prefix_append _ _
      rw [List.nil_append, List.cons_append, afterPattern, if_pos starts, ← List.cons_append,
        List.drop_left]
  | cons c front ih =>
      rw [List.mem_cons, not_or] at absent
      have differs :
          ¬ (first :: pattern).isPrefixOf (c :: (front ++ first :: pattern ++ rest)) := by
        rw [List.isPrefixOf_iff_prefix, List.cons_prefix_cons]
        exact fun same => absent.1 same.1
      rw [List.cons_append, List.cons_append, afterPattern, if_neg differs]
      exact ih absent.2

/-- A prefix without the separator ends before it. -/
theorem prefix_of_prefix_append_cons {α : Type} {separator : α} {pattern front back : List α}
    (absent : separator ∉ pattern) (starts : pattern <+: front ++ separator :: back) :
    pattern <+: front := by
  have first : front ++ [separator] <+: front ++ separator :: back := by
    rw [List.prefix_append_right_inj]
    exact List.prefix_append [separator] back
  rcases List.prefix_or_prefix_of_prefix starts first with shorter | longer
  · rcases List.prefix_concat_iff.mp shorter with rfl | inside
    · exact absurd (List.mem_append_right front List.mem_cons_self) absent
    · exact inside
  · exact absurd (longer.subset (List.mem_append_right front List.mem_cons_self)) absent

/-- A pattern without the character that separates two parts occurs in one of
them. -/
theorem infix_append_cons_iff {α : Type} {separator : α} {pattern front back : List α}
    (absent : separator ∉ pattern) :
    pattern <:+: front ++ separator :: back ↔ pattern <:+: front ∨ pattern <:+: back := by
  constructor
  · intro occurs
    induction front with
    | nil =>
        rcases List.infix_cons_iff.mp occurs with starts | later
        · have short : pattern <+: [] :=
            prefix_of_prefix_append_cons absent
              (show pattern <+: [] ++ separator :: back from starts)
          exact Or.inl short.isInfix
        · exact Or.inr later
    | cons c front ih =>
        rcases List.infix_cons_iff.mp occurs with starts | later
        · exact Or.inl (prefix_of_prefix_append_cons absent starts).isInfix
        · rcases ih later with inside | inside
          · exact Or.inl (List.infix_cons_iff.mpr (Or.inr inside))
          · exact Or.inr inside
  · rintro (inside | inside)
    · exact inside.trans (List.prefix_append front _).isInfix
    · have whole := (List.suffix_cons separator back).trans (List.suffix_append front _)
      exact inside.trans whole.isInfix

/-- A pattern that is neither empty nor has whitespace occurs in a text if it
occurs in the trimmed text. -/
theorem containsText_trim {text pattern : String} (nonempty : pattern.toList ≠ [])
    (solid : ∀ c ∈ pattern.toList, isWhitespace c = false) :
    containsText (trim text) pattern = containsText text pattern := by
  have nowhere : ∀ space : List Char, (∀ c ∈ space, isWhitespace c = true) →
      ¬ pattern.toList <:+: space := by
    intro space white occurs
    rcases List.exists_mem_of_ne_nil _ nonempty with ⟨c, mem⟩
    have isWhite := white c (occurs.subset mem)
    rw [solid c mem] at isWhite
    cases isWhite
  have separates : ∀ c, isWhitespace c = true → c ∉ pattern.toList := by
    intro c white mem
    rw [solid c mem] at white
    cases white
  rw [Bool.eq_iff_iff, containsText_iff, containsText_iff]
  constructor
  · intro occurs
    exact occurs.trans (trim_isInfix text)
  · intro occurs
    rcases exists_toList_eq_append_trim text with ⟨front, back, frontWhite, backWhite, cut⟩
    rw [cut, List.append_assoc] at occurs
    have afterFront : pattern.toList <:+: (trim text).toList ++ back := by
      clear cut
      clear backWhite
      induction front with
      | nil => rwa [List.nil_append] at occurs
      | cons c front ih =>
          rw [List.forall_mem_cons] at frontWhite
          rw [List.cons_append, ← List.nil_append (c :: _),
            infix_append_cons_iff (separates c frontWhite.1)] at occurs
          rcases occurs with inEmpty | later
          · exact absurd inEmpty (nowhere [] (by simp))
          · exact ih later frontWhite.2
    cases back with
    | nil => rwa [List.append_nil] at afterFront
    | cons c back =>
        rw [List.forall_mem_cons] at backWhite
        rcases (infix_append_cons_iff (separates c backWhite.1)).mp afterFront with inside | later
        · exact inside
        · exact absurd later (nowhere back backWhite.2)

/-! ## ASCII text -/

/-- An ASCII character is one byte. -/
theorem utf8EncodeChar_of_ascii {c : Char} (ascii : c.toNat < 128) :
    String.utf8EncodeChar c = [UInt8.ofNat c.toNat] := by
  rw [String.utf8EncodeChar]
  exact if_pos (Nat.le_of_lt_succ ascii)

theorem bytes_of_ascii {text : String} (ascii : ∀ c ∈ text.toList, c.toNat < 128) :
    bytes text = text.toList.map fun c => UInt8.ofNat c.toNat := by
  rw [bytes, List.map_eq_flatMap]
  exact List.flatMap_congr fun c mem => utf8EncodeChar_of_ascii (ascii c mem)

theorem len_of_ascii {text : String} (ascii : ∀ c ∈ text.toList, c.toNat < 128) :
    len text = text.toList.length := by
  rw [len, bytes_of_ascii ascii, List.length_map]

theorem isAlphanum_eq (c : Char) : c.isAlphanum = (c.isUpper || c.isLower || c.isDigit) := rfl

theorem isUpper_eq (c : Char) : c.isUpper = decide (c.val ≥ 65 ∧ c.val ≤ 90) := rfl

theorem isLower_eq (c : Char) : c.isLower = (decide (c.val ≥ 97) && decide (c.val ≤ 122)) := rfl

/-- Letters and digits lie between the digits and the last small letter. -/
theorem toNat_of_isAlphanum {c : Char} (alphanum : c.isAlphanum = true) :
    48 ≤ c.toNat ∧ c.toNat ≤ 122 := by
  simp only [isAlphanum_eq, isUpper_eq, isLower_eq, Char.isDigit, Bool.or_eq_true,
    Bool.and_eq_true, decide_eq_true_eq, ge_iff_le, UInt32.le_iff_toNat_le] at alphanum
  change ((65 ≤ c.toNat ∧ c.toNat ≤ 90) ∨ (97 ≤ c.toNat ∧ c.toNat ≤ 122)) ∨
    (48 ≤ c.toNat ∧ c.toNat ≤ 57) at alphanum
  omega

theorem ascii_of_isAlphanum {c : Char} (alphanum : c.isAlphanum = true) : c.toNat < 128 :=
  (toNat_of_isAlphanum alphanum).2.trans_lt (by decide)

/-- A text without whitespace is trimmed. -/
theorem trim_of_solid {text : String} (solid : ∀ c ∈ text.toList, isWhitespace c = false) :
    trim text = text := by
  rw [trim_eq_strip, strip_eq_self_of_forall solid, String.ofList_toList]

/-- A property of all ASCII characters is checked by their codes. -/
theorem of_ascii (property : Char → Prop) (all : ∀ code < 128, property (Char.ofNat code))
    {c : Char} (ascii : c.toNat < 128) : property c := by
  rw [← Char.ofNat_toNat c]
  exact all c.toNat ascii

/-! ## Lossy decoding -/

/-- Whether a byte may follow within a character. -/
def isContinuation (byte : UInt8) : Bool := 0x80 ≤ byte && byte ≤ 0xBF

/-- The second bytes that may follow a lead byte of three or four bytes, and how
many more follow them; the ranges leave out overlong forms, surrogates and what
is above the last character. -/
def secondByte (lead : UInt8) : Option (UInt8 × UInt8 × Nat) :=
  if lead == 0xE0 then some (0xA0, 0xBF, 1)
  else if lead == 0xED then some (0x80, 0x9F, 1)
  else if 0xE1 ≤ lead && lead ≤ 0xEF then some (0x80, 0xBF, 1)
  else if lead == 0xF0 then some (0x90, 0xBF, 2)
  else if 0xF1 ≤ lead && lead ≤ 0xF3 then some (0x80, 0xBF, 2)
  else if lead == 0xF4 then some (0x80, 0x8F, 2)
  else none

/-- Append the six bits of a continuation byte. -/
def continueCode (code : Nat) (byte : UInt8) : Nat := code * 64 + (byte.toNat - 0x80)

/-- `String::from_utf8_lossy`: each maximal prefix of a character that does not
continue is replaced by U+FFFD. -/
def fromUtf8Lossy : List UInt8 → List Char
  | [] => []
  | lead :: rest =>
      if lead < 0x80 then Char.ofNat lead.toNat :: fromUtf8Lossy rest
      else if 0xC2 ≤ lead && lead ≤ 0xDF then
        match rest with
        | second :: rest' =>
            if isContinuation second then
              Char.ofNat (continueCode (lead.toNat - 0xC0) second) :: fromUtf8Lossy rest'
            else '\uFFFD' :: fromUtf8Lossy (second :: rest')
        | [] => ['\uFFFD']
      else
        match secondByte lead, rest with
        | some (low, high, more), second :: rest' =>
            if low ≤ second && second ≤ high then
              match more, rest' with
              | 1, third :: rest'' =>
                  if isContinuation third then
                    Char.ofNat (continueCode (continueCode (lead.toNat - 0xE0) second) third) ::
                      fromUtf8Lossy rest''
                  else '\uFFFD' :: fromUtf8Lossy (third :: rest'')
              | 2, third :: fourth :: rest'' =>
                  if isContinuation third then
                    if isContinuation fourth then
                      Char.ofNat (continueCode (continueCode
                        (continueCode (lead.toNat - 0xF0) second) third) fourth) ::
                          fromUtf8Lossy rest''
                    else '\uFFFD' :: fromUtf8Lossy (fourth :: rest'')
                  else '\uFFFD' :: fromUtf8Lossy (third :: fourth :: rest'')
              | 2, [third] =>
                  if isContinuation third then ['\uFFFD'] else '\uFFFD' :: fromUtf8Lossy [third]
              | _, _ => ['\uFFFD']
            else '\uFFFD' :: fromUtf8Lossy (second :: rest')
        | _, rest => '\uFFFD' :: fromUtf8Lossy rest
termination_by bytes => bytes.length

end Skybase.Text
