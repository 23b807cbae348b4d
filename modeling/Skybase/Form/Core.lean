import Skybase.Text
import Mathlib.Data.Option.Basic

/-!
# Form-encoded queries

The decoder of `application/x-www-form-urlencoded`: the query of a URL, its
parameters, and the bytes that a component stands for.  Encoders are given by
the laws that their clients rely on, with the standard one as an instance.
Decoding undoes the joining of encoded parameters, and does not notice whether
the escapes of a plain character are replaced by the character.
-/

namespace Skybase.Form

/-! ## Components -/

/-- The value of a hexadecimal digit. -/
def hexValue (c : Char) : Option Nat :=
  if '0' ≤ c ∧ c ≤ '9' then some (c.toNat - 48)
  else if 'A' ≤ c ∧ c ≤ 'F' then some (c.toNat - 55)
  else if 'a' ≤ c ∧ c ≤ 'f' then some (c.toNat - 87)
  else none

/-- The byte of an escape with the given digits. -/
def escapedByte (high low : Char) : Option UInt8 :=
  (hexValue high).bind fun h => (hexValue low).map fun l => UInt8.ofNat (16 * h + l)

/-- The bytes that a component stands for. -/
def decodeComponent : List Char → List UInt8
  | '%' :: high :: low :: rest =>
      match escapedByte high low with
      | some byte => byte :: decodeComponent rest
      | none => 0x25 :: decodeComponent (high :: low :: rest)
  | '+' :: rest => 0x20 :: decodeComponent rest
  | c :: rest => String.utf8EncodeChar c ++ decodeComponent rest
  | [] => []

theorem decodeComponent_hex (high low : Char) (rest : List Char) :
    decodeComponent ('%' :: high :: low :: rest) =
      match escapedByte high low with
      | some byte => byte :: decodeComponent rest
      | none => 0x25 :: decodeComponent (high :: low :: rest) :=
  rfl

theorem decodeComponent_escape {high low : Char} {byte : UInt8}
    (escaped : escapedByte high low = some byte) (rest : List Char) :
    decodeComponent ('%' :: high :: low :: rest) = byte :: decodeComponent rest := by
  rw [decodeComponent_hex, escaped]

theorem decodeComponent_plus (rest : List Char) :
    decodeComponent ('+' :: rest) = 0x20 :: decodeComponent rest :=
  rfl

/-- Every other character stands for itself. -/
theorem decodeComponent_cons {c : Char} (notPercent : c ≠ '%') (notPlus : c ≠ '+')
    (rest : List Char) :
    decodeComponent (c :: rest) = String.utf8EncodeChar c ++ decodeComponent rest := by
  rw [decodeComponent]
  · intro high low tail percent _
    exact notPercent percent
  · exact notPlus

/-- So does a percent sign that starts no escape. -/
theorem decodeComponent_percent {rest : List Char}
    (plain : ∀ high low tail, rest = high :: low :: tail → escapedByte high low = none) :
    decodeComponent ('%' :: rest) = 0x25 :: decodeComponent rest := by
  match rest with
  | [] => rfl
  | [c] => rfl
  | high :: low :: tail => rw [decodeComponent_hex, plain high low tail rfl]

/-! ## Replacing escapes -/

/-- Replace the escapes with the given digits by a character, from left to
right. -/
def replaceEscape (high low plain : Char) : List Char → List Char
  | '%' :: h :: l :: rest =>
      if h = high ∧ l = low then plain :: replaceEscape high low plain rest
      else '%' :: replaceEscape high low plain (h :: l :: rest)
  | c :: rest => c :: replaceEscape high low plain rest
  | [] => []

section ReplaceEscape

variable {high low plain : Char}

theorem replaceEscape_percent (h l : Char) (rest : List Char) :
    replaceEscape high low plain ('%' :: h :: l :: rest) =
      if h = high ∧ l = low then plain :: replaceEscape high low plain rest
      else '%' :: replaceEscape high low plain (h :: l :: rest) :=
  rfl

theorem replaceEscape_cons {c : Char} (notPercent : c ≠ '%') (rest : List Char) :
    replaceEscape high low plain (c :: rest) = c :: replaceEscape high low plain rest := by
  rw [replaceEscape]
  intro h l tail percent _
  exact notPercent percent

/-- The first character stays, or an escape there is replaced. -/
theorem replaceEscape_cases (high low plain c : Char) (rest : List Char) :
    replaceEscape high low plain (c :: rest) = c :: replaceEscape high low plain rest ∨
      ∃ tail, replaceEscape high low plain (c :: rest) = plain :: tail := by
  by_cases percent : c = '%'
  · subst percent
    match rest with
    | [] => exact Or.inl rfl
    | [d] => exact Or.inl rfl
    | h :: l :: tail =>
        rw [replaceEscape_percent]
        split
        · exact Or.inr ⟨_, rfl⟩
        · exact Or.inl rfl
  · exact Or.inl (replaceEscape_cons percent rest)

theorem escapedByte_of_left {h l : Char} (none_eq : hexValue h = none) :
    escapedByte h l = none := by
  rw [escapedByte, none_eq, Option.bind_none]

theorem escapedByte_of_right {h l : Char} (none_eq : hexValue l = none) :
    escapedByte h l = none := by
  rw [escapedByte, none_eq]
  cases hexValue h <;> rfl

/-- The digits of an escape are no special characters. -/
theorem plain_of_escapedByte {h l : Char} {byte : UInt8} (escaped : escapedByte h l = some byte) :
    (h ≠ '%' ∧ h ≠ '+') ∧ l ≠ '%' ∧ l ≠ '+' := by
  have percent : hexValue '%' = none := by decide
  have plus : hexValue '+' = none := by decide
  refine ⟨⟨?_, ?_⟩, ?_, ?_⟩
  · rintro rfl
    rw [escapedByte_of_left percent] at escaped
    cases escaped
  · rintro rfl
    rw [escapedByte_of_left plus] at escaped
    cases escaped
  · rintro rfl
    rw [escapedByte_of_right percent] at escaped
    cases escaped
  · rintro rfl
    rw [escapedByte_of_right plus] at escaped
    cases escaped

/-- Replacing escapes by a character that is no hexadecimal digit makes no new
escape. -/
theorem escapedByte_replaceEscape (noDigit : hexValue plain = none) {h l : Char}
    (unescaped : escapedByte h l = none) {rest tail : List Char} {first second : Char}
    (replaced : replaceEscape high low plain (h :: l :: rest) = first :: second :: tail) :
    escapedByte first second = none := by
  rcases replaceEscape_cases high low plain h (l :: rest) with kept | ⟨tail', plain_eq⟩
  · rw [kept, List.cons.injEq] at replaced
    rw [← replaced.1]
    rcases replaceEscape_cases high low plain l rest with kept' | ⟨tail', plain_eq⟩
    · rw [kept', List.cons.injEq] at replaced
      rw [← replaced.2.1]
      exact unescaped
    · rw [plain_eq, List.cons.injEq] at replaced
      rw [← replaced.2.1]
      exact escapedByte_of_right noDigit
  · rw [plain_eq, List.cons.injEq] at replaced
    rw [← replaced.1]
    exact escapedByte_of_left noDigit

/-- Replacing the escapes of a character that stands for itself and is no
hexadecimal digit leaves the decoded bytes as they are. -/
theorem decodeComponent_replaceEscape {byte : UInt8} (escaped : escapedByte high low = some byte)
    (encoded : String.utf8EncodeChar plain = [byte]) (notPercent : plain ≠ '%')
    (notPlus : plain ≠ '+') (noDigit : hexValue plain = none) (text : List Char) :
    decodeComponent (replaceEscape high low plain text) = decodeComponent text := by
  induction text using replaceEscape.induct high low with
  | case1 h l rest same ih =>
      rw [replaceEscape_percent, if_pos same, decodeComponent_cons notPercent notPlus, encoded, ih,
        same.1, same.2, decodeComponent_escape escaped]
      rfl
  | case2 h l rest different ih =>
      rw [replaceEscape_percent, if_neg different]
      cases other : escapedByte h l with
      | some otherByte =>
          obtain ⟨hPlain, lPlain⟩ := plain_of_escapedByte other
          rw [replaceEscape_cons hPlain.1, replaceEscape_cons lPlain.1] at ih ⊢
          rw [decodeComponent_cons hPlain.1 hPlain.2, decodeComponent_cons lPlain.1 lPlain.2,
            decodeComponent_cons hPlain.1 hPlain.2, decodeComponent_cons lPlain.1 lPlain.2] at ih
          have tails := List.append_cancel_left (List.append_cancel_left ih)
          rw [decodeComponent_escape other, decodeComponent_escape other, tails]
      | none =>
          rw [decodeComponent_percent fun _ _ _ => escapedByte_replaceEscape noDigit other, ih,
            decodeComponent_hex, other]
  | case3 c rest unescaped ih =>
      have kept : replaceEscape high low plain (c :: rest) =
          c :: replaceEscape high low plain rest := by
        rw [replaceEscape]
        exact unescaped
      rw [kept]
      by_cases percent : c = '%'
      · subst percent
        match rest with
        | [] => rfl
        | [d] =>
            have single : replaceEscape high low plain [d] = [d] := by
              rcases replaceEscape_cases high low plain d [] with kept' | _
              · exact kept'
              · by_cases dPercent : d = '%'
                · subst dPercent
                  rfl
                · exact replaceEscape_cons dPercent []
            rw [single]
        | h :: l :: tail => exact (unescaped h l tail rfl rfl).elim
      · by_cases plus : c = '+'
        · subst plus
          rw [decodeComponent_plus, decodeComponent_plus, ih]
        · rw [decodeComponent_cons percent plus, decodeComponent_cons percent plus, ih]
  | case4 => rfl

/-- Nothing is written but the character and what was there. -/
theorem mem_replaceEscape {c : Char} {text : List Char}
    (mem : c ∈ replaceEscape high low plain text) : c = plain ∨ c ∈ text := by
  induction text using replaceEscape.induct high low with
  | case1 h l rest same ih =>
      rw [replaceEscape_percent, if_pos same, List.mem_cons] at mem
      rcases mem with rfl | later
      · exact Or.inl rfl
      · rcases ih later with rfl | inside
        · exact Or.inl rfl
        · exact Or.inr (by simp [inside])
  | case2 h l rest different ih =>
      rw [replaceEscape_percent, if_neg different, List.mem_cons] at mem
      rcases mem with rfl | later
      · exact Or.inr List.mem_cons_self
      · rcases ih later with rfl | inside
        · exact Or.inl rfl
        · exact Or.inr (List.mem_cons_of_mem _ inside)
  | case3 d rest unescaped ih =>
      rw [replaceEscape, List.mem_cons] at mem
      · rcases mem with rfl | later
        · exact Or.inr List.mem_cons_self
        · rcases ih later with rfl | inside
          · exact Or.inl rfl
          · exact Or.inr (List.mem_cons_of_mem _ inside)
      · exact unescaped
  | case4 => cases mem

end ReplaceEscape

/-! ## Encoders -/

/-- A character that needs no escape in a component. -/
def isUnreserved (c : Char) : Bool :=
  c.isAlphanum || c == '*' || c == '-' || c == '.' || c == '_'

/-- A serializer of component bytes, with the laws that its clients rely on. -/
structure Encoder where
  encode : List UInt8 → List Char
  /-- The output consists of unreserved characters, plus signs and escapes. -/
  alphabet : ∀ bytes, ∀ c ∈ encode bytes, isUnreserved c = true ∨ c = '+' ∨ c = '%'
  /-- Decoding inverts the serialization. -/
  decodes : ∀ bytes, decodeComponent (encode bytes) = bytes

/-- The upper-case hexadecimal digit of a number. -/
def hexDigit (digit : Nat) : Char :=
  if digit < 10 then Char.ofNat (48 + digit) else Char.ofNat (55 + digit)

/-- The standard serialization of a byte. -/
def encodeByte (b : UInt8) : List Char :=
  let c := Char.ofNat b.toNat
  if b = 0x20 then ['+']
  else if b < 0x80 ∧ isUnreserved c then [c]
  else ['%', hexDigit (b.toNat / 16), hexDigit (b.toNat % 16)]

theorem escapedByte_hexDigit {high low : Nat} (highSmall : high < 16) (lowSmall : low < 16) :
    escapedByte (hexDigit high) (hexDigit low) = some (UInt8.ofNat (16 * high + low)) := by
  have digits : ∀ digit < 16, hexValue (hexDigit digit) = some digit := by decide
  rw [escapedByte, digits high highSmall, digits low lowSmall]
  rfl

theorem decodeComponent_encodeByte (b : UInt8) (rest : List Char) :
    decodeComponent (encodeByte b ++ rest) = b :: decodeComponent rest := by
  unfold encodeByte
  dsimp only
  split
  · next space =>
      rw [space]
      exact decodeComponent_plus rest
  · split
    · next unreserved =>
        have small : b.toNat < 128 := UInt8.lt_iff_toNat_lt.mp unreserved.1
        have valid : b.toNat.isValidChar := Or.inl (by omega)
        have code : (Char.ofNat b.toNat).toNat = b.toNat := by
          rw [Char.ofNat, dif_pos valid]
          rfl
        have encoded : String.utf8EncodeChar (Char.ofNat b.toNat) = [b] := by
          rw [Text.utf8EncodeChar_of_ascii (by rwa [code]), code, UInt8.ofNat_toNat]
        have notPercent : Char.ofNat b.toNat ≠ '%' := by
          intro same
          rw [same] at unreserved
          exact absurd unreserved.2 (by decide)
        have notPlus : Char.ofNat b.toNat ≠ '+' := by
          intro same
          rw [same] at unreserved
          exact absurd unreserved.2 (by decide)
        rw [List.singleton_append, decodeComponent_cons notPercent notPlus, encoded]
        rfl
    · have bound := b.toNat_lt
      have high : b.toNat / 16 < 16 := by omega
      have low : b.toNat % 16 < 16 := Nat.mod_lt _ (by decide)
      have whole : 16 * (b.toNat / 16) + b.toNat % 16 = b.toNat := Nat.div_add_mod _ _
      simp only [List.cons_append, List.nil_append]
      rw [decodeComponent_escape (escapedByte_hexDigit high low), whole, UInt8.ofNat_toNat]

/-- The standard serializer. -/
def standard : Encoder where
  encode bytes := bytes.flatMap encodeByte
  alphabet := by
    intro bytes c mem
    rcases List.mem_flatMap.mp mem with ⟨b, _, inside⟩
    have digits : ∀ digit < 16, isUnreserved (hexDigit digit) = true := by decide
    have bound := b.toNat_lt
    unfold encodeByte at inside
    dsimp only at inside
    split at inside
    · exact Or.inr (Or.inl (List.mem_singleton.mp inside))
    · split at inside
      · next unreserved =>
          rw [List.mem_singleton.mp inside]
          exact Or.inl unreserved.2
      · simp only [List.mem_cons, List.not_mem_nil, or_false] at inside
        rcases inside with rfl | rfl | rfl
        · exact Or.inr (Or.inr rfl)
        · exact Or.inl (digits _ (by omega))
        · exact Or.inl (digits _ (by omega))
  decodes := by
    intro bytes
    induction bytes with
    | nil => rfl
    | cons b bytes ih => rw [List.flatMap_cons, decodeComponent_encodeByte, ih]

/-! ## Queries -/

/-- The query of a URL: what stands between the first question mark and the
fragment. -/
def queryOf (url : List Char) : Option (List Char) :=
  match (url.takeWhile (· ≠ '#')).dropWhile (· ≠ '?') with
  | [] => none
  | _ :: query => some query

/-- The name and the value of a parameter. -/
def pairOf (parameter : List Char) : List UInt8 × List UInt8 :=
  (decodeComponent (parameter.takeWhile (· ≠ '=')),
    decodeComponent ((parameter.dropWhile (· ≠ '=')).drop 1))

/-- The parameters of a query, decoded. -/
def decodeQuery (query : List Char) : List (List UInt8 × List UInt8) :=
  ((query.splitOn '&').filter fun parameter => parameter ≠ []).map pairOf

/-- The values of the parameters with the given name in a URL, in order. -/
def valuesOf (name : List UInt8) (url : List Char) : List (List UInt8) :=
  match queryOf url with
  | none => []
  | some query =>
      ((decodeQuery query).filter fun pair => pair.1 = name).map Prod.snd

/-- A text without a character is all that precedes it. -/
theorem takeWhile_ne_of_not_mem {c : Char} {text : List Char} (absent : c ∉ text) :
    text.takeWhile (· ≠ c) = text := by
  rw [List.takeWhile_eq_self_iff]
  intro d mem
  simpa using fun same : d = c => absent (same ▸ mem)

/-- A text without a character is passed over before it is searched for. -/
theorem takeWhile_ne_append {c : Char} {front : List Char} (absent : c ∉ front)
    (rest : List Char) : (front ++ rest).takeWhile (· ≠ c) = front ++ rest.takeWhile (· ≠ c) :=
  List.takeWhile_append_of_pos fun _ mem => decide_eq_true fun same => absent (same ▸ mem)

theorem dropWhile_ne_append {c : Char} {front : List Char} (absent : c ∉ front)
    (rest : List Char) : (front ++ rest).dropWhile (· ≠ c) = rest.dropWhile (· ≠ c) :=
  List.dropWhile_append_of_pos fun _ mem => decide_eq_true fun same => absent (same ▸ mem)

theorem queryOf_eq_none_iff (url : List Char) :
    queryOf url = none ↔ '?' ∉ url.takeWhile (· ≠ '#') := by
  unfold queryOf
  constructor
  · intro absent mem
    cases rest : (url.takeWhile (· ≠ '#')).dropWhile (· ≠ '?') with
    | nil =>
        rw [List.dropWhile_eq_nil_iff] at rest
        simpa using rest '?' mem
    | cons c query =>
        rw [rest] at absent
        cases absent
  · intro absent
    have gone : (url.takeWhile (· ≠ '#')).dropWhile (· ≠ '?') = [] := by
      rw [List.dropWhile_eq_nil_iff]
      intro c mem
      simpa using fun same : c = '?' => absent (same ▸ mem)
    rw [gone]

/-- Without a fragment, a URL has a query if it has a question mark. -/
theorem queryOf_eq_none_iff_of_plain {url : List Char} (plain : '#' ∉ url) :
    queryOf url = none ↔ '?' ∉ url := by
  rw [queryOf_eq_none_iff, takeWhile_ne_of_not_mem plain]

theorem valuesOf_of_queryOf_eq_none {url : List Char} (noQuery : queryOf url = none)
    (name : List UInt8) : valuesOf name url = [] := by
  rw [valuesOf, noQuery]

/-- What follows a fragment does not change the query. -/
theorem queryOf_append_of_fragment {url : List Char} (fragment : '#' ∈ url) (tail : List Char) :
    queryOf (url ++ tail) = queryOf url := by
  have cut : (url ++ tail).takeWhile (· ≠ '#') = url.takeWhile (· ≠ '#') := by
    rw [List.takeWhile_append, if_neg]
    intro whole
    have same := (List.takeWhile_prefix (p := (· ≠ '#')) (l := url)).eq_of_length whole
    rw [List.takeWhile_eq_self_iff] at same
    simpa using same '#' fragment
  rw [queryOf, queryOf, cut]

/-- Nor does a front without special characters give a URL a query. -/
theorem queryOf_eq_none_iff_of_fragment {front url : List Char}
    (plain : ∀ c ∈ front, c ≠ '#' ∧ c ≠ '?') (fragment : '#' ∈ url) (back : List Char) :
    queryOf (front ++ url ++ back) = none ↔ queryOf url = none := by
  have noFragment : '#' ∉ front := fun mem => (plain '#' mem).1 rfl
  rw [queryOf_append_of_fragment (List.mem_append_right front fragment), queryOf_eq_none_iff,
    queryOf_eq_none_iff, takeWhile_ne_append noFragment, List.mem_append, not_or]
  exact and_iff_right fun mem => (plain '?' mem).2 rfl

/-- The query starts after the first question mark. -/
theorem queryOf_append {front query : List Char} (noFragment : '#' ∉ front)
    (noQuery : '?' ∉ front) (queryClean : '#' ∉ query) :
    queryOf (front ++ '?' :: query) = some query := by
  have plain : '#' ∉ front ++ '?' :: query := by
    rw [List.mem_append, List.mem_cons, not_or, not_or]
    exact ⟨noFragment, by decide, queryClean⟩
  have whole := takeWhile_ne_of_not_mem plain
  have skipped : (front ++ '?' :: query).dropWhile (· ≠ '?') = '?' :: query :=
    dropWhile_ne_append noQuery ('?' :: query)
  rw [queryOf, whole, skipped]

theorem pairOf_append {name value : List Char} (clean : '=' ∉ name) :
    pairOf (name ++ '=' :: value) = (decodeComponent name, decodeComponent value) := by
  rw [pairOf, takeWhile_ne_append clean, dropWhile_ne_append clean]
  simp

/-- Joined parameters are decoded one by one. -/
theorem decodeQuery_intercalate {parameters : List (List Char)} (nonempty : parameters ≠ [])
    (clean : ∀ parameter ∈ parameters, parameter ≠ [] ∧ '&' ∉ parameter) :
    decodeQuery (['&'].intercalate parameters) = parameters.map pairOf := by
  rw [decodeQuery,
    List.splitOn_intercalate _ (fun parameter mem => (clean parameter mem).2) nonempty]
  congr 1
  rw [List.filter_eq_self]
  intro parameter mem
  exact decide_eq_true (clean parameter mem).1

end Skybase.Form
