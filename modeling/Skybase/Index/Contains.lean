import Skybase.Index.Comparison
import Skybase.Like.Core

/-!
# Searches for a text

The condition `Contains` is a `LIKE` with a wildcard at both ends of its value.
The value of a string is escaped before that; the text of an array or of an
object is not, so that the symbols of the pattern that stand in it act as
wildcards and escapes.
-/

namespace Skybase.Index

open Skybase.Json

/-- The symbols of SQLite's `LIKE`, with the escape that the statement names. -/
def likeWildcards : Like.Wildcards Char := ⟨'%', '_', '\\'⟩

/-- `SQLITE_MAX_LIKE_PATTERN_LENGTH`. -/
def likePatternLimit : Nat := 50000

/-- `text LIKE ('%' || literal || '%') ESCAPE '\'`. -/
def likeContains (text literal : String) : Bool :=
  Like.isLike likeWildcards Char.toLower ('%' :: (literal.toList ++ ['%'])) text.toList

/-- What is relied on in SQLite: `LIKE` on texts without NUL, with a pattern up to the limit, and
that `json_extract` gives the texts that are stored. -/
structure Json1.SearchesTexts (json1 : Json1) : Prop where
  contains : ∀ text literal : String, '\x00' ∉ text.toList → '\x00' ∉ literal.toList →
    Text.len literal + 2 ≤ likePatternLimit →
    json1.contains (.text text) (.text literal) = likeContains text literal
  extract : ∀ text : String, '\x00' ∉ text.toList →
    ∃ recordJson path, json1.extract recordJson path = .text text

/-- The text that a value is searched by: a string itself, or the serialized array or object. -/
def searchedText (serde : SerdeJson) : Value → Option String
  | .string s => some s
  | .array elements => some (serde.text (.array elements))
  | .object members => some (serde.text (.object members))
  | _ => none

/-- The text contains another one as it is, up to the case of ASCII letters. -/
def ContainsIgnoringCase (text wanted : String) : Prop :=
  (Text.toAsciiLowercase wanted).toList <:+: (Text.toAsciiLowercase text).toList

instance (text wanted : String) : Decidable (ContainsIgnoringCase text wanted) :=
  inferInstanceAs (Decidable (_ <:+: _))

/-- None of the characters is a symbol of the pattern. -/
def WithoutWildcards (text : String) : Prop := ∀ c ∈ text.toList, c ≠ '%' ∧ c ≠ '_' ∧ c ≠ '\\'

instance (text : String) : Decidable (WithoutWildcards text) :=
  inferInstanceAs (Decidable (∀ _ ∈ _, _))

theorem withoutWildcards_iff (text : String) :
    WithoutWildcards text ↔ ∀ c ∈ text.toList, ¬ likeWildcards.IsSpecial c := by
  refine forall₂_congr fun c _ => ?_
  rw [Like.Wildcards.IsSpecial, not_or, not_or]
  rfl

theorem toList_escapeLikeLiteral (s : String) :
    (escapeLikeLiteral s).toList = Like.escapeLiteral likeWildcards s.toList := by
  rw [escapeLikeLiteral, String.toList_ofList, Like.escapeLiteral]
  refine congrArg (fun f => s.toList.flatMap f) (funext fun c => ?_)
  simp only [Like.Wildcards.IsSpecial, likeWildcards, Bool.or_eq_true, beq_iff_eq, or_assoc]
  exact if_congr Iff.rfl rfl rfl

/-- An escaped literal is searched for. -/
theorem likeContains_escapeLikeLiteral (text s : String) :
    likeContains text (escapeLikeLiteral s) = true ↔ ContainsIgnoringCase text s := by
  have distinct : likeWildcards.any ≠ likeWildcards.escape := by decide
  rw [likeContains, toList_escapeLikeLiteral, ContainsIgnoringCase, Text.toAsciiLowercase,
    Text.toAsciiLowercase, String.toList_ofList, String.toList_ofList]
  exact Like.isLike_escapeLiteral_iff distinct s.toList text.toList

/-- A literal that is not escaped is searched for exactly if it is its own escape. -/
theorem likeContains_iff {wanted : String} (noNul : '\x00' ∉ wanted.toList) :
    (∀ text : String, '\x00' ∉ text.toList →
      (likeContains text wanted = true ↔ ContainsIgnoringCase text wanted)) ↔
      WithoutWildcards wanted := by
  have differs : likeWildcards.escape.toLower ≠ likeWildcards.any.toLower := by decide
  have fills : likeWildcards.one.toLower ≠ 'x'.toLower := by decide
  have searches := Like.isLike_search_iff 'x' differs fills
    (fun c mem nul => noNul (nul ▸ mem) : ∀ c ∈ wanted.toList, c ≠ '\x00') (by decide) (by decide)
  rw [withoutWildcards_iff, ← searches]
  simp only [ContainsIgnoringCase, Text.toAsciiLowercase, String.toList_ofList]
  constructor
  · intro agrees text noNul
    have agree := agrees (String.ofList text)
    rw [likeContains, String.toList_ofList] at agree
    exact agree fun mem => noNul _ mem rfl
  · intro agrees text noNul
    exact agrees text.toList fun c mem nul => noNul (nul ▸ mem)

theorem nul_not_mem_escapeLikeLiteral {s : String} (noNul : '\x00' ∉ s.toList) :
    '\x00' ∉ (escapeLikeLiteral s).toList := by
  rw [escapeLikeLiteral, String.toList_ofList, List.mem_flatMap]
  rintro ⟨c, mem, inPiece⟩
  split at inPiece
  · simp only [List.mem_cons, List.not_mem_nil, or_false] at inPiece
    obtain escape | rfl := inPiece
    · exact absurd escape (by decide)
    · exact noNul mem
  · obtain rfl := List.mem_singleton.mp inPiece
    exact noNul mem

/-- A row meets the condition as `LIKE` finds the bound literal in its text. -/
theorem Json1.SearchesTexts.holds_eq {json1 : Json1} (searches : json1.SearchesTexts)
    {literal text path : String} {row : Row} (short : Text.len literal + 2 ≤ likePatternLimit)
    (literalNoNul : '\x00' ∉ literal.toList) (textNoNul : '\x00' ∉ text.toList)
    (extracted : json1.extract row.recordJson path = .text text) :
    json1.holds row (.json path (.contains (.text literal))) = likeContains text literal := by
  rw [Json1.holds, extracted, Json1.passes]
  exact searches.contains text literal textNoNul literalNoNul short

/-- The literal of an array or an object is not escaped. -/
theorem Json1.SearchesTexts.unescaped_iff {json1 : Json1} (searches : json1.SearchesTexts)
    {wanted : String} (noNul : '\x00' ∉ wanted.toList)
    (short : Text.len wanted + 2 ≤ likePatternLimit) :
    (∀ row : Row, ∀ path text : String, json1.extract row.recordJson path = .text text →
      '\x00' ∉ text.toList →
      (json1.holds row (.json path (.contains (.text wanted))) = true ↔
        ContainsIgnoringCase text wanted)) ↔
      WithoutWildcards wanted := by
  rw [← likeContains_iff noNul]
  constructor
  · intro agrees text textNoNul
    obtain ⟨recordJson, path, extracted⟩ := searches.extract text textNoNul
    let row : Row :=
      { cid := "", did := "", collection := "", rkey := "", recordJson := recordJson
        indexedAt := 0, isDeleted := false }
    rw [← agrees row path text extracted textNoNul,
      searches.holds_eq short noNul textNoNul extracted]
  · intro agrees row path text extracted textNoNul
    rw [searches.holds_eq short noNul textNoNul extracted]
    exact agrees text textNoNul

/-- A search for a string finds the texts that contain it; a search for an array or an object
does so exactly if no symbol of the pattern stands in its text. -/
theorem contains_iff {json1 : Json1} (searches : json1.SearchesTexts) (serde : SerdeJson)
    (fieldPath : String) {value : Value} {wanted : String}
    (isText : searchedText serde value = some wanted) (noNul : '\x00' ∉ wanted.toList)
    (short : ∀ literal, WhereJsonClause.test serde ⟨fieldPath, .contains, value⟩ =
      .contains (.text literal) → Text.len literal + 2 ≤ likePatternLimit) :
    (∀ row : Row, ∀ path text : String, json1.extract row.recordJson path = .text text →
      '\x00' ∉ text.toList →
      (json1.holds row
          (.json path (WhereJsonClause.test serde ⟨fieldPath, .contains, value⟩)) = true ↔
        ContainsIgnoringCase text wanted)) ↔
      ((∃ s, value = .string s) ∨ WithoutWildcards wanted) := by
  cases value with
  | string s =>
      obtain rfl := Option.some.inj isText
      refine iff_of_true ?_ (.inl ⟨s, rfl⟩)
      intro row path text extracted textNoNul
      rw [← likeContains_escapeLikeLiteral, ← searches.holds_eq (short _ rfl)
        (nul_not_mem_escapeLikeLiteral noNul) textNoNul extracted]
      rfl
  | array elements =>
      obtain rfl := Option.some.inj isText
      rw [or_iff_right (by rintro ⟨s, ⟨⟩⟩)]
      exact searches.unescaped_iff noNul (short _ rfl)
  | object members =>
      obtain rfl := Option.some.inj isText
      rw [or_iff_right (by rintro ⟨s, ⟨⟩⟩)]
      exact searches.unescaped_iff noNul (short _ rfl)
  | null => exact nomatch isText
  | bool b => exact nomatch isText
  | number number => exact nomatch isText

/-! ## A search on compact texts -/

/-- JSON1 on compact texts and paths of member names, with the search by `LIKE`. -/
def Json1.searching : Json1 :=
  { Json1.compact with
    contains := fun
      | .text text, .text literal => likeContains text literal
      | _, _ => false }

theorem Json1.searching_extract {recordJson path : String} {value : Value}
    (stored : compactAt recordJson path = some value) :
    Json1.searching.extract recordJson path = sqlValueOf value := by
  change ((compactAt recordJson path).map sqlValueOf).getD .null = _
  rw [stored, Option.map_some, Option.getD_some]

theorem Json1.searching_searchesTexts : Json1.searching.SearchesTexts where
  contains _ _ _ _ _ := rfl
  extract text _ := by
    refine ⟨Compact.codec.text (.object [("k", .string text)]), "$.k", ?_⟩
    have stored : compactAt (Compact.codec.text (.object [("k", .string text)])) "$.k" =
        some (.string text) := by
      have shallow : (Value.object [("k", .string text)]).depth ≤ 127 :=
        Nat.le_trans (Nat.le_refl 1) (by decide)
      have keys : pathKeys "$.k" = ["k"] := by decide
      rw [compactAt, Compact.fromStr_text, if_pos shallow, keys]
      rfl
    rw [Json1.searching_extract stored, sqlValueOf]

/-- A row whose record has a tag. -/
def taggedRow : Row where
  cid := "cid1"
  did := "did:plc:alice"
  collection := "app.example.tagged"
  rkey := "r1"
  recordJson := "\x7b\"tags\":[\"axb\"]\x7d"
  indexedAt := 1
  isDeleted := false

/-- The underscore of a searched array stands for any character. -/
theorem contains_array_wildcard :
    Json1.searching.SearchesTexts ∧
      searchedText Compact.codec (.array [.string "a_b"]) = some "[\"a_b\"]" ∧
      Json1.searching.extract taggedRow.recordJson "$.tags" = .text "[\"axb\"]" ∧
      ¬ (Json1.searching.holds taggedRow (.json "$.tags"
            (WhereJsonClause.test Compact.codec ⟨"tags", .contains, .array [.string "a_b"]⟩)) =
          true ↔ ContainsIgnoringCase "[\"axb\"]" "[\"a_b\"]") := by
  have found : Json1.searching.holds taggedRow (.json "$.tags"
      (WhereJsonClause.test Compact.codec ⟨"tags", .contains, .array [.string "a_b"]⟩)) = true := by
    decide +kernel
  have absent : ¬ ContainsIgnoringCase "[\"axb\"]" "[\"a_b\"]" := by decide
  exact ⟨Json1.searching_searchesTexts, by decide, by decide +kernel,
    fun agrees => absent (agrees.mp found)⟩

theorem contains_iff_percent :
    (∀ row : Row, ∀ path text : String, Json1.searching.extract row.recordJson path = .text text →
      '\x00' ∉ text.toList →
      (Json1.searching.holds row
          (.json path (WhereJsonClause.test Compact.codec ⟨"tags", .contains, .string "50%"⟩)) =
          true ↔ ContainsIgnoringCase text "50%")) ↔
      ((∃ s, Value.string "50%" = .string s) ∨ WithoutWildcards "50%") := by
  refine contains_iff Json1.searching_searchesTexts Compact.codec "tags" rfl (by decide) ?_
  rintro literal bound
  obtain rfl : escapeLikeLiteral "50%" = literal :=
    SqlValue.text.inj (JsonTest.contains.inj bound)
  decide

end Skybase.Index
