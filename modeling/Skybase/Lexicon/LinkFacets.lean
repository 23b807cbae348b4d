import Skybase.Lexicon.Facet
import Skybase.Span.Core
import Skybase.Text

/-!
# Link facets

The links of a text are the matches of a regular expression, trimmed at their
end and kept when they parse as a URL of the web.  The engine of the regular
expression and the URL parser are parameters; what is assumed of the engine is
that it returns pieces of the text in order and without overlap.
-/

namespace Skybase.Lexicon

open Skybase.Span

/-- A `&str`: the length in bytes is a `usize`. -/
structure Str where
  text : String
  fits : Text.len text < 2 ^ 64

/-- A match of a regular expression in a text. -/
structure Match where
  start : U64
  asStr : String
deriving DecidableEq

/-- What is read of a parsed `url::Url`. -/
structure Url where
  scheme : String
  hasHost : Bool
deriving DecidableEq

/-- The characters that are taken away at the end of a URL. -/
def trailingPunctuation : List Char :=
  (".,;:!?\"'`><*~" ++ "”“’‘»«›‹„‟‚" ++ "…⋯‥—–" ++ "。、！？：；，．" ++
    "\u200B\u200C\u200D\u200E\u200F\uFEFF").toList

/-- The delimiters whose closing character is taken away where it has no opening one. -/
def pairedDelimiters : List (Char × Char) :=
  [('(', ')'), ('[', ']'), ('\x7b', '\x7d'), ('（', '）'), ('［', '］'), ('｛', '｝'), ('《', '》'),
    ('〈', '〉'), ('「', '」'), ('『', '』'), ('【', '】'), ('〔', '〕'), ('〖', '〗'), ('〘', '〙')]

/-- `is_unbalanced_closing`. -/
def isUnbalancedClosing (url : List Char) (opening closing : Char) : Bool :=
  url.count opening < url.count closing

/-- Whether the loop of `trim_trailing_url_punctuation` takes away the last character. -/
def stripsLast (url : List Char) : Bool :=
  match url.getLast? with
  | none => false
  | some lastChar =>
      trailingPunctuation.contains lastChar ||
        pairedDelimiters.any fun (opening, closing) =>
          lastChar == closing && isUnbalancedClosing url opening closing

/-- `trim_trailing_url_punctuation`. -/
def trimTrailingUrlPunctuation (rawUrl : String) : String :=
  String.ofList (trimEnd stripsLast rawUrl.toList)

/-- `Facet::link`. -/
def Facet.link (byteStart byteEnd : U64) (uri : String) : Facet where
  index := { byteStart := byteStart, byteEnd := byteEnd }
  features := [.link uri]

/-- The link of a match, if the trimmed match is one. -/
def linkOfMatch (parse : String → Option Url) (mat : Match) : Option Facet :=
  let trimmed := trimTrailingUrlPunctuation mat.asStr
  if trimmed.isEmpty then none
  else
    match parse trimmed with
    | some parsed =>
        if (parsed.scheme == "http" || parsed.scheme == "https") && parsed.hasHost then
          some (.link mat.start (mat.start + Fin.ofNat _ (Text.len trimmed)) trimmed)
        else none
    | none => none

/-- `extract_link_facets`, over a compiled regular expression and a URL parser. -/
def extractLinkFacets (urlRegex : Option (String → List Match)) (parse : String → Option Url)
    (text : Str) : List Facet :=
  match urlRegex with
  | some findIter => (findIter text.text).filterMap (linkOfMatch parse)
  | none => []

/-! ## Offsets of a text -/

/-- `str::is_char_boundary`. -/
def IsCharBoundary (text : String) (offset : Nat) : Prop :=
  IsBoundary Char.utf8Size text.toList offset

/-- `str::get` of a range of bytes. -/
def sliceBytes (text : String) (start stop : Nat) : Option String :=
  (slice Char.utf8Size text.toList start stop).map String.ofList

theorem len_eq_total (text : String) : Text.len text = total Char.utf8Size text.toList := by
  rw [Text.len, Text.bytes, List.length_flatMap, total]
  simp only [String.length_utf8EncodeChar]

/-- The matches that a regular expression finds in a text are pieces of it, in increasing order
and without overlap. -/
structure FindsInOrder (findIter : String → List Match) : Prop where
  at_start : ∀ text, ∀ mat ∈ findIter text, ∃ front back,
    text.toList = front ++ mat.asStr.toList ++ back ∧ total Char.utf8Size front = mat.start.val
  in_order : ∀ text, (findIter text).Pairwise fun first second =>
    first.start.val + Text.len first.asStr ≤ second.start.val

/-! ## The range of a link -/

/-- A facet is a link of a text, trimmed from a piece of it. -/
structure IsLink (text raw : String) (facet : Facet) (uri : String) : Prop where
  features : facet.features = [.link uri]
  start_lt : facet.index.byteStart < facet.index.byteEnd
  end_le : facet.index.byteEnd.val ≤ Text.len text
  start_boundary : IsCharBoundary text facet.index.byteStart.val
  end_boundary : IsCharBoundary text facet.index.byteEnd.val
  slice_eq : sliceBytes text facet.index.byteStart.val facet.index.byteEnd.val = some uri
  longest : LongestKept stripsLast raw.toList uri.toList

theorem linkOfMatch_eq_some {parse : String → Option Url} {mat : Match} {facet : Facet}
    (linked : linkOfMatch parse mat = some facet) :
    trimTrailingUrlPunctuation mat.asStr ≠ "" ∧
      facet = .link mat.start
        (mat.start + Fin.ofNat _ (Text.len (trimTrailingUrlPunctuation mat.asStr)))
        (trimTrailingUrlPunctuation mat.asStr) := by
  rw [linkOfMatch] at linked
  split at linked
  · exact nomatch linked
  · next nonempty =>
      split at linked
      · split at linked
        · exact ⟨fun empty => nonempty (by rw [empty]; rfl), (Option.some.inj linked).symm⟩
        · exact nomatch linked
      · exact nomatch linked

theorem utf8Size_pos (c : Char) : 0 < c.utf8Size := Char.utf8Size_pos c

theorem trimmed_longest {raw : String} (nonempty : trimTrailingUrlPunctuation raw ≠ "") :
    LongestKept stripsLast raw.toList (trimTrailingUrlPunctuation raw).toList := by
  rw [trimTrailingUrlPunctuation, String.toList_ofList]
  refine longestKept_trimEnd fun empty => nonempty ?_
  rw [trimTrailingUrlPunctuation, empty]

/-- The end of the range does not overflow: it is an offset of the text. -/
theorem val_linkEnd {text : Str} {mat : Match} {uri : String} {front back : List Char}
    (text_eq : text.text.toList = front ++ uri.toList ++ back)
    (start_eq : total Char.utf8Size front = mat.start.val) :
    (mat.start + Fin.ofNat _ (Text.len uri) : U64).val = mat.start.val + Text.len uri := by
  have size := len_eq_total text.text
  rw [text_eq, total_append, total_append, start_eq, ← len_eq_total] at size
  have fits := text.fits
  rw [Fin.val_add, Fin.val_ofNat, Nat.mod_eq_of_lt (show Text.len uri < 2 ^ 64 by omega),
    Nat.mod_eq_of_lt (by omega)]

theorem len_pos {text : String} (nonempty : text ≠ "") : 0 < Text.len text := by
  rw [len_eq_total]
  cases chars : text.toList with
  | nil => exact absurd (String.toList_eq_nil_iff.mp chars) nonempty
  | cons first rest =>
      rw [total_cons]
      exact Nat.add_pos_left (utf8Size_pos first) _

/-- A match in a text gives a link of the text. -/
theorem isLink_of_match {parse : String → Option Url} {text : Str} {mat : Match} {facet : Facet}
    (placed : ∃ front back, text.text.toList = front ++ mat.asStr.toList ++ back ∧
      total Char.utf8Size front = mat.start.val)
    (linked : linkOfMatch parse mat = some facet) :
    facet.index.byteStart = mat.start ∧
      facet.index.byteEnd.val ≤ mat.start.val + Text.len mat.asStr ∧
      IsLink text.text mat.asStr facet (trimTrailingUrlPunctuation mat.asStr) := by
  obtain ⟨front, back, text_eq, start_eq⟩ := placed
  obtain ⟨nonempty, rfl⟩ := linkOfMatch_eq_some linked
  have longest := trimmed_longest nonempty
  generalize trimTrailingUrlPunctuation mat.asStr = uri at nonempty longest ⊢
  obtain ⟨rest, raw_eq⟩ := longest.isPrefix
  rw [← raw_eq, ← List.append_assoc, List.append_assoc _ rest] at text_eq
  have stop_eq := val_linkEnd text_eq start_eq
  have text_size := len_eq_total text.text
  rw [text_eq, total_append, total_append, start_eq, ← len_eq_total] at text_size
  have raw_size := len_eq_total mat.asStr
  rw [← raw_eq, total_append, ← len_eq_total] at raw_size
  have pos := len_pos nonempty
  refine ⟨rfl, ?_, rfl, ?_, ?_, ?_, ?_, ?_, longest⟩
  · change (mat.start + _ : U64).val ≤ _
    omega
  · change mat.start.val < (mat.start + _ : U64).val
    omega
  · change (mat.start + _ : U64).val ≤ _
    omega
  · rw [IsCharBoundary, isBoundary_iff utf8Size_pos, text_eq, List.append_assoc]
    exact ⟨front, List.prefix_append front _, start_eq⟩
  · change IsCharBoundary _ (mat.start + _ : U64).val
    rw [IsCharBoundary, isBoundary_iff utf8Size_pos, text_eq, stop_eq]
    exact ⟨front ++ uri.toList, List.prefix_append _ _, by
      rw [total_append, start_eq, ← len_eq_total]⟩
  · change sliceBytes _ mat.start.val (mat.start + _ : U64).val = _
    rw [stop_eq, sliceBytes, text_eq, ← start_eq, len_eq_total, slice_total_append utf8Size_pos,
      Option.map_some, String.ofList_toList]

/-- The links of a text, one after the other. -/
theorem extractLinkFacets_isLink {urlRegex : Option (String → List Match)}
    (finds : ∀ findIter ∈ urlRegex, FindsInOrder findIter) (parse : String → Option Url)
    (text : Str) :
    (∀ facet ∈ extractLinkFacets urlRegex parse text,
      ∃ findIter ∈ urlRegex, ∃ mat ∈ findIter text.text, ∃ uri,
        facet.index.byteStart = mat.start ∧ IsLink text.text mat.asStr facet uri) ∧
    (extractLinkFacets urlRegex parse text).Pairwise fun first second =>
      first.index.byteEnd ≤ second.index.byteStart := by
  cases urlRegex with
  | none => exact ⟨fun facet mem => (nomatch mem), List.Pairwise.nil⟩
  | some findIter =>
      have lawful := finds findIter rfl
      constructor
      · intro facet mem
        obtain ⟨mat, found, linked⟩ := List.mem_filterMap.mp mem
        obtain ⟨start, -, link⟩ := isLink_of_match (lawful.at_start text.text mat found) linked
        exact ⟨findIter, rfl, mat, found, _, start, link⟩
      · rw [extractLinkFacets, List.pairwise_filterMap]
        refine (lawful.in_order text.text).imp_of_mem ?_
        intro first second firstFound secondFound before left leftLinked right rightLinked
        obtain ⟨-, stop, -⟩ :=
          isLink_of_match (lawful.at_start text.text first firstFound) leftLinked
        obtain ⟨start, -, -⟩ :=
          isLink_of_match (lawful.at_start text.text second secondFound) rightLinked
        rw [start]
        exact stop.trans before

/-- The matches of the regular expression in one text, which has one. -/
def findIterExample (text : String) : List Match :=
  if text = "é (http://a.b/c)." then [{ start := 4, asStr := "http://a.b/c)." }] else []

theorem findsInOrder_example : FindsInOrder findIterExample where
  at_start text mat found := by
    rw [findIterExample] at found
    split at found
    · next same =>
        obtain rfl := List.mem_singleton.mp found
        exact ⟨['é', ' ', '('], [], by rw [same]; decide, by decide⟩
    · exact nomatch found
  in_order text := by
    rw [findIterExample]
    split
    · exact List.pairwise_singleton _ _
    · exact List.Pairwise.nil

theorem extractLinkFacets_isLink_example :
    let text : Str := ⟨"é (http://a.b/c).", by decide +kernel⟩
    let facets := extractLinkFacets (some findIterExample) (fun _ => some ⟨"http", true⟩) text
    facets = [.link 4 16 "http://a.b/c"] ∧
    (∀ facet ∈ facets, ∃ findIter ∈ some findIterExample, ∃ mat ∈ findIter text.text, ∃ uri,
        facet.index.byteStart = mat.start ∧ IsLink text.text mat.asStr facet uri) ∧
    facets.Pairwise fun first second => first.index.byteEnd ≤ second.index.byteStart := by
  refine ⟨by decide +kernel, extractLinkFacets_isLink ?_ _ _⟩
  rintro findIter ⟨⟩
  exact findsInOrder_example

end Skybase.Lexicon
