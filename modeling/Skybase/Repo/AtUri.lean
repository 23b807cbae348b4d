import Skybase.Index.Uri

/-!
# Readers of record URIs

The repository formats record URIs in one place and reads them in four.  All the
readers cut the URI at the same separator, so each is told by the segments that
it sees.  `parse_at_uri` takes a URI of three nonempty segments, which is the
formatted one.  The other three leave the segments after the third unread and
the collection unchecked.
-/

namespace Skybase.Repo

open Skybase.Index

/-- `format_at_uri`. -/
def formatAtUri (did collection rkey : String) : String :=
  s!"at://{did}/{collection}/{rkey}"

/-- `split_at_uri`. -/
def splitAtUri (uri : String) : Option (String × String × String) :=
  match Text.stripPrefix uri "at://" with
  | none => none
  | some stripped =>
      match Text.split stripped '/' with
      | authority :: collection :: rkey :: _ => some (authority, collection, rkey)
      | _ => none

/-- `extract_did_for_collection`. -/
def extractDidForCollection (uri expectedCollection : String) : Option String :=
  match splitAtUri uri with
  | none => none
  | some (did, collection, rkey) =>
      if !Text.startsWith did "did:" || collection != expectedCollection || rkey.isEmpty then none
      else some did

/-- `parse_at_post_uri`. -/
def parseAtPostUri (uri : String) : Option (String × String) :=
  match splitAtUri uri with
  | none => none
  | some (author, _, rkey) =>
      if author.isEmpty || rkey.isEmpty then none else some (author, rkey)

theorem formatAtUri_eq_atUri (did collection rkey : String) :
    formatAtUri did collection rkey = atUri did collection rkey :=
  rfl

/-! ## What each reader sees -/

theorem splitAtUri_eq_some_iff {uri authority collection rkey : String} :
    splitAtUri uri = some (authority, collection, rkey) ↔
      ∃ rest, segments uri = some (authority :: collection :: rkey :: rest) := by
  unfold splitAtUri segments
  cases Text.stripPrefix uri "at://" with
  | none => simp
  | some stripped =>
      dsimp only [Option.map_some]
      generalize Text.split stripped '/' = parts
      rcases parts with _ | ⟨first, _ | ⟨second, _ | ⟨third, rest⟩⟩⟩ <;> simp

theorem parseAtPostUri_eq_some_iff {uri author rkey : String} :
    parseAtPostUri uri = some (author, rkey) ↔
      ∃ collection, splitAtUri uri = some (author, collection, rkey) ∧ author ≠ "" ∧ rkey ≠ "" := by
  unfold parseAtPostUri
  rcases splitAtUri uri with _ | ⟨first, second, third⟩
  · simp
  · simp only [Option.ite_none_left_eq_some, Bool.or_eq_true, String.isEmpty_iff, Option.some.injEq,
      Prod.mk.injEq, not_or]
    constructor
    · rintro ⟨⟨authorSome, rkeySome⟩, rfl, rfl⟩
      exact ⟨second, ⟨rfl, rfl, rfl⟩, authorSome, rkeySome⟩
    · rintro ⟨collection, ⟨rfl, rfl, rfl⟩, authorSome, rkeySome⟩
      exact ⟨⟨authorSome, rkeySome⟩, rfl, rfl⟩

theorem extractDidForCollection_eq_some_iff {uri collection did : String} :
    extractDidForCollection uri collection = some did ↔
      ∃ rkey, splitAtUri uri = some (did, collection, rkey) ∧
        Text.startsWith did "did:" = true ∧ rkey ≠ "" := by
  unfold extractDidForCollection
  rcases splitAtUri uri with _ | ⟨first, second, third⟩
  · simp
  · simp only [Option.ite_none_left_eq_some, Bool.or_eq_true, Bool.not_eq_true',
      bne_iff_ne, String.isEmpty_iff, Option.some.injEq, Prod.mk.injEq, not_or, not_not,
      Bool.not_eq_false]
    constructor
    · rintro ⟨⟨⟨starts, same⟩, rkeySome⟩, rfl⟩
      exact ⟨third, ⟨rfl, same, rfl⟩, starts, rkeySome⟩
    · rintro ⟨rkey, ⟨rfl, same, rfl⟩, starts, rkeySome⟩
      exact ⟨⟨⟨starts, same⟩, rkeySome⟩, rfl⟩

/-- What begins like a DID is not empty. -/
theorem ne_empty_of_startsWith_did {did : String} (starts : Text.startsWith did "did:" = true) :
    did ≠ "" := by
  rintro rfl
  exact absurd starts (by decide)

/-! ## The canonical form -/

/-- A URI is parsed exactly if it is the formatted one of parts that a URI can
contain. -/
theorem parseAtUri_iff_formatAtUri {uri did collection rkey : String} :
    parseAtUri uri = some (did, collection, rkey) ↔
      uri = formatAtUri did collection rkey ∧
        IsUriPart did ∧ IsUriPart collection ∧ IsUriPart rkey := by
  rw [formatAtUri_eq_atUri, parseAtUri_eq_some_iff, segments_eq_three_iff, isUriPart_iff,
    isUriPart_iff, isUriPart_iff]
  constructor
  · rintro ⟨⟨formatted, didCut, collectionCut, rkeyCut⟩, didSome, collectionSome, rkeySome⟩
    exact ⟨formatted, ⟨didSome, didCut⟩, ⟨collectionSome, collectionCut⟩, ⟨rkeySome, rkeyCut⟩⟩
  · rintro ⟨formatted, ⟨didSome, didCut⟩, ⟨collectionSome, collectionCut⟩, rkeySome, rkeyCut⟩
    exact ⟨⟨formatted, didCut, collectionCut, rkeyCut⟩, didSome, collectionSome, rkeySome⟩

/-- Parsing and formatting are inverse between the accepted URIs and the triples
of parts that a URI can contain. -/
theorem parseAtUri_exact :
    (∀ uri did collection rkey : String, parseAtUri uri = some (did, collection, rkey) ↔
      uri = formatAtUri did collection rkey ∧
        (did ≠ "" ∧ '/' ∉ did.toList) ∧ (collection ≠ "" ∧ '/' ∉ collection.toList) ∧
        (rkey ≠ "" ∧ '/' ∉ rkey.toList)) ∧
    (∀ did collection rkey : String, did ≠ "" ∧ '/' ∉ did.toList →
      collection ≠ "" ∧ '/' ∉ collection.toList → rkey ≠ "" ∧ '/' ∉ rkey.toList →
      parseAtUri (formatAtUri did collection rkey) = some (did, collection, rkey)) ∧
    (∀ uri did collection rkey : String, parseAtUri uri = some (did, collection, rkey) →
      formatAtUri did collection rkey = uri) ∧
    ∀ (first second : String) (parts : String × String × String),
      parseAtUri first = some parts → parseAtUri second = some parts → first = second := by
  simp only [← isUriPart_iff]
  refine ⟨fun uri did collection rkey => parseAtUri_iff_formatAtUri, ?_, ?_, ?_⟩
  · intro did collection rkey didPart collectionPart rkeyPart
    exact parseAtUri_iff_formatAtUri.mpr ⟨rfl, didPart, collectionPart, rkeyPart⟩
  · intro uri did collection rkey parsed
    exact (parseAtUri_iff_formatAtUri.mp parsed).1.symm
  · rintro first second ⟨did, collection, rkey⟩ firstParsed secondParsed
    rw [(parseAtUri_iff_formatAtUri.mp firstParsed).1,
      (parseAtUri_iff_formatAtUri.mp secondParsed).1]

theorem parseAtUri_exact_post :
    parseAtUri (formatAtUri "did:plc:alice" "app.bsky.feed.post" "3k2") =
        some ("did:plc:alice", "app.bsky.feed.post", "3k2") ∧
      formatAtUri "did:plc:alice" "app.bsky.feed.post" "3k2" =
        "at://did:plc:alice/app.bsky.feed.post/3k2" :=
  have parsed := parseAtUri_exact.2.1 "did:plc:alice" "app.bsky.feed.post" "3k2"
    (by decide) (by decide) (by decide)
  ⟨parsed, parseAtUri_exact.2.2.1 _ _ _ _ parsed⟩

/-! ## Agreement of the readers -/

/-- The readers of the repository see in the URI what `parse_at_uri` sees. -/
structure ReadersAgree (uri : String) : Prop where
  split : ∀ authority collection rkey, splitAtUri uri = some (authority, collection, rkey) →
    formatAtUri authority collection rkey = uri
  post : ∀ author rkey, parseAtPostUri uri = some (author, rkey) →
    ∃ collection, parseAtUri uri = some (author, collection, rkey)
  extract : ∀ collection did, extractDidForCollection uri collection = some did ↔
    Text.startsWith did "did:" = true ∧ ∃ rkey, parseAtUri uri = some (did, collection, rkey)

/-- The URI has no segment after the third, and no empty collection between an
authority and a record key. -/
def PlainSegments (uri : String) : Prop :=
  ∀ authority collection rkey rest,
    segments uri = some (authority :: collection :: rkey :: rest) →
      rest = [] ∧ (authority ≠ "" → rkey ≠ "" → collection ≠ "")

theorem ReadersAgree.plainSegments {uri : String} (agree : ReadersAgree uri) :
    PlainSegments uri := by
  intro authority collection rkey rest cut
  have splits := splitAtUri_eq_some_iff.mpr ⟨rest, cut⟩
  constructor
  · have formatted := agree.split _ _ _ splits
    have unsplit : ∀ part ∈ authority :: collection :: rkey :: rest, '/' ∉ part.toList :=
      fun _ mem => not_mem_of_mem_segments cut mem
    have three := segments_atUri (unsplit authority (by simp)) (unsplit collection (by simp))
      (unsplit rkey (by simp))
    rw [← formatAtUri_eq_atUri, formatted, cut, Option.some.injEq, List.cons.injEq, List.cons.injEq,
      List.cons.injEq] at three
    exact three.2.2.2
  · intro authoritySome rkeySome
    have post := parseAtPostUri_eq_some_iff.mpr ⟨collection, splits, authoritySome, rkeySome⟩
    rcases agree.post _ _ post with ⟨other, parsed⟩
    rcases parseAtUri_eq_some_iff.mp parsed with ⟨otherCut, _, otherSome, _⟩
    rw [cut, Option.some.injEq, List.cons.injEq, List.cons.injEq] at otherCut
    rw [otherCut.2.1]
    exact otherSome

theorem PlainSegments.readersAgree {uri : String} (plain : PlainSegments uri) :
    ReadersAgree uri := by
  -- What is split is parsed, as long as no part is empty.
  have parsed : ∀ {authority collection rkey : String},
      splitAtUri uri = some (authority, collection, rkey) → authority ≠ "" → rkey ≠ "" →
        parseAtUri uri = some (authority, collection, rkey) := by
    intro authority collection rkey splits authoritySome rkeySome
    rcases splitAtUri_eq_some_iff.mp splits with ⟨rest, cut⟩
    rcases plain _ _ _ _ cut with ⟨rfl, collectionSome⟩
    exact parseAtUri_eq_some_iff.mpr
      ⟨cut, authoritySome, collectionSome authoritySome rkeySome, rkeySome⟩
  constructor
  · intro authority collection rkey splits
    rcases splitAtUri_eq_some_iff.mp splits with ⟨rest, cut⟩
    rcases plain _ _ _ _ cut with ⟨rfl, _⟩
    exact (eq_atUri_of_segments cut).symm
  · intro author rkey post
    rcases parseAtPostUri_eq_some_iff.mp post with ⟨collection, splits, authorSome, rkeySome⟩
    exact ⟨collection, parsed splits authorSome rkeySome⟩
  · intro collection did
    rw [extractDidForCollection_eq_some_iff]
    constructor
    · rintro ⟨rkey, splits, starts, rkeySome⟩
      exact ⟨starts, rkey, parsed splits (ne_empty_of_startsWith_did starts) rkeySome⟩
    · rintro ⟨starts, rkey, accepted⟩
      rcases parseAtUri_eq_some_iff.mp accepted with ⟨cut, _, _, rkeySome⟩
      exact ⟨rkey, splitAtUri_eq_some_iff.mpr ⟨[], cut⟩, starts, rkeySome⟩

/-- The readers agree on a URI exactly if its segments are plain. -/
theorem readersAgree_iff_plainSegments (uri : String) :
    ReadersAgree uri ↔ PlainSegments uri :=
  ⟨ReadersAgree.plainSegments, PlainSegments.readersAgree⟩

/-- A URI of four segments is split into the first three. -/
theorem not_readersAgree_extra :
    ¬ ReadersAgree "at://did:plc:a/app.bsky.feed.post/3k/extra" := by
  intro agree
  have formatted := agree.split "did:plc:a" "app.bsky.feed.post" "3k" (by decide +kernel)
  exact absurd formatted (by decide +kernel)

end Skybase.Repo
