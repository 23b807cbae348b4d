import Skybase.Index.Calls
import Skybase.Text

/-!
# Record URIs

A canonical URI determines the parts it was formatted from, as long as these
are nonempty and free of the separator.  Where every upsert names its row by
the URI of its own parts, so does every row of the table.
-/

namespace Skybase.Index

open Skybase.Json

/-- `parse_at_uri`. -/
def parseAtUri (uri : String) : Option (String × String × String) :=
  match Text.stripPrefix uri "at://" with
  | none => none
  | some stripped =>
      match Text.split stripped '/' with
      | did :: collection :: rkey :: rest =>
          if !rest.isEmpty || did.isEmpty || collection.isEmpty || rkey.isEmpty then none
          else some (did, collection, rkey)
      | _ => none

/-- A string that a URI can contain between separators. -/
structure IsUriPart (part : String) : Prop where
  nonempty : part.isEmpty = false
  unsplit : '/' ∉ part.toList

theorem isUriPart_iff {part : String} : IsUriPart part ↔ part ≠ "" ∧ '/' ∉ part.toList := by
  constructor
  · intro isPart
    exact ⟨by simpa using isPart.nonempty, isPart.unsplit⟩
  · rintro ⟨nonempty, unsplit⟩
    exact ⟨by simpa using nonempty, unsplit⟩

theorem IsUriPart.ne_empty {part : String} (isPart : IsUriPart part) : part ≠ "" :=
  (isUriPart_iff.mp isPart).1

/-! ## Segments -/

/-- The segments of an AT-URI. -/
def segments (uri : String) : Option (List String) :=
  (Text.stripPrefix uri "at://").map fun stripped => Text.split stripped '/'

theorem segments_atUri {did collection rkey : String} (didUnsplit : '/' ∉ did.toList)
    (collectionUnsplit : '/' ∉ collection.toList) (rkeyUnsplit : '/' ∉ rkey.toList) :
    segments (atUri did collection rkey) = some [did, collection, rkey] := by
  have formatted : atUri did collection rkey =
      "at://" ++ (did ++ String.singleton '/' ++
        (collection ++ String.singleton '/' ++ rkey)) := by
    simp only [atUri, toString, String.append_assoc]
    rfl
  rw [segments, formatted, Text.stripPrefix_append, Option.map_some,
    Text.split_append didUnsplit, Text.split_append collectionUnsplit,
    Text.split_of_not_mem rkeyUnsplit]

/-- A URI of three segments is the formatted one. -/
theorem eq_atUri_of_segments {uri did collection rkey : String}
    (cut : segments uri = some [did, collection, rkey]) :
    uri = atUri did collection rkey := by
  rcases Option.map_eq_some_iff.mp cut with ⟨stripped, stripped_eq, parts⟩
  have whole := Text.toList_eq_of_split parts
  rw [Text.eq_append_of_stripPrefix stripped_eq, ← String.toList_inj]
  simp only [atUri, toString, String.toList_append, whole, List.map_cons, List.map_nil,
    List.intercalate, List.intersperse_cons_cons, List.intersperse_singleton,
    List.flatten_cons, List.flatten_nil, List.append_assoc, List.append_nil]
  rfl

theorem not_mem_of_mem_segments {uri part : String} {parts : List String}
    (cut : segments uri = some parts) (mem : part ∈ parts) : '/' ∉ part.toList := by
  rcases Option.map_eq_some_iff.mp cut with ⟨stripped, _, rfl⟩
  exact Text.not_mem_of_mem_split mem

/-- Three segments are those of the formatted URI, and have no separator. -/
theorem segments_eq_three_iff {uri did collection rkey : String} :
    segments uri = some [did, collection, rkey] ↔
      uri = atUri did collection rkey ∧
        '/' ∉ did.toList ∧ '/' ∉ collection.toList ∧ '/' ∉ rkey.toList := by
  constructor
  · intro cut
    have unsplit : ∀ part ∈ [did, collection, rkey], '/' ∉ part.toList :=
      fun _ mem => not_mem_of_mem_segments cut mem
    exact ⟨eq_atUri_of_segments cut, unsplit did (by simp), unsplit collection (by simp),
      unsplit rkey (by simp)⟩
  · rintro ⟨rfl, didUnsplit, collectionUnsplit, rkeyUnsplit⟩
    exact segments_atUri didUnsplit collectionUnsplit rkeyUnsplit

theorem parseAtUri_eq_some_iff {uri did collection rkey : String} :
    parseAtUri uri = some (did, collection, rkey) ↔
      segments uri = some [did, collection, rkey] ∧ did ≠ "" ∧ collection ≠ "" ∧ rkey ≠ "" := by
  unfold parseAtUri segments
  cases Text.stripPrefix uri "at://" with
  | none => simp
  | some stripped =>
      dsimp only [Option.map_some]
      generalize Text.split stripped '/' = parts
      rcases parts with _ | ⟨first, _ | ⟨second, _ | ⟨third, rest⟩⟩⟩
      · simp
      · simp
      · simp
      · simp only [Option.some.injEq, List.cons.injEq, Option.ite_none_left_eq_some,
          Bool.or_eq_true, Bool.not_eq_true', List.isEmpty_eq_false_iff, String.isEmpty_iff,
          Prod.mk.injEq, not_or, not_not]
        constructor
        · rintro ⟨⟨⟨⟨last, didSome⟩, collectionSome⟩, rkeySome⟩, rfl, rfl, rfl⟩
          exact ⟨⟨rfl, rfl, rfl, last⟩, didSome, collectionSome, rkeySome⟩
        · rintro ⟨⟨rfl, rfl, rfl, last⟩, didSome, collectionSome, rkeySome⟩
          exact ⟨⟨⟨⟨last, didSome⟩, collectionSome⟩, rkeySome⟩, rfl, rfl, rfl⟩

/-- Parsing a formatted URI gives its parts. -/
theorem parseAtUri_atUri {did collection rkey : String} (didPart : IsUriPart did)
    (collectionPart : IsUriPart collection) (rkeyPart : IsUriPart rkey) :
    parseAtUri (atUri did collection rkey) = some (did, collection, rkey) := by
  have cut := segments_atUri didPart.unsplit collectionPart.unsplit rkeyPart.unsplit
  exact parseAtUri_eq_some_iff.mpr ⟨cut, didPart.ne_empty, collectionPart.ne_empty,
    rkeyPart.ne_empty⟩

/-- Nothing but the canonical URI of its parts parses to them. -/
theorem eq_atUri_of_parseAtUri {uri did collection rkey : String}
    (parsed : parseAtUri uri = some (did, collection, rkey)) : uri = atUri did collection rkey :=
  eq_atUri_of_segments (parseAtUri_eq_some_iff.mp parsed).1

/-! ## Rows under their own URI -/

/-- The row's URI parses to the row's own identifiers. -/
def Row.IdentifiedBy (row : Row) (uri : String) : Prop :=
  parseAtUri uri = some (row.did, row.collection, row.rkey)

/-- Every row is stored under the URI of its own identifiers. -/
def Records.Identified (records : Records) : Prop :=
  ∀ uri row, records.lookup uri = some row → row.IdentifiedBy uri

/-- The upsert's URI parses to its own identifiers. -/
def StoreOperation.Identified : StoreOperation → Prop
  | .upsert input => parseAtUri input.uri = some (input.did, input.collection, input.rkey)
  | .delete _ _ => True

/-- No two rows of a table of identified rows have the same identifiers. -/
theorem Records.Identified.uri_eq {records : Records} (identified : records.Identified)
    {first second : String} {firstRow secondRow : Row}
    (firstFound : records.lookup first = some firstRow)
    (secondFound : records.lookup second = some secondRow)
    (same : (firstRow.did, firstRow.collection, firstRow.rkey) =
      (secondRow.did, secondRow.collection, secondRow.rkey)) : first = second := by
  have firstParsed := identified first firstRow firstFound
  have secondParsed := identified second secondRow secondFound
  rw [Row.IdentifiedBy, same] at firstParsed
  rw [eq_atUri_of_parseAtUri firstParsed, eq_atUri_of_parseAtUri secondParsed]

theorem Records.identified_empty : Records.Identified ∅ := by
  intro uri row absurd
  rw [Finmap.lookup_empty] at absurd
  cases absurd

/-- A row that a versioned statement writes keeps the identifiers of the row
before it, or has those of the upsert. -/
theorem StoreOperation.identified_exec (serde : SerdeJson) {records : Records}
    (identified : records.Identified) {op : StoreOperation} (opIdentified : op.Identified) :
    (op.exec serde records).Identified := by
  rcases op.exec_cases serde records with ⟨_, same⟩ | ⟨_, row, inserted, written⟩
  · rw [same]
    exact identified
  · intro uri other found
    rw [inserted] at found
    by_cases about : uri = op.uri
    · subst about
      rw [Finmap.lookup_insert] at found
      cases found
      cases op with
      | upsert input =>
          have cell_eq : row.cell = (input.row serde).cell := Option.some.inj written
          rw [Row.cell_injective cell_eq]
          exact opIdentified
      | delete uri indexedAt =>
          cases before : records.lookup uri with
          | none =>
              rw [cellAt, StoreOperation.uri, before] at written
              cases written
          | some stored =>
              rw [cellAt, StoreOperation.uri, before] at written
              have cell_eq : row.cell = ⟨indexedAt.toInt, stored.cell.payload, false⟩ :=
                Option.some.inj written
              have payload_eq := congrArg Register.Cell.payload cell_eq
              have keys := identified uri stored before
              simp only [Row.cell, Content.mk.injEq] at payload_eq
              rcases payload_eq with ⟨_, did_eq, collection_eq, rkey_eq, _⟩
              rw [Row.IdentifiedBy, StoreOperation.uri, did_eq, collection_eq, rkey_eq]
              exact keys
    · rw [Finmap.lookup_insert_of_ne _ about] at found
      exact identified uri other found

/-- Runs of identified operations keep the rows identified. -/
theorem identified_runOperations (serde : SerdeJson) {records : Records}
    (identified : records.Identified) {ops : List StoreOperation}
    (opsIdentified : ∀ op ∈ ops, op.Identified) :
    (runOperations serde records ops).Identified := by
  induction ops generalizing records with
  | nil => exact identified
  | cons op ops ih =>
      rw [runOperations_cons]
      apply ih (op.identified_exec serde identified (opsIdentified op List.mem_cons_self))
      exact fun later mem => opsIdentified later (List.mem_cons_of_mem op mem)

end Skybase.Index
