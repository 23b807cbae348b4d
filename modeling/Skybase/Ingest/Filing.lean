import Skybase.Index.Query
import Skybase.Ingest.Identity

/-!
# Finding ingested records by their keys

The validators of the parser accept an identifier if its trimmed copy is valid,
and the commit keeps the identifier as it came; a query trims the keys it is
given.  A record is therefore found under its own keys exactly if the keys it
is stored under are trimmed already, provided that all records under these keys
can be read.
-/

namespace Skybase.Ingest

open Skybase.Index
open Skybase.Json

/-- The upsert of the commit takes effect: the call succeeds, the timestamp is
in range and the table holds no newer row at the URI. -/
def TakesEffect (answer : SqliteAnswer) (records : Records) (commit : JetstreamCommit) : Prop :=
  answer = none ∧ FitsI64 commit.timeUs ∧
    ∀ stored, records.lookup commit.uri = some stored → stored.indexedAt ≤ commit.timeUs.toInt

/-- The row that a commit is stored as. -/
def JetstreamCommit.row (serde : SerdeJson) (commit : JetstreamCommit) (recordJson : Value) :
    Row where
  cid := commit.cid.getD ""
  did := commit.did
  collection := commit.collection
  rkey := commit.rkey
  recordJson := serde.text recordJson
  indexedAt := commit.timeUs.toInt
  isDeleted := false

/-- A create or update with a payload writes its row if it takes effect and
leaves the table alone otherwise. -/
theorem records_sync_cases (serde : SerdeJson) (answer : SqliteAnswer) (store : RecordStore)
    {commit : JetstreamCommit} (upserts : commit.operation ≠ .delete) {recordJson : Value}
    (payload : commit.record = some recordJson) :
    (TakesEffect answer store.records commit ∧
        (syncCommitToStore serde answer store commit).2.records =
          store.records.insert commit.uri (commit.row serde recordJson)) ∨
      (¬ TakesEffect answer store.records commit ∧
        (syncCommitToStore serde answer store commit).2.records = store.records) := by
  obtain ⟨input, asked, row_eq, uri_eq, time_eq⟩ : ∃ input,
      commit.toOperation = some (.upsert input) ∧
        input.row serde = commit.row serde recordJson ∧ input.uri = commit.uri ∧
          input.indexedAt = commit.timeUs := by
    rw [toOperation_of_upsert upserts, JetstreamCommit.toRecordInput, if_neg upserts, payload]
    exact ⟨_, rfl, rfl, rfl, rfl⟩
  have accepts : Register.accepts (cellAt input.uri store.records)
      ((StoreOperation.upsert input).registerOp serde) = true ↔
        ∀ stored, store.records.lookup commit.uri = some stored →
          stored.indexedAt ≤ commit.timeUs.toInt := by
    rw [uri_eq, cellAt, StoreOperation.registerOp, time_eq]
    cases store.records.lookup commit.uri with
    | none => simp [Register.accepts]
    | some stored => simp [Register.accepts, Row.cell]
  rw [store_syncCommitToStore, asked, Option.elim_some, RecordStore.execute_eq]
  cases answer with
  | some err =>
      rcases (StoreOperation.upsert input).statementWith_some serde err store.records with
        ⟨error, failed⟩
      rw [failed]
      exact Or.inr ⟨fun effect => Option.some_ne_none _ effect.1, rfl⟩
  | none =>
      by_cases fits : FitsI64 commit.timeUs
      · have statement_eq := StoreOperation.statement_upsert_of_fits serde store.records
          (show FitsI64 input.indexedAt by rw [time_eq]; exact fits)
        change (StoreOperation.upsert input).statementWith serde none store.records = _
          at statement_eq
        rw [statement_eq]
        by_cases newest : ∀ stored, store.records.lookup commit.uri = some stored →
            stored.indexedAt ≤ commit.timeUs.toInt
        · rw [if_pos (accepts.mpr newest), row_eq, uri_eq]
          exact Or.inl ⟨⟨rfl, fits, newest⟩, rfl⟩
        · rw [if_neg (mt accepts.mp newest)]
          exact Or.inr ⟨fun effect => newest effect.2.2, rfl⟩
      · have failed := (StoreOperation.upsert input).statement_of_not_fits serde store.records
          (show ¬ FitsI64 input.indexedAt by rw [time_eq]; exact fits)
        change (StoreOperation.upsert input).statementWith serde none store.records = _ at failed
        rw [failed]
        exact Or.inr ⟨fun effect => fits effect.2.1, rfl⟩

/-- The row of a commit can be read if its payload can. -/
theorem readable_row_iff (serde : SerdeJson) (commit : JetstreamCommit) (recordJson : Value) :
    (commit.row serde recordJson).Readable serde commit.uri ↔
      (serde.fromStr (serde.text recordJson)).isOk = true := by
  unfold Row.Readable RecordStore.mapRecordRow JetstreamCommit.row
  dsimp only
  rw [u64TryFrom_toInt]
  cases serde.fromStr (serde.text recordJson) with
  | error err => simp [Except.isOk, Except.toBool]
  | ok value => simp [Except.isOk, Except.toBool]

/-- The row of a commit is filed under the keys of the commit if these are
trimmed. -/
theorem filed_row_iff (serde : SerdeJson) (commit : JetstreamCommit) (recordJson : Value) :
    (commit.row serde recordJson).FiledUnder commit.collection commit.did ↔
      Text.trim commit.collection = commit.collection ∧ Text.trim commit.did = commit.did := by
  constructor
  · intro filed
    exact ⟨filed.collection.symm, filed.did.symm⟩
  · rintro ⟨collection_eq, did_eq⟩
    exact ⟨rfl, collection_eq.symm, did_eq.symm⟩

/-- The condition for a commit to be found, on the commit and the table before
it is applied.  If it takes effect, its collection and DID are trimmed and its
payload reads back; otherwise the row that keeps its URI has the trimmed keys.
All other live rows under the trimmed keys can be read. -/
structure Findable (serde : SerdeJson) (answer : SqliteAnswer) (records : Records)
    (commit : JetstreamCommit) : Prop where
  trimmed : TakesEffect answer records commit →
    Text.trim commit.collection = commit.collection ∧ Text.trim commit.did = commit.did
  payload : TakesEffect answer records commit → ∀ recordJson, commit.record = some recordJson →
    (serde.fromStr (serde.text recordJson)).isOk = true
  kept : ¬ TakesEffect answer records commit → ∀ stored, records.lookup commit.uri = some stored →
    stored.collection = Text.trim commit.collection ∧ stored.did = Text.trim commit.did
  others : ∀ uri row, records.lookup uri = some row →
    (uri = commit.uri → ¬ TakesEffect answer records commit) →
    row.FiledUnder commit.collection commit.did → row.Readable serde uri

/-- Ingested records are found under their own keys exactly if they are
findable. -/
theorem execute_of_synced_iff {decode : String → Except String RawJetstreamMessage}
    {serde : SerdeJson} {sqlite : Sqlite} (delivers : Delivers sqlite) {commit : JetstreamCommit}
    (parsed : Parsed decode commit) (upserts : commit.operation ≠ .delete) {recordJson : Value}
    (payload : commit.record = some recordJson) {answer : SqliteAnswer} {store : RecordStore}
    {row : Row}
    (found : (syncCommitToStore serde answer store commit).2.records.lookup commit.uri = some row)
    (live : row.isDeleted = false) :
    (∃ rows, ((QueryBuilder.new commit.collection).withDid commit.did).execute serde sqlite
          (syncCommitToStore serde answer store commit).2 = .ok rows ∧
        ∃ result ∈ rows, result.uri = commit.uri) ↔
      Findable serde answer store.records commit := by
  have notBlank : (Text.trim commit.collection).isEmpty = false ∧
      (Text.trim commit.did).isEmpty = false := by
    rcases parsed with ⟨nowUs, text, parsed⟩
    rcases exists_carries_of_parsed parsed with ⟨msg, did, raw, operation, _, carries, rfl⟩
    exact ⟨notBlank_of_isValidCollection carries.validCollection, carries.notBlank⟩
  rw [execute_keys_iff delivers notBlank.1 notBlank.2]
  rcases records_sync_cases serde answer store upserts payload with
    ⟨effect, records_eq⟩ | ⟨noEffect, records_eq⟩
  · rw [records_eq]
    have own := filed_row_iff serde commit recordJson
    have atUri := Finmap.lookup_insert (b := commit.row serde recordJson) (a := commit.uri)
      store.records
    constructor
    · rintro ⟨⟨stored, stored_eq, filed⟩, readable⟩
      rw [atUri] at stored_eq
      cases stored_eq
      constructor
      · exact fun _ => own.mp filed
      · intro _ other other_eq
        rw [payload] at other_eq
        cases other_eq
        exact (readable_row_iff serde commit recordJson).mp (readable _ _ atUri filed)
      · exact fun noEffect => absurd effect noEffect
      · intro uri stored lookup_eq elsewhere storedFiled
        have different : uri ≠ commit.uri := fun same => elsewhere same effect
        apply readable uri stored _ storedFiled
        rw [Finmap.lookup_insert_of_ne _ different]
        exact lookup_eq
    · intro findable
      have filed := own.mpr (findable.trimmed effect)
      refine ⟨⟨_, atUri, filed⟩, ?_⟩
      intro uri stored lookup_eq storedFiled
      by_cases same : uri = commit.uri
      · subst same
        rw [atUri] at lookup_eq
        cases lookup_eq
        exact (readable_row_iff serde commit recordJson).mpr
          (findable.payload effect recordJson payload)
      · rw [Finmap.lookup_insert_of_ne _ same] at lookup_eq
        exact findable.others uri stored lookup_eq (fun absurd => (same absurd).elim) storedFiled
  · rw [records_eq] at found ⊢
    constructor
    · rintro ⟨⟨stored, stored_eq, filed⟩, readable⟩
      constructor
      · exact fun effect => absurd effect noEffect
      · exact fun effect => absurd effect noEffect
      · intro _ other other_eq
        rw [stored_eq] at other_eq
        cases other_eq
        exact ⟨filed.collection, filed.did⟩
      · exact fun uri stored lookup_eq _ storedFiled => readable uri stored lookup_eq storedFiled
    · intro findable
      have keys := findable.kept noEffect row found
      refine ⟨⟨row, found, live, keys.1, keys.2⟩, ?_⟩
      exact fun uri stored lookup_eq storedFiled =>
        findable.others uri stored lookup_eq (fun _ => noEffect) storedFiled

/-! ## Two posts -/

/-- The text of a frame with a post in the given collection. -/
def postFrame (collection : String) : String :=
  "\x7b" ++ ("\"did\":\"did:plc:alice\",\"time_us\":10,\"kind\":\"commit\",\"commit\":" ++
    "\x7b\"operation\":\"create\",\"collection\":\"" ++ collection ++
    "\",\"rkey\":\"r1\",\"record\":true\x7d") ++ "\x7d"

/-- The commit part of the frame. -/
def postCommit (collection : String) : RawJetstreamCommit :=
  ⟨"create", collection, "r1", none, some (.bool true)⟩

/-- The envelope of the frame. -/
def postMessage (collection : String) : RawJetstreamMessage :=
  ⟨some "did:plc:alice", some 10, some "commit", some (postCommit collection)⟩

/-- The deserialization of the frame of one collection. -/
def decodePost (collection text : String) : Except String RawJetstreamMessage :=
  if text = postFrame collection then .ok (postMessage collection) else .error "expected value"

/-- The commit of the frame. -/
def parsedPost (collection : String) : JetstreamCommit :=
  (postMessage collection).commitWith "did:plc:alice" (postCommit collection) .create

/-- The parser returns the commit of the frame of a valid collection. -/
theorem parseJetstreamFrame_postFrame {collection : String} {nowUs : U64}
    (valid : isValidCollection collection = true) (timely : isValidTimeUs nowUs 10 = true) :
    parseJetstreamFrame (decodePost collection) nowUs (postFrame collection) =
      some (.commit (parsedPost collection)) := by
  have trimmed : Text.trim (postFrame collection) = postFrame collection := Text.trim_braced _
  have carries : (postMessage collection).Carries "did:plc:alice" (postCommit collection) .create :=
    { kind := rfl
      hasDid := rfl
      notBlank := by decide
      hasCommit := rfl
      validDid := by decide
      validCollection := valid
      validRkey := (by decide : (Repo.validateRkey "r1").isOk = true)
      known := (by decide : CommitOperation.fromStrLoose "create" = some .create) }
  refine parseJetstreamFrame_of_carries ?_ ?_ timely carries
  · rw [trimmed]
    exact Text.isEmpty_braced _
  · rw [trimmed]
    exact if_pos rfl

/-- The frame of a valid collection parses to its commit. -/
theorem parsed_parsedPost {collection : String} (valid : isValidCollection collection = true) :
    Parsed (decodePost collection) (parsedPost collection) :=
  ⟨1700000000000000, postFrame collection, parseJetstreamFrame_postFrame valid rfl⟩

/-- On an empty store every post takes effect. -/
theorem takesEffect_parsedPost (collection : String) :
    TakesEffect none RecordStore.empty.records (parsedPost collection) := by
  refine ⟨rfl, (by decide : FitsI64 10), ?_⟩
  intro stored absurd
  rw [RecordStore.empty, Finmap.lookup_empty] at absurd
  cases absurd

theorem lookup_parsedPost (collection : String) :
    (syncCommitToStore .scalars none RecordStore.empty (parsedPost collection)).2.records.lookup
        (parsedPost collection).uri =
      some ((parsedPost collection).row .scalars (.bool true)) := by
  have upserts : (parsedPost collection).operation ≠ .delete := by
    intro absurd
    cases absurd
  rcases records_sync_cases .scalars none RecordStore.empty upserts
      (show (parsedPost collection).record = some (.bool true) from rfl) with
    ⟨_, records_eq⟩ | ⟨noEffect, _⟩
  · rw [records_eq, Finmap.lookup_insert]
  · exact absurd (takesEffect_parsedPost collection) noEffect

/-- A post under trimmed keys is found. -/
theorem execute_of_synced_alicePost :
    let commit := parsedPost "app.bsky.feed.post"
    ∃ rows, ((QueryBuilder.new commit.collection).withDid commit.did).execute .scalars scan
        (syncCommitToStore .scalars none RecordStore.empty commit).2 = .ok rows ∧
      ∃ result ∈ rows, result.uri = commit.uri := by
  intro commit
  have parsed : Parsed (decodePost "app.bsky.feed.post") commit := parsed_parsedPost (by decide)
  have found := lookup_parsedPost "app.bsky.feed.post"
  apply (execute_of_synced_iff scan_delivers parsed (by decide) rfl found rfl).mpr
  have effect := takesEffect_parsedPost "app.bsky.feed.post"
  constructor
  · intro _
    decide
  · intro _ recordJson payload
    cases payload
    rfl
  · exact fun noEffect => absurd effect noEffect
  · intro uri row absurd
    rw [RecordStore.empty, Finmap.lookup_empty] at absurd
    cases absurd

/-- A post whose collection ends in a space is parsed, stored and live, and its
own query does not return it. -/
theorem execute_misses_paddedPost :
    let commit := parsedPost "app.bsky.feed.post "
    Parsed (decodePost "app.bsky.feed.post ") commit ∧ commit.operation = .create ∧
      commit.record = some (.bool true) ∧
      (∃ row, (syncCommitToStore .scalars none RecordStore.empty commit).2.records.lookup
          commit.uri = some row ∧ row.isDeleted = false) ∧
      ¬ ∃ rows, ((QueryBuilder.new commit.collection).withDid commit.did).execute .scalars scan
          (syncCommitToStore .scalars none RecordStore.empty commit).2 = .ok rows ∧
        ∃ result ∈ rows, result.uri = commit.uri := by
  intro commit
  have found := lookup_parsedPost "app.bsky.feed.post "
  refine ⟨parsed_parsedPost (by decide), rfl, rfl, ⟨_, found, rfl⟩, ?_⟩
  rw [execute_keys_iff scan_delivers (by decide) (by decide)]
  rintro ⟨⟨row, row_eq, filed⟩, _⟩
  rw [found] at row_eq
  cases row_eq
  exact absurd filed.collection (by decide)

end Skybase.Ingest
