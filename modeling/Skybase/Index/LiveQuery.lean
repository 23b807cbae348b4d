import Skybase.Feed.Selection
import Skybase.Index.Query
import Skybase.Index.Sequence

/-!
# Live queries

A client that runs a query for a collection, and perhaps an author, and then
wants to stay up to date subscribes to the bus and takes the notifications that
`matches_collection` and `matches_did` select.  What it holds after a call is
what the query returns then, as long as no upsert moves a live record of the
query to another collection or author: the notification of such an upsert does
not match, and the subscriber keeps the old record.
-/

namespace Skybase.Index

open Skybase.Feed
open Skybase.Json

/-- The keys of a query, as the query builder compares them: without white
space around them, and an author only if there is one to compare. -/
structure LiveQuery where
  collection : String
  did : Option String
  collectionTrimmed : Text.trim collection = collection
  collectionNonempty : collection.isEmpty = false
  didTrimmed : ∀ author ∈ did, Text.trim author = author ∧ author.isEmpty = false

namespace LiveQuery

/-- The query that a client runs. -/
def builder (query : LiveQuery) : QueryBuilder :=
  match query.did with
  | none => .new query.collection
  | some did => (QueryBuilder.new query.collection).withDid did

/-- The notifications that the subscriber takes. -/
def takes (query : LiveQuery) (notification : ChangeNotification) : Bool :=
  notification.matchesCollection query.collection && query.did.all notification.matchesDid

/-- Whether the keys of a record are those of the query. -/
def keeps (query : LiveQuery) (did collection : String) : Bool :=
  collection == query.collection && query.did.all fun author => did == author

/-- The call moves a live record of the query to keys outside of it. -/
def MovesOut (query : LiveQuery) (records : Records) : RecordCall → Prop
  | .client (.upsertRecord sqlite input) =>
      (ClientCall.upsertRecord sqlite input).Touches records ∧
        query.keeps input.did input.collection = false ∧
        ∃ stored, records.selectActive input.uri = some stored ∧
          query.keeps stored.did stored.collection = true
  | _ => False

end LiveQuery

/-! ## The metadata of deletions -/

theorem Records.softDelete_eq_some {records after : Records} {uri : String} {indexedAt : Int}
    {deletedMeta : DeletedMeta}
    (deleted : records.softDelete uri indexedAt = (some deletedMeta, after)) :
    (records.lookup uri).map Row.deletedMeta = some deletedMeta := by
  unfold Records.softDelete at deleted
  cases found : records.lookup uri with
  | none => simp [found] at deleted
  | some stored =>
      simp only [found] at deleted
      split at deleted
      · cases deleted
        rfl
      · cases deleted

theorem Records.softDeleteUnversioned_eq_some {records after : Records} {uri : String}
    {deletedMeta : DeletedMeta}
    (deleted : records.softDeleteUnversioned uri = (some deletedMeta, after)) :
    (records.lookup uri).map Row.deletedMeta = some deletedMeta := by
  unfold Records.softDeleteUnversioned at deleted
  cases found : records.lookup uri with
  | none => simp [found] at deleted
  | some stored =>
      simp only [found] at deleted
      split at deleted
      · cases deleted
        rfl
      · cases deleted

theorem Records.hardDelete_eq_some {records after : Records} {uri : String}
    {deletedMeta : DeletedMeta} (deleted : records.hardDelete uri = (some deletedMeta, after)) :
    (records.lookup uri).map Row.deletedMeta = some deletedMeta := by
  unfold Records.hardDelete at deleted
  cases found : records.lookup uri with
  | none => simp [found] at deleted
  | some stored =>
      simp only [found] at deleted
      cases deleted
      rfl

/-- What a deletion leaves to publish, by the row that it found. -/
theorem leftToPublish_deletion {records : Records} {uri : String}
    {deletedMeta : Option DeletedMeta}
    (stored : ∀ found, deletedMeta = some found →
      (records.lookup uri).map Row.deletedMeta = some found) :
    leftToPublish (.ok (deleteNotification uri deletedMeta)) = [] ∨
      ∃ row, records.lookup uri = some row ∧
        leftToPublish (.ok (deleteNotification uri deletedMeta)) =
          [.delete uri row.did row.collection row.rkey] := by
  cases deletedMeta with
  | none => exact Or.inl rfl
  | some found =>
      rcases Option.map_eq_some_iff.mp (stored found rfl) with ⟨row, row_eq, rfl⟩
      exact Or.inr ⟨row, row_eq, rfl⟩

namespace RecordCall

/-- A call that does not upsert announces nothing, or the deletion of the row
it found, with the keys of that row. -/
theorem deletion_cases (serde : SerdeJson) {call : RecordCall} (records : Records)
    (deletes : ∀ sqlite input, call ≠ .client (.upsertRecord sqlite input)) :
    leftToPublish (call.statement serde records).1 = [] ∨
      ∃ row, records.lookup call.uri = some row ∧
        leftToPublish (call.statement serde records).1 =
          [.delete call.uri row.did row.collection row.rkey] := by
  cases call with
  | client call =>
      cases call with
      | upsertRecord sqlite input => exact absurd rfl (deletes sqlite input)
      | softDeleteRecord sqlite uri indexedAt =>
          simp only [statement, ClientCall.statement, softDeleteStatement]
          split
          · exact Or.inl rfl
          · cases sqlite with
            | some err => exact Or.inl rfl
            | none =>
                apply leftToPublish_deletion
                intro found deleted
                exact Records.softDelete_eq_some (Prod.ext deleted rfl)
      | hardDeleteRecord sqlite uri =>
          simp only [statement, ClientCall.statement, hardDeleteStatement]
          cases sqlite with
          | some err => exact Or.inl rfl
          | none =>
              apply leftToPublish_deletion
              intro found deleted
              exact Records.hardDelete_eq_some (Prod.ext deleted rfl)
  | softDeleteRecordUnversioned sqlite uri =>
      simp only [statement, softDeleteUnversionedStatement]
      cases sqlite with
      | some err => exact Or.inl rfl
      | none =>
          apply leftToPublish_deletion
          intro found deleted
          exact Records.softDeleteUnversioned_eq_some (Prod.ext deleted rfl)

/-- What a call announces: nothing, the input that it upserts, or the deletion
of the row that it found. -/
theorem announcement_cases (serde : SerdeJson) (call : RecordCall) (records : Records) :
    leftToPublish (call.statement serde records).1 = [] ∧ ¬ call.Touches records ∨
      (∃ sqlite input, call = .client (.upsertRecord sqlite input) ∧
        (ClientCall.upsertRecord sqlite input).Touches records ∧
        leftToPublish (call.statement serde records).1 = [.upsert input.toRow]) ∨
      (∀ sqlite input, call ≠ .client (.upsertRecord sqlite input)) ∧
        ∃ row, records.lookup call.uri = some row ∧
          leftToPublish (call.statement serde records).1 =
            [.delete call.uri row.did row.collection row.rkey] := by
  by_cases upserts : ∃ sqlite input, call = .client (.upsertRecord sqlite input)
  · rcases upserts with ⟨sqlite, input, rfl⟩
    rcases upsertStatement_outcome serde sqlite input records with
      ⟨untouched, silent⟩ | ⟨touches, told⟩
    · exact Or.inl ⟨silent.nothing, untouched⟩
    · exact Or.inr (Or.inl ⟨sqlite, input, rfl, touches, told.alone⟩)
  · have deletes : ∀ sqlite input, call ≠ .client (.upsertRecord sqlite input) := by
      intro sqlite input same
      exact upserts ⟨sqlite, input, same⟩
    rcases call.deletion_cases serde records deletes with silent | told
    · rcases call.statement_outcome serde records with ⟨untouched, _⟩ | ⟨_, _, told⟩
      · exact Or.inl ⟨silent, untouched⟩
      · rw [told.alone] at silent
        cases silent
    · exact Or.inr (Or.inr ⟨deletes, told⟩)

end RecordCall

/-! ## The full mirror -/

/-- The copy of a subscriber that takes every notification since the store was
empty. -/
def RecordStore.mirror (store : RecordStore) : Mirror :=
  Mirror.receive (fun _ => none) store.bus.published

/-- The full copy is the live view, and what it holds at a URI is the input of
an upsert among the calls. -/
structure Mirrored (serde : SerdeJson) (calls : List RecordCall) (store : RecordStore) : Prop where
  columns : store.mirror.columns serde = store.records.liveView
  written : ∀ uri record, store.mirror uri = some record →
    ∃ sqlite input, .client (.upsertRecord sqlite input) ∈ calls ∧ input.uri = uri ∧
      input.toRow = record

theorem published_execute (serde : SerdeJson) (store : RecordStore) (call : RecordCall) :
    (call.execute serde store).bus.published =
      store.bus.published ++ leftToPublish (call.statement serde store.records).1 := by
  rw [RecordCall.execute_eq]
  exact BroadcastBus.published_publishAll _ _

theorem mirror_execute (serde : SerdeJson) (store : RecordStore) (call : RecordCall) :
    (call.execute serde store).mirror =
      store.mirror.receive (leftToPublish (call.statement serde store.records).1) := by
  rw [RecordStore.mirror, published_execute]
  exact Feed.receive_append ChangeNotification.change _ _ _

theorem mirrored_empty (serde : SerdeJson) : Mirrored serde [] RecordStore.empty where
  columns := by
    funext uri
    rfl
  written := by
    intro uri record absurd
    cases absurd

theorem mirrored_execute {serde : SerdeJson} {calls : List RecordCall} {store : RecordStore}
    (mirrored : Mirrored serde calls store) (call : RecordCall) :
    Mirrored serde (calls ++ [call]) (call.execute serde store) where
  columns := by
    rw [mirror_execute, Mirror.columns_receive, mirrored.columns,
      ← (call.announces serde).effect store.records, RecordCall.execute_eq]
  written := by
    intro uri record held
    have kept (before : store.mirror uri = some record) :
        ∃ sqlite input, .client (.upsertRecord sqlite input) ∈ calls ++ [call] ∧
          input.uri = uri ∧ input.toRow = record := by
      rcases mirrored.written uri record before with ⟨sqlite, input, mem, input_uri, same⟩
      exact ⟨sqlite, input, List.mem_append_left _ mem, input_uri, same⟩
    rw [mirror_execute] at held
    rcases call.announcement_cases serde store.records with
      ⟨silent, _⟩ | ⟨sqlite, input, rfl, _, told⟩ | ⟨_, row, _, told⟩
    · rw [silent] at held
      exact kept held
    · rw [told] at held
      by_cases about : input.uri = uri
      · subst about
        have set : Feed.apply store.mirror (ChangeNotification.upsert input.toRow).change
            input.uri = some input.toRow := apply_self rfl
        have same : some input.toRow = some record := set.symm.trans held
        exact ⟨sqlite, input, List.mem_append_right _ (List.mem_singleton_self _), rfl,
          Option.some.inj same⟩
      · have other : Feed.apply store.mirror (ChangeNotification.upsert input.toRow).change
            uri = store.mirror uri := apply_of_ne about
        exact kept (other.symm.trans held)
    · rw [told] at held
      by_cases about : call.uri = uri
      · have cleared : Feed.apply store.mirror (.clear call.uri) uri = none := apply_self about
        have absurd : none = some record := cleared.symm.trans held
        cases absurd
      · have other : Feed.apply store.mirror (.clear call.uri) uri = store.mirror uri :=
          apply_of_ne about
        exact kept (other.symm.trans held)

theorem runRecordCalls_concat (serde : SerdeJson) (store : RecordStore) (calls : List RecordCall)
    (call : RecordCall) :
    runRecordCalls serde store (calls ++ [call]) =
      call.execute serde (runRecordCalls serde store calls) :=
  List.foldl_append

theorem mirrored_run (serde : SerdeJson) (calls : List RecordCall) :
    Mirrored serde calls (runRecordCalls serde RecordStore.empty calls) := by
  induction calls using List.reverseRecOn with
  | nil => exact mirrored_empty serde
  | append_singleton calls call ih =>
      rw [runRecordCalls_concat]
      exact mirrored_execute ih call

/-- The keys of the records that the full copy holds are those of the live
rows. -/
theorem Mirrored.keys_eq {serde : SerdeJson} {calls : List RecordCall} {store : RecordStore}
    (mirrored : Mirrored serde calls store) (uri : String) :
    (store.mirror uri).map (fun record => (record.did, record.collection)) =
      (store.records.selectActive uri).map fun row => (row.did, row.collection) := by
  have columns := congrFun mirrored.columns uri
  rw [Mirror.columns, Records.liveView] at columns
  have keys := congrArg (Option.map fun entry : String × Row =>
    (entry.2.did, entry.2.collection)) columns
  rw [Option.map_map, Option.map_map] at keys
  exact keys

/-- The live rows are columns of records whose payloads read back. -/
def Records.Reads (serde : SerdeJson) (records : Records) : Prop :=
  ∀ uri row, records.selectActive uri = some row →
    ∃ record : RecordRow, record.columns serde = (uri, row) ∧ serde.ReadsBack record.recordJson

/-! ## The subscriber of a live query -/

namespace LiveQuery

variable (query : LiveQuery)

/-- Whether the query selects a record. -/
def keepsRecord (record : RecordRow) : Bool := query.keeps record.did record.collection

/-- The copy of the subscriber: it has taken the notifications that match. -/
def mirror (store : RecordStore) : Mirror :=
  Mirror.receive (fun _ => none) (store.bus.published.filter query.takes)

/-- The copy of the subscriber holds the records of the full copy that the
query selects. -/
def Follows (store : RecordStore) : Prop :=
  query.mirror store = select query.keepsRecord store.mirror

variable {query}

/-- A matching deletion is about a selected record. -/
theorem labelled_delete {serde : SerdeJson} {calls : List RecordCall} {store : RecordStore}
    (mirrored : Mirrored serde calls store) {uri : String} {row : Row}
    (found : store.records.lookup uri = some row) :
    Labelled query.keepsRecord query.takes ChangeNotification.change store.mirror
      (.delete uri row.did row.collection row.rkey) := by
  intro record held
  have keys := mirrored.keys_eq uri
  rw [held, Option.map_some, eq_comm, Option.map_eq_some_iff] at keys
  rcases keys with ⟨stored, selected, same⟩
  have stored_eq : row = stored := by
    have lookup_eq := (Option.filter_eq_some_iff.mp selected).1
    exact Option.some.inj (found.symm.trans lookup_eq)
  subst stored_eq
  rcases Prod.mk.inj same with ⟨did_eq, collection_eq⟩
  rw [keepsRecord, ← did_eq, ← collection_eq]
  rfl

/-- An upsert that takes effect escapes the subscriber exactly if it moves a
live record of the query out of it. -/
theorem escapes_upsert_iff {serde : SerdeJson} {calls : List RecordCall} {store : RecordStore}
    (mirrored : Mirrored serde calls store) {sqlite : SqliteAnswer} {input : RecordInput}
    (touches : (ClientCall.upsertRecord sqlite input).Touches store.records) :
    Escapes query.keepsRecord ChangeNotification.change store.mirror (.upsert input.toRow) ↔
      query.MovesOut store.records (.client (.upsertRecord sqlite input)) := by
  have keys := mirrored.keys_eq input.uri
  constructor
  · rintro ⟨_, _, ⟨⟩, unkept, present⟩
    refine ⟨touches, unkept, ?_⟩
    rcases Option.ne_none_iff_exists'.mp present with ⟨record, selected⟩
    rcases select_eq_some_iff.mp selected with ⟨held, kept⟩
    have held_at : store.mirror input.uri = some record := held
    rw [held_at, Option.map_some, eq_comm, Option.map_eq_some_iff] at keys
    rcases keys with ⟨stored, active, same⟩
    rcases Prod.mk.inj same with ⟨did_eq, collection_eq⟩
    refine ⟨stored, active, ?_⟩
    rw [did_eq, collection_eq]
    exact kept
  · rintro ⟨_, unkept, stored, active, kept⟩
    refine ⟨_, _, rfl, unkept, ?_⟩
    rw [active, Option.map_some, Option.map_eq_some_iff] at keys
    rcases keys with ⟨record, held, same⟩
    rcases Prod.mk.inj same with ⟨did_eq, collection_eq⟩
    have selected : select query.keepsRecord store.mirror input.uri = some record := by
      rw [select_eq_some_iff, keepsRecord, did_eq, collection_eq]
      exact ⟨held, kept⟩
    have at_key : select query.keepsRecord store.mirror input.toRow.uri = some record := selected
    rw [at_key]
    exact Option.some_ne_none record

theorem mirror_execute (serde : SerdeJson) (store : RecordStore) (call : RecordCall) :
    query.mirror (call.execute serde store) =
      (query.mirror store).receive
        ((leftToPublish (call.statement serde store.records).1).filter query.takes) := by
  rw [mirror, published_execute, List.filter_append]
  exact Feed.receive_append ChangeNotification.change _ _ _

/-- A call keeps the subscriber up to date exactly if it moves no live record
of the query out of it. -/
theorem follows_execute_iff {serde : SerdeJson} {calls : List RecordCall} {store : RecordStore}
    (mirrored : Mirrored serde calls store) (follows : query.Follows store) (call : RecordCall) :
    query.Follows (call.execute serde store) ↔ ¬ query.MovesOut store.records call := by
  unfold Follows at follows ⊢
  rw [mirror_execute, Index.mirror_execute, follows]
  rcases call.announcement_cases serde store.records with
    ⟨silent, untouched⟩ | ⟨sqlite, input, rfl, touches, told⟩ | ⟨deletes, row, found, told⟩
  · rw [silent]
    apply iff_of_true
    · rfl
    · intro moves
      cases call with
      | client call =>
          cases call with
          | upsertRecord sqlite input => exact untouched moves.1
          | softDeleteRecord sqlite uri indexedAt => exact moves
          | hardDeleteRecord sqlite uri => exact moves
      | softDeleteRecordUnversioned sqlite uri => exact moves
  · have labelled : Labelled query.keepsRecord query.takes ChangeNotification.change store.mirror
        (.upsert input.toRow) := rfl
    rw [told, ← escapes_upsert_iff mirrored touches]
    exact receive_filter_iff_of_labelled labelled
  · have stays : ¬ query.MovesOut store.records call := by
      intro moves
      cases call with
      | client call =>
          cases call with
          | upsertRecord sqlite input => exact deletes sqlite input rfl
          | softDeleteRecord sqlite uri indexedAt => exact moves
          | hardDeleteRecord sqlite uri => exact moves
      | softDeleteRecordUnversioned sqlite uri => exact moves
    rw [told, iff_true_right stays]
    apply (receive_filter_iff_of_labelled (labelled_delete mirrored found)).mpr
    rintro ⟨_, _, ⟨⟩, _⟩

/-- Along a run from the empty store, the subscriber is up to date after every
call exactly if no call moves a live record of the query out of it. -/
theorem follows_run_iff (query : LiveQuery) (serde : SerdeJson) (calls : List RecordCall) :
    (∀ before after, calls = before ++ after →
        query.Follows (runRecordCalls serde RecordStore.empty before)) ↔
      ∀ before call after, calls = before ++ call :: after →
        ¬ query.MovesOut (runRecordCalls serde RecordStore.empty before).records call := by
  constructor
  · intro follows before call after split
    have here := follows before (call :: after) split
    have next := follows (before ++ [call]) after (by rw [split, List.append_assoc]; rfl)
    rw [runRecordCalls_concat] at next
    exact (follows_execute_iff (mirrored_run serde before) here call).mp next
  · intro stays before
    induction before using List.reverseRecOn with
    | nil =>
        intro after _
        funext uri
        rfl
    | append_singleton before call ih =>
        intro after split
        rw [List.append_assoc] at split
        rw [runRecordCalls_concat]
        exact (follows_execute_iff (mirrored_run serde before) (ih _ split) call).mpr
          (stays before call after split)

/-! ## What the query returns -/

/-- The statement of the query. -/
def statement (query : LiveQuery) : Select :=
  ⟨[.collection query.collection, .active] ++ query.did.toList.map .did, [], none, none⟩

theorem select_builder (query : LiveQuery) (serde : SerdeJson) :
    query.builder.select serde = .ok query.statement := by
  rcases query with ⟨collection, did, collectionTrimmed, collectionNonempty, didTrimmed⟩
  cases did with
  | none =>
      simp only [builder, QueryBuilder.select, QueryBuilder.new, collectionTrimmed,
        collectionNonempty]
      rfl
  | some did =>
      rcases didTrimmed did rfl with ⟨trimmed, didNonempty⟩
      simp only [builder, QueryBuilder.select, QueryBuilder.new, QueryBuilder.withDid,
        collectionTrimmed, collectionNonempty, QueryBuilder.didConditions, trimmed, didNonempty,
        Bool.false_eq_true, if_false]
      rfl

theorem plain_statement (query : LiveQuery) : query.statement.Plain where
  comparesColumns := by
    intro condition mem row
    rcases List.mem_append.mp mem with keys | authors
    · simp only [List.mem_cons, List.not_mem_nil, or_false] at keys
      rcases keys with rfl | rfl <;> rfl
    · rcases List.mem_map.mp authors with ⟨author, _, rfl⟩
      rfl
  unordered := rfl
  unlimited := rfl
  unshifted := rfl

theorem matches_statement_iff (query : LiveQuery) (row : Row) :
    query.statement.Matches row ↔
      row.isDeleted = false ∧ query.keeps row.did row.collection = true := by
  simp only [Select.Matches, statement, List.forall_mem_append, List.forall_mem_cons,
    Condition.onColumn, List.forall_mem_map, Option.mem_toList, Option.some.injEq, beq_iff_eq,
    Bool.not_eq_true', keeps, Bool.and_eq_true, Option.all_eq_true, List.not_mem_nil,
    false_implies, implies_true, and_true]
  constructor
  · rintro ⟨⟨collection_eq, live⟩, did_eq⟩
    exact ⟨live, collection_eq, did_eq⟩
  · rintro ⟨live, collection_eq, did_eq⟩
    exact ⟨⟨collection_eq, live⟩, did_eq⟩

/-- The store turns the columns of a record into the record again. -/
theorem mapRecordRow_columns {serde : SerdeJson} {record : RecordRow}
    (reads : serde.ReadsBack record.recordJson) :
    RecordStore.mapRecordRow serde (record.columns serde).1 (record.columns serde).2 =
      .ok record := by
  have parsed : serde.fromStr (record.columns serde).2.recordJson = .ok record.recordJson := reads
  have time : u64TryFrom (record.columns serde).2.indexedAt = .ok record.indexedAt :=
    u64TryFrom_toInt record.indexedAt
  rw [RecordStore.mapRecordRow, parsed]
  dsimp only
  rw [time]
  rfl

/-- Records whose payloads read back are determined by their columns. -/
theorem columns_inj {serde : SerdeJson} {first second : RecordRow}
    (firstReads : serde.ReadsBack first.recordJson)
    (secondReads : serde.ReadsBack second.recordJson)
    (same : first.columns serde = second.columns serde) : first = second := by
  have mapped := mapRecordRow_columns firstReads
  rw [same, mapRecordRow_columns secondReads] at mapped
  exact (Except.ok.inj mapped).symm

/-- SQLite delivers the live rows that the query selects. -/
theorem mem_delivered_iff {sqlite : Sqlite} (delivers : Delivers sqlite) (store : RecordStore)
    (query : LiveQuery) (uri : String) (row : Row) :
    (uri, row) ∈ (sqlite query.statement store.records).1 ↔
      store.records.selectActive uri = some row ∧
        query.keeps row.did row.collection = true := by
  rw [(delivers query.statement store.records query.plain_statement).2,
    query.matches_statement_iff, Records.selectActive, Option.filter_eq_some_iff,
    Bool.not_eq_true', and_assoc]

/-- The query returns the records of the live rows that it selects. -/
theorem execute_of_reads {serde : SerdeJson} {sqlite : Sqlite} (delivers : Delivers sqlite)
    {store : RecordStore} (reads : store.records.Reads serde) (query : LiveQuery) :
    ∃ rows, query.builder.execute serde sqlite store = .ok rows ∧
      ∀ uri record, record ∈ rows ∧ record.uri = uri ↔
        serde.ReadsBack record.recordJson ∧ query.keepsRecord record = true ∧
          store.records.liveView uri = some (record.columns serde) := by
  have executed : query.builder.execute serde sqlite store =
      (sqlite query.statement store.records).1.mapM
        fun entry => RecordStore.mapRecordRow serde entry.1 entry.2 := by
    rw [QueryBuilder.execute, query.select_builder serde]
    change store.queryRaw serde sqlite query.statement = _
    simp only [RecordStore.queryRaw,
      (delivers query.statement store.records query.plain_statement).1, bind_pure]
  have delivered := mem_delivered_iff delivers store query
  have mapped_eq : ∀ uri row, store.records.selectActive uri = some row →
      ∃ record : RecordRow, record.columns serde = (uri, row) ∧
        serde.ReadsBack record.recordJson ∧
        RecordStore.mapRecordRow serde uri row = .ok record := by
    intro uri row active
    rcases reads uri row active with ⟨record, columns, recordReads⟩
    have mapped := mapRecordRow_columns recordReads
    rw [columns] at mapped
    exact ⟨record, columns, recordReads, mapped⟩
  have allMapped : ∀ entry ∈ (sqlite query.statement store.records).1,
      ∃ record, RecordStore.mapRecordRow serde entry.1 entry.2 = .ok record := by
    rintro ⟨uri, row⟩ mem
    rcases mapped_eq uri row ((delivered uri row).mp mem).1 with ⟨record, _, _, mapped⟩
    exact ⟨record, mapped⟩
  rcases Except.mapM_ok_of_forall allMapped with ⟨rows, mapped⟩
  refine ⟨rows, executed.trans mapped, ?_⟩
  intro uri record
  constructor
  · rintro ⟨mem, rfl⟩
    rcases Except.exists_of_mapM_ok mapped record mem with ⟨⟨key, row⟩, rowMem, row_eq⟩
    rcases (delivered key row).mp rowMem with ⟨active, kept⟩
    rcases mapped_eq key row active with ⟨source, columns, sourceReads, again⟩
    have same : source = record := Except.ok.inj (again.symm.trans row_eq)
    subst same
    cases columns
    refine ⟨sourceReads, kept, ?_⟩
    rw [Records.liveView, active, Option.map_some]
    rfl
  · rintro ⟨recordReads, kept, live⟩
    rcases Option.map_eq_some_iff.mp live with ⟨row, active, columns⟩
    have row_eq : row = (record.columns serde).2 := congrArg Prod.snd columns
    subst row_eq
    have uri_eq : uri = record.uri := congrArg Prod.fst columns
    subst uri_eq
    have mem := (delivered record.uri (record.columns serde).2).mpr ⟨active, kept⟩
    rcases Except.ok_of_mapM_ok mapped _ mem with ⟨result, resultMem, result_eq⟩
    have same : record = result :=
      Except.ok.inj ((mapRecordRow_columns recordReads).symm.trans result_eq)
    subst same
    exact ⟨resultMem, rfl⟩

/-- The query returns the records of the full copy that it selects. -/
theorem execute_eq_select {serde : SerdeJson} {sqlite : Sqlite} (delivers : Delivers sqlite)
    {calls : List RecordCall} {store : RecordStore} (mirrored : Mirrored serde calls store)
    (reads : ∀ answer input, .client (.upsertRecord answer input) ∈ calls →
      serde.ReadsBack input.recordJson) (query : LiveQuery) :
    ∃ rows, query.builder.execute serde sqlite store = .ok rows ∧
      ∀ uri record, record ∈ rows ∧ record.uri = uri ↔
        select query.keepsRecord store.mirror uri = some record := by
  have heldReads : ∀ uri record, store.mirror uri = some record →
      serde.ReadsBack record.recordJson := by
    intro uri record held
    rcases mirrored.written uri record held with ⟨answer, input, mem, _, rfl⟩
    exact reads answer input mem
  have live : ∀ uri, (store.mirror uri).map (RecordRow.columns serde) =
      store.records.liveView uri := congrFun mirrored.columns
  have rowsRead : store.records.Reads serde := by
    intro uri row active
    have held := live uri
    rw [Records.liveView, active, Option.map_some, Option.map_eq_some_iff] at held
    rcases held with ⟨record, held, columns⟩
    exact ⟨record, columns, heldReads uri record held⟩
  rcases execute_of_reads delivers rowsRead query with ⟨rows, executed, returned⟩
  refine ⟨rows, executed, ?_⟩
  intro uri record
  rw [returned, select_eq_some_iff, ← live, Option.map_eq_some_iff]
  constructor
  · rintro ⟨recordReads, kept, other, held, columns⟩
    rw [← columns_inj (heldReads uri other held) recordReads columns]
    refine ⟨held, ?_⟩
    rw [columns_inj (heldReads uri other held) recordReads columns]
    exact kept
  · rintro ⟨held, kept⟩
    exact ⟨heldReads uri record held, kept, record, held, rfl⟩

/-- An input moves nothing where the inputs of a URI have the same keys. -/
theorem not_movesOut_of_keyed {serde : SerdeJson} {calls : List RecordCall} {call : RecordCall}
    (keyed : ∀ first second answer other, .client (.upsertRecord answer first) ∈ calls →
      call = .client (.upsertRecord other second) → first.uri = second.uri →
        first.did = second.did ∧ first.collection = second.collection) (query : LiveQuery) :
    ¬ query.MovesOut (runRecordCalls serde RecordStore.empty calls).records call := by
  intro moves
  cases call with
  | client call =>
      cases call with
      | upsertRecord other second =>
          rcases moves with ⟨_, unkept, stored, active, kept⟩
          have mirrored := mirrored_run serde calls
          have keys := mirrored.keys_eq second.uri
          rw [active, Option.map_some, Option.map_eq_some_iff] at keys
          rcases keys with ⟨record, held, same⟩
          rcases mirrored.written second.uri record held with
            ⟨answer, first, mem, first_uri, rfl⟩
          rcases keyed first second answer other mem rfl first_uri with
            ⟨did_eq, collection_eq⟩
          rcases Prod.mk.inj same with ⟨storedDid, storedCollection⟩
          have same_did : stored.did = second.did := storedDid.symm.trans did_eq
          have same_collection : stored.collection = second.collection :=
            storedCollection.symm.trans collection_eq
          rw [same_did, same_collection, unkept] at kept
          cases kept
      | softDeleteRecord sqlite uri indexedAt => exact moves
      | hardDeleteRecord sqlite uri => exact moves
  | softDeleteRecordUnversioned sqlite uri => exact moves

/-- Live queries are exact.  Along every run of calls from the empty store, a
subscriber that takes the matching notifications holds, after every call,
exactly the records that the query returns, if and only if no upsert moves a
live record of the query to keys outside of it.  Inputs that name the same
collection and author for the same URI move none. -/
theorem execute_eq_mirror_iff {serde : SerdeJson} {sqlite : Sqlite} (delivers : Delivers sqlite)
    (query : LiveQuery) (calls : List RecordCall)
    (reads : ∀ answer input, .client (.upsertRecord answer input) ∈ calls →
      serde.ReadsBack input.recordJson) :
    ((∀ before after, calls = before ++ after →
        ∃ rows, query.builder.execute serde sqlite
            (runRecordCalls serde RecordStore.empty before) = .ok rows ∧
          ∀ uri record, record ∈ rows ∧ record.uri = uri ↔
            query.mirror (runRecordCalls serde RecordStore.empty before) uri = some record) ↔
      ∀ before call after, calls = before ++ call :: after →
        ¬ query.MovesOut (runRecordCalls serde RecordStore.empty before).records call) ∧
      ((∀ first second answer other, .client (.upsertRecord answer first) ∈ calls →
          .client (.upsertRecord other second) ∈ calls → first.uri = second.uri →
            first.did = second.did ∧ first.collection = second.collection) →
        ∀ before call after, calls = before ++ call :: after →
          ¬ query.MovesOut (runRecordCalls serde RecordStore.empty before).records call) := by
  constructor
  · rw [← follows_run_iff query serde calls]
    apply forall_congr'
    intro before
    apply forall_congr'
    intro after
    apply imp_congr_right
    intro split
    have readable : ∀ answer input, .client (.upsertRecord answer input) ∈ before →
        serde.ReadsBack input.recordJson := by
      intro answer input mem
      exact reads answer input (by rw [split]; exact List.mem_append_left _ mem)
    rcases execute_eq_select delivers (mirrored_run serde before) readable query with
      ⟨rows, executed, returned⟩
    constructor
    · rintro ⟨others, again, held⟩
      cases Except.ok.inj (again.symm.trans executed)
      funext uri
      apply Option.ext
      intro record
      exact (held uri record).symm.trans (returned uri record)
    · intro follows
      refine ⟨rows, executed, ?_⟩
      rw [follows]
      exact returned
  · intro keyed before call after split
    apply not_movesOut_of_keyed
    rintro first second answer other mem rfl same_uri
    apply keyed first second answer other _ _ same_uri
    · rw [split]
      exact List.mem_append_left _ mem
    · rw [split]
      exact List.mem_append_right _ List.mem_cons_self

theorem trim_feedPost : Text.trim "app.bsky.feed.post" = "app.bsky.feed.post" := by
  decide

/-- The posts of every author. -/
def posts : LiveQuery where
  collection := "app.bsky.feed.post"
  did := none
  collectionTrimmed := trim_feedPost
  collectionNonempty := rfl
  didTrimmed := by
    intro author absurd
    cases absurd

/-- A post that is going to be deleted is still in the copy. -/
theorem execute_eq_mirror_posts :
    ∃ rows, posts.builder.execute .scalars scan (runRecordCalls .scalars RecordStore.empty
        [.client (.upsertRecord none (alicePost 1))]) = .ok rows ∧
      ∀ uri record, record ∈ rows ∧ record.uri = uri ↔
        posts.mirror (runRecordCalls .scalars RecordStore.empty
          [.client (.upsertRecord none (alicePost 1))]) uri = some record := by
  have onlyAlice : ∀ answer input, RecordCall.client (.upsertRecord answer input) ∈
      [.client (.upsertRecord none (alicePost 1)),
        .client (.softDeleteRecord none (alicePost 1).uri 2)] → input = alicePost 1 := by
    intro answer input mem
    simp only [List.mem_cons, RecordCall.client.injEq, ClientCall.upsertRecord.injEq,
      List.not_mem_nil, or_false, reduceCtorEq] at mem
    exact mem.2
  have readable : ∀ answer input, RecordCall.client (.upsertRecord answer input) ∈
      [.client (.upsertRecord none (alicePost 1)),
        .client (.softDeleteRecord none (alicePost 1).uri 2)] →
      SerdeJson.scalars.ReadsBack input.recordJson := by
    intro answer input mem
    rw [onlyAlice answer input mem]
    rfl
  have live := execute_eq_mirror_iff scan_delivers posts _ readable
  apply live.1.mpr _ _ [.client (.softDeleteRecord none (alicePost 1).uri 2)] rfl
  apply live.2
  intro first second answer other firstMem secondMem _
  rw [onlyAlice answer first firstMem, onlyAlice other second secondMem]
  exact ⟨rfl, rfl⟩

/-- A post that is overwritten in place by a like moves out of the query. -/
example : posts.MovesOut
    (runRecordCalls .scalars RecordStore.empty
      [.client (.upsertRecord none (alicePost 1))]).records
    (.client (.upsertRecord none { alicePost 2 with collection := "app.bsky.feed.like" })) := by
  refine ⟨⟨rfl, by decide, ?_⟩, rfl, (alicePost 1).row .scalars, rfl, rfl⟩
  intro stored found
  cases found
  decide

end LiveQuery

end Skybase.Index
