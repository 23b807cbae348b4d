import Skybase.Ingest.Cursor
import Skybase.Ingest.Events

/-!
# The consumer

The configuration, the edge filter and the storage worker of the Jetstream
consumer.  The functions take the answers of SQLite to the calls they make.
The counters are natural numbers.
-/

namespace Skybase.Ingest

open Skybase.Index
open Skybase.Json

/-! ## Configuration -/

/-- The fields of `IngesterConfig` that decide which commits are ingested, in
which mode, and from where. -/
structure IngesterConfig where
  wantedCollections : List String
  wantedDids : List String
  initialCursor : Option U64
  channelCapacity : Nat
  batchSize : Nat

namespace IngesterConfig

/-- The capacity of the channel between reader and worker. -/
def capacity (config : IngesterConfig) : Nat := max config.channelCapacity 1

/-- The edge filter of the reader. -/
def wants (config : IngesterConfig) (commit : JetstreamCommit) : Bool :=
  let matchesCollection := config.wantedCollections.isEmpty ||
    config.wantedCollections.any fun c => c == commit.collection
  let matchesDid := config.wantedDids.isEmpty || config.wantedDids.any fun d => d == commit.did
  matchesCollection && matchesDid

/-- Whether the worker syncs commit by commit. -/
def Immediate (config : IngesterConfig) : Prop := config.batchSize ≤ 1

instance (config : IngesterConfig) : Decidable config.Immediate :=
  inferInstanceAs (Decidable (_ ≤ _))

end IngesterConfig

/-! ## The worker -/

/-- The counters of `ConsumerStats` that the storage worker advances.  The source
keeps them in `AtomicU64`s, which wrap at `2^64`; they start from zero with the
process, which does not live to store as many commits. -/
structure ConsumerStats where
  recordsUpserted : Nat
  recordsDeleted : Nat
  syncErrors : Nat
deriving DecidableEq

/-- `ConsumerStats::default`. -/
def ConsumerStats.default : ConsumerStats := ⟨0, 0, 0⟩

/-- What the storage worker shares with the rest of the consumer. -/
structure Worker where
  store : RecordStore
  stats : ConsumerStats
  cursor : CursorTracker

namespace Worker

/-- `stats.sync_errors.fetch_add`. -/
def addSyncErrors (worker : Worker) (count : Nat) : Worker :=
  { worker with stats := { worker.stats with syncErrors := worker.stats.syncErrors + count } }

/-- `stats.records_upserted.fetch_add`. -/
def addUpserted (worker : Worker) (count : Nat) : Worker :=
  { worker with
    stats := { worker.stats with recordsUpserted := worker.stats.recordsUpserted + count } }

/-- `stats.records_deleted.fetch_add`. -/
def addDeleted (worker : Worker) (count : Nat) : Worker :=
  { worker with
    stats := { worker.stats with recordsDeleted := worker.stats.recordsDeleted + count } }

/-- `cursor.update`. -/
def track (worker : Worker) (timeUs : U64) : Worker :=
  { worker with cursor := worker.cursor.advance timeUs }

/-- `let _ = store.set_cursor(…)`. -/
def persist (sqlite : SqliteAnswer) (worker : Worker) (timeUs : U64) : Worker :=
  { worker with store := (worker.store.setCursor sqlite timeUs).2 }

@[simp]
theorem store_addSyncErrors (worker : Worker) (count : Nat) :
    (worker.addSyncErrors count).store = worker.store :=
  rfl

@[simp]
theorem store_track (worker : Worker) (timeUs : U64) : (worker.track timeUs).store = worker.store :=
  rfl

@[simp]
theorem cursor_track (worker : Worker) (timeUs : U64) :
    (worker.track timeUs).cursor = worker.cursor.advance timeUs :=
  rfl

@[simp]
theorem cursor_persist (sqlite : SqliteAnswer) (worker : Worker) (timeUs : U64) :
    (worker.persist sqlite timeUs).cursor = worker.cursor :=
  rfl

@[simp]
theorem records_persist (sqlite : SqliteAnswer) (worker : Worker) (timeUs : U64) :
    (worker.persist sqlite timeUs).store.records = worker.store.records := by
  cases sqlite <;> rfl

end Worker

/-- The answers of SQLite to the two writes of `apply_single_commit`. -/
structure SingleAnswers where
  write : SqliteAnswer
  setCursor : SqliteAnswer

/-- Every call succeeds. -/
def SingleAnswers.ok : SingleAnswers := ⟨none, none⟩

/-- `apply_single_commit`. -/
def applySingleCommit (serde : SerdeJson) (sqlite : SingleAnswers) (commit : JetstreamCommit)
    (worker : Worker) : Worker :=
  match commit.operation with
  | .create | .update =>
      match commit.toRecordInput none with
      | none => worker.addSyncErrors 1
      | some input =>
          match worker.store.upsertRecord serde sqlite.write input with
          | (.ok (), store) =>
              ((({ worker with store }).addUpserted 1).track commit.timeUs).persist
                sqlite.setCursor commit.timeUs
          | (.error _, store) => ({ worker with store }).addSyncErrors 1
  | .delete =>
      match worker.store.softDeleteRecord sqlite.write commit.uri commit.timeUs with
      | (.ok true, store) =>
          ((({ worker with store }).addDeleted 1).track commit.timeUs).persist
            sqlite.setCursor commit.timeUs
      | (.ok false, store) =>
          (({ worker with store }).track commit.timeUs).persist sqlite.setCursor commit.timeUs
      | (.error _, store) => ({ worker with store }).addSyncErrors 1

/-- What `flush_commit_batch` collects from its buffer. -/
structure FlushPlan where
  operations : List StoreOperation
  latestCursor : Option U64
  syncErrors : Nat

/-- One iteration of the loop over the buffer. -/
def FlushPlan.collect (plan : FlushPlan) (commit : JetstreamCommit) : FlushPlan :=
  let latestCursor := some (plan.latestCursor.elim commit.timeUs fun c => max c commit.timeUs)
  match commit.operation with
  | .create | .update =>
      match commit.toRecordInput none with
      | some input =>
          { plan with operations := plan.operations ++ [.upsert input], latestCursor }
      | none => { plan with latestCursor, syncErrors := plan.syncErrors + 1 }
  | .delete =>
      { plan with
        operations := plan.operations ++ [.delete commit.uri commit.timeUs], latestCursor }

/-- The loop over the buffer. -/
def flushPlan (buffer : List JetstreamCommit) : FlushPlan :=
  buffer.foldl FlushPlan.collect ⟨[], none, 0⟩

/-- `flush_commit_batch`, which leaves the buffer empty. -/
def flushCommitBatch (serde : SerdeJson) (sqlite : BatchAnswers) (buffer : List JetstreamCommit)
    (worker : Worker) : Worker :=
  if buffer.isEmpty then worker
  else
    let plan := flushPlan buffer
    let worker := worker.addSyncErrors plan.syncErrors
    match worker.store.applyOperationsBatch serde sqlite plan.operations plan.latestCursor with
    | (.ok batchStats, store) =>
        let worker := (((({ worker with store }).addUpserted batchStats.upserted).addDeleted
          batchStats.deleted).addSyncErrors batchStats.skipped)
        match plan.latestCursor with
        | some cur => worker.track cur
        | none => worker
    | (.error _, store) => ({ worker with store }).addSyncErrors plan.operations.length

/-! ## Starting and resuming -/

/-- `JetstreamConsumer::new`. -/
def newConsumer (config : IngesterConfig) (store : RecordStore) : Worker where
  store := store
  stats := ConsumerStats.default
  cursor := CursorTracker.new (config.initialCursor.getD 0)

/-- The first lines of `JetstreamConsumer::run`: resume from the persisted
cursor if none is configured. -/
def Worker.resume (config : IngesterConfig) (worker : Worker) : Worker :=
  if config.initialCursor.isNone && worker.cursor.get == 0 then
    match worker.store.getCursor with
    | .ok (some persistedCursor) =>
        { worker with cursor := worker.cursor.forceRewind persistedCursor }
    | .ok none => worker
    | .error _ => worker
  else worker

end Skybase.Ingest
