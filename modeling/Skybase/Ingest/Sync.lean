import Mathlib.Data.List.Induction
import Skybase.Index.Batch
import Skybase.Ingest.Consumer

/-!
# What a sync does

Every commit asks for at most one store operation.  Both sync functions first
write to the table, then advance the tracker; the single one then persists the
cursor, which the batch has already written in its transaction.  The writing
parts are separate definitions here, so that other tasks of the consumer, and
crashes, can fall between the parts.
-/

namespace Skybase.Ingest

open Skybase.Index
open Skybase.Json

/-! ## Commits as operations -/

namespace JetstreamCommit

/-- The store operation a commit asks for; a create or update without payload
asks for none. -/
def toOperation (commit : JetstreamCommit) : Option StoreOperation :=
  if commit.operation = .delete then some (.delete commit.uri commit.timeUs)
  else (commit.toRecordInput none).map .upsert

/-- A commit that the store can apply: its timestamp is in the range of `i64`
and, if it is a create or update, it has a payload. -/
def Usable (commit : JetstreamCommit) : Prop :=
  FitsI64 commit.timeUs ∧ commit.toOperation.isSome = true

instance (commit : JetstreamCommit) : Decidable commit.Usable :=
  inferInstanceAs (Decidable (_ ∧ _))

/-- An operation carries the URI and the timestamp of its commit. -/
theorem keys_of_toOperation {commit : JetstreamCommit} {op : StoreOperation}
    (asked : commit.toOperation = some op) :
    op.uri = commit.uri ∧ op.indexedAt = commit.timeUs := by
  unfold toOperation at asked
  split at asked
  · cases asked
    exact ⟨rfl, rfl⟩
  · rcases Option.map_eq_some_iff.mp asked with ⟨input, converted, rfl⟩
    unfold toRecordInput at converted
    split at converted
    · cases converted
    · rcases Option.map_eq_some_iff.mp converted with ⟨recordJson, _, rfl⟩
      exact ⟨rfl, rfl⟩

theorem indexedAt_of_toOperation {commit : JetstreamCommit} {op : StoreOperation}
    (asked : commit.toOperation = some op) : op.indexedAt = commit.timeUs :=
  (keys_of_toOperation asked).2

theorem uri_of_toOperation {commit : JetstreamCommit} {op : StoreOperation}
    (asked : commit.toOperation = some op) : op.uri = commit.uri :=
  (keys_of_toOperation asked).1

end JetstreamCommit

/-- The table after a commit, when SQLite does not fail. -/
def applyCommit (serde : SerdeJson) (records : Records) (commit : JetstreamCommit) : Records :=
  commit.toOperation.elim records fun op => op.exec serde records

/-- Commits that are applied one after the other run their operations. -/
theorem foldl_applyCommit (serde : SerdeJson) (records : Records)
    (commits : List JetstreamCommit) :
    commits.foldl (applyCommit serde) records =
      runOperations serde records (commits.filterMap JetstreamCommit.toOperation) := by
  induction commits generalizing records with
  | nil => rfl
  | cons commit commits ih =>
      rw [List.foldl_cons, ih, List.filterMap_cons]
      cases asked : commit.toOperation with
      | none => rw [applyCommit, asked, Option.elim_none]
      | some op => rw [applyCommit, asked, Option.elim_some, runOperations_cons]

/-- A commit that is not usable leaves the table alone. -/
theorem applyCommit_of_not_usable (serde : SerdeJson) (records : Records)
    {commit : JetstreamCommit} (unusable : ¬ commit.Usable) :
    applyCommit serde records commit = records := by
  unfold applyCommit
  cases asked : commit.toOperation with
  | none => rfl
  | some op =>
      apply op.exec_of_not_fits
      intro fits
      rw [JetstreamCommit.indexedAt_of_toOperation asked] at fits
      exact unusable ⟨fits, by rw [asked]; rfl⟩

/-! ## The single sync -/

/-- The counters after the store call of an operation. -/
def Worker.count (worker : Worker) (op : StoreOperation)
    (announcement : Option ChangeNotification) : Worker :=
  if op.isUpsert then worker.addUpserted 1 else worker.addDeleted announcement.toList.length

@[simp]
theorem Worker.store_count (worker : Worker) (op : StoreOperation)
    (announcement : Option ChangeNotification) :
    (worker.count op announcement).store = worker.store := by
  unfold count
  split <;> rfl

@[simp]
theorem Worker.cursor_count (worker : Worker) (op : StoreOperation)
    (announcement : Option ChangeNotification) :
    (worker.count op announcement).cursor = worker.cursor := by
  unfold count
  split <;> rfl

/-- The store call of `apply_single_commit`, with the cursor that is left to
record if it succeeds. -/
def writeCommit (serde : SerdeJson) (sqlite : SqliteAnswer) (commit : JetstreamCommit)
    (worker : Worker) : Option U64 × Worker :=
  match commit.toOperation with
  | none => (none, worker.addSyncErrors 1)
  | some op =>
      match (op.statementWith serde sqlite worker.store.records).1 with
      | .error _ => (none, worker.addSyncErrors 1)
      | .ok announcement =>
          (some commit.timeUs,
            ({ worker with
              store := (worker.store.execute (op.statementWith serde sqlite)).2 }).count op
                announcement)

/-- A statement that fails leaves the whole store alone. -/
theorem execute_of_error {serde : SerdeJson} {sqlite : SqliteAnswer} {op : StoreOperation}
    {store : RecordStore} {err : SkybaseError}
    (failed : (op.statementWith serde sqlite store.records).1 = .error err) :
    store.execute (op.statementWith serde sqlite) = (.error err, store) := by
  rcases op.statementWith_cases serde sqlite store.records with ⟨other, failed_eq⟩ | ⟨_, ok_eq⟩
  · rw [failed_eq] at failed
    cases failed
    rw [RecordStore.execute_eq, failed_eq]
    rfl
  · rw [ok_eq] at failed
    cases failed

theorem toOperation_of_upsert {commit : JetstreamCommit} (upserts : commit.operation ≠ .delete) :
    commit.toOperation = (commit.toRecordInput none).map .upsert :=
  if_neg upserts

theorem toOperation_of_delete {commit : JetstreamCommit} (deletes : commit.operation = .delete) :
    commit.toOperation = some (.delete commit.uri commit.timeUs) :=
  if_pos deletes

/-- The arm of `apply_single_commit` for creates and updates. -/
theorem applySingleCommit_of_upsert (serde : SerdeJson) (sqlite : SingleAnswers)
    {commit : JetstreamCommit} (worker : Worker) (upserts : commit.operation ≠ .delete) :
    applySingleCommit serde sqlite commit worker =
      match commit.toRecordInput none with
      | none => worker.addSyncErrors 1
      | some input =>
          match worker.store.upsertRecord serde sqlite.write input with
          | (.ok (), store) =>
              ((({ worker with store }).addUpserted 1).track commit.timeUs).persist
                sqlite.setCursor commit.timeUs
          | (.error _, store) => ({ worker with store }).addSyncErrors 1 := by
  unfold applySingleCommit
  cases kind : commit.operation with
  | create => rfl
  | update => rfl
  | delete => exact absurd kind upserts

/-- `apply_single_commit` writes, tracks and persists. -/
theorem applySingleCommit_eq (serde : SerdeJson) (sqlite : SingleAnswers)
    (commit : JetstreamCommit) (worker : Worker) :
    applySingleCommit serde sqlite commit worker =
      match writeCommit serde sqlite.write commit worker with
      | (none, written) => written
      | (some timeUs, written) => (written.track timeUs).persist sqlite.setCursor timeUs := by
  by_cases deletes : commit.operation = .delete
  · simp only [applySingleCommit, deletes, writeCommit, toOperation_of_delete deletes,
      RecordStore.softDeleteRecord_eq serde]
    cases outcome : ((StoreOperation.delete commit.uri commit.timeUs).statementWith serde
        sqlite.write worker.store.records).1 with
    | error err =>
        rw [execute_of_error outcome]
        rfl
    | ok announcement => cases announcement <;> rfl
  · simp only [applySingleCommit_of_upsert serde sqlite worker deletes, writeCommit,
      toOperation_of_upsert deletes, RecordStore.upsertRecord_eq]
    cases commit.toRecordInput none with
    | none => rfl
    | some input =>
        simp only [Option.map_some]
        cases outcome : ((StoreOperation.upsert input).statementWith serde sqlite.write
            worker.store.records).1 with
        | error err =>
            rw [execute_of_error outcome]
            rfl
        | ok announcement => rfl

/-- The outcome of the store call of a single sync: it fails, or it applies a
usable commit. -/
theorem writeCommit_cases (serde : SerdeJson) (sqlite : SqliteAnswer) (commit : JetstreamCommit)
    (worker : Worker) :
    (¬ (commit.Usable ∧ sqlite = none) ∧
        ∃ written, writeCommit serde sqlite commit worker = (none, written) ∧
          written.store = worker.store ∧ written.cursor = worker.cursor) ∨
      (commit.Usable ∧ sqlite = none ∧
        ∃ written, writeCommit serde sqlite commit worker = (some commit.timeUs, written) ∧
          written.store.records = applyCommit serde worker.store.records commit ∧
          written.store.skybaseMeta = worker.store.skybaseMeta ∧
          written.cursor = worker.cursor) := by
  unfold writeCommit
  cases asked : commit.toOperation with
  | none =>
      refine Or.inl ⟨?_, _, rfl, rfl, rfl⟩
      rintro ⟨⟨_, asks⟩, _⟩
      rw [asked] at asks
      cases asks
  | some op =>
      dsimp only
      by_cases succeeds : commit.Usable ∧ sqlite = none
      · rcases succeeds with ⟨usable, rfl⟩
        have fits : FitsI64 op.indexedAt := by
          rw [JetstreamCommit.indexedAt_of_toOperation asked]
          exact usable.1
        rcases op.statement_ok_of_fits serde worker.store.records fits with ⟨announcement, ok_eq⟩
        rw [RecordStore.execute_eq]
        change op.statementWith serde none worker.store.records = _ at ok_eq
        rw [ok_eq]
        refine Or.inr ⟨usable, rfl, _, rfl, ?_, ?_, ?_⟩
        · rw [Worker.store_count, applyCommit, asked, Option.elim_some]
        · rw [Worker.store_count]
        · rw [Worker.cursor_count]
      · obtain ⟨err, failed⟩ : ∃ err,
            (op.statementWith serde sqlite worker.store.records).1 = .error err := by
          cases sqlite with
          | some err =>
              rcases op.statementWith_some serde err worker.store.records with ⟨error, failed⟩
              exact ⟨error, by rw [failed]⟩
          | none =>
              have overflow : ¬ FitsI64 op.indexedAt := by
                rw [JetstreamCommit.indexedAt_of_toOperation asked]
                exact fun fits => succeeds ⟨⟨fits, by rw [asked]; rfl⟩, rfl⟩
              exact ⟨_, congrArg Prod.fst (op.statement_of_not_fits serde _ overflow)⟩
        rw [failed]
        exact Or.inl ⟨succeeds, _, rfl, rfl, rfl⟩

theorem cursor_writeCommit (serde : SerdeJson) (sqlite : SqliteAnswer) (commit : JetstreamCommit)
    (worker : Worker) : (writeCommit serde sqlite commit worker).2.cursor = worker.cursor := by
  rcases writeCommit_cases serde sqlite commit worker with
    ⟨_, written, written_eq, _, cursor_eq⟩ | ⟨_, _, written, written_eq, _, _, cursor_eq⟩
  · rw [written_eq]
    exact cursor_eq
  · rw [written_eq]
    exact cursor_eq

/-- The cursor that a single sync leaves to record is its commit's. -/
theorem left_writeCommit (serde : SerdeJson) (sqlite : SqliteAnswer) (commit : JetstreamCommit)
    (worker : Worker) :
    (writeCommit serde sqlite commit worker).1 = none ∨
      (writeCommit serde sqlite commit worker).1 = some commit.timeUs := by
  rcases writeCommit_cases serde sqlite commit worker with
    ⟨_, written, written_eq, _⟩ | ⟨_, _, written, written_eq, _⟩
  · rw [written_eq]
    exact Or.inl rfl
  · rw [written_eq]
    exact Or.inr rfl

/-! ## The batch sync -/

/-- The greatest timestamp of a buffer. -/
def latestTime (buffer : List JetstreamCommit) : Option U64 :=
  buffer.foldl
    (fun latest commit => some (latest.elim commit.timeUs fun c => max c commit.timeUs)) none

/-- The loop over the buffer collects the operations of its commits and their
greatest timestamp. -/
theorem foldl_collect (plan : FlushPlan) (buffer : List JetstreamCommit) :
    (buffer.foldl FlushPlan.collect plan).operations =
        plan.operations ++ buffer.filterMap JetstreamCommit.toOperation ∧
      (buffer.foldl FlushPlan.collect plan).latestCursor =
        buffer.foldl
          (fun latest commit => some (latest.elim commit.timeUs fun c => max c commit.timeUs))
          plan.latestCursor := by
  induction buffer generalizing plan with
  | nil => exact ⟨(List.append_nil _).symm, rfl⟩
  | cons commit buffer ih =>
      obtain ⟨operations_eq, latest_eq⟩ := ih (plan.collect commit)
      have step : (plan.collect commit).operations =
          plan.operations ++ commit.toOperation.toList ∧
            (plan.collect commit).latestCursor =
              some (plan.latestCursor.elim commit.timeUs fun c => max c commit.timeUs) := by
        by_cases deletes : commit.operation = .delete
        · rw [toOperation_of_delete deletes]
          unfold FlushPlan.collect
          rw [deletes]
          exact ⟨rfl, rfl⟩
        · rw [toOperation_of_upsert deletes]
          unfold FlushPlan.collect
          cases kind : commit.operation with
          | delete => exact absurd kind deletes
          | create =>
              cases commit.toRecordInput none with
              | none => exact ⟨(List.append_nil _).symm, rfl⟩
              | some input => exact ⟨rfl, rfl⟩
          | update =>
              cases commit.toRecordInput none with
              | none => exact ⟨(List.append_nil _).symm, rfl⟩
              | some input => exact ⟨rfl, rfl⟩
      rw [step.1, List.append_assoc] at operations_eq
      rw [step.2] at latest_eq
      refine ⟨?_, latest_eq⟩
      rw [List.foldl_cons, operations_eq, List.filterMap_cons]
      cases commit.toOperation <;> rfl

theorem operations_flushPlan (buffer : List JetstreamCommit) :
    (flushPlan buffer).operations = buffer.filterMap JetstreamCommit.toOperation :=
  (foldl_collect ⟨[], none, 0⟩ buffer).1

theorem latestCursor_flushPlan (buffer : List JetstreamCommit) :
    (flushPlan buffer).latestCursor = latestTime buffer :=
  (foldl_collect ⟨[], none, 0⟩ buffer).2

theorem latestTime_append_singleton (buffer : List JetstreamCommit) (commit : JetstreamCommit) :
    latestTime (buffer ++ [commit]) =
      some ((latestTime buffer).elim commit.timeUs fun c => max c commit.timeUs) := by
  rw [latestTime, List.foldl_append]
  rfl

/-- A nonempty buffer has a latest timestamp: one of its timestamps, which
bounds them all. -/
theorem exists_latestTime {buffer : List JetstreamCommit} (nonempty : buffer ≠ []) :
    ∃ latest, latestTime buffer = some latest ∧ (∃ commit ∈ buffer, commit.timeUs = latest) ∧
      ∀ commit ∈ buffer, commit.timeUs ≤ latest := by
  induction buffer using List.reverseRecOn with
  | nil => exact absurd rfl nonempty
  | append_singleton buffer commit ih =>
      rw [latestTime_append_singleton]
      by_cases single : buffer = []
      · subst single
        exact ⟨commit.timeUs, rfl, ⟨commit, List.mem_cons_self, rfl⟩, by simp⟩
      · rcases ih single with ⟨latest, latest_eq, ⟨newest, mem, rfl⟩, bound⟩
        rw [latest_eq, Option.elim_some]
        refine ⟨_, rfl, ?_, ?_⟩
        · rcases le_total newest.timeUs commit.timeUs with older | newer
          · exact ⟨commit, by simp, (max_eq_right older).symm⟩
          · exact ⟨newest, by simp [mem], (max_eq_left newer).symm⟩
        · intro other otherMem
          rcases List.mem_append.mp otherMem with earlier | last
          · exact (bound other earlier).trans (le_max_left _ _)
          · rw [List.mem_singleton.mp last]
            exact le_max_right _ _

/-- The transaction of `flush_commit_batch`, with the cursor that is left to
track if it commits. -/
def writeBatch (serde : SerdeJson) (sqlite : BatchAnswers) (buffer : List JetstreamCommit)
    (worker : Worker) : Option U64 × Worker :=
  let plan := flushPlan buffer
  let counted := worker.addSyncErrors plan.syncErrors
  match counted.store.applyOperationsBatch serde sqlite plan.operations plan.latestCursor with
  | (.ok batchStats, store) =>
      (plan.latestCursor,
        (({ counted with store }.addUpserted batchStats.upserted).addDeleted
          batchStats.deleted).addSyncErrors batchStats.skipped)
  | (.error _, store) => (none, { counted with store }.addSyncErrors plan.operations.length)

/-- `flush_commit_batch` writes and tracks. -/
theorem flushCommitBatch_eq (serde : SerdeJson) (sqlite : BatchAnswers)
    (buffer : List JetstreamCommit) (worker : Worker) :
    flushCommitBatch serde sqlite buffer worker =
      match writeBatch serde sqlite buffer worker with
      | (none, written) => written
      | (some timeUs, written) => written.track timeUs := by
  cases buffer with
  | nil => rfl
  | cons commit buffer =>
      rw [flushCommitBatch, writeBatch]
      simp only [List.isEmpty_cons, Bool.false_eq_true, if_false]
      rcases (worker.addSyncErrors
        (flushPlan (commit :: buffer)).syncErrors).store.applyOperationsBatch serde sqlite
          (flushPlan (commit :: buffer)).operations
          (flushPlan (commit :: buffer)).latestCursor with ⟨_ | _, store⟩
      · rfl
      · cases (flushPlan (commit :: buffer)).latestCursor <;> rfl

/-- The call of `apply_operations_batch` by a batch sync returns `Ok`. -/
def BatchSucceeds (serde : SerdeJson) (sqlite : BatchAnswers) (buffer : List JetstreamCommit)
    (store : RecordStore) : Prop :=
  (store.applyOperationsBatch serde sqlite (flushPlan buffer).operations
    (flushPlan buffer).latestCursor).1.isOk = true

instance (serde : SerdeJson) (sqlite : BatchAnswers) (buffer : List JetstreamCommit)
    (store : RecordStore) : Decidable (BatchSucceeds serde sqlite buffer store) :=
  inferInstanceAs (Decidable (_ = true))

/-- The outcome of the transaction of a batch sync: it fails, or it applies the
whole buffer and writes its latest timestamp. -/
theorem writeBatch_cases (serde : SerdeJson) (sqlite : BatchAnswers)
    (buffer : List JetstreamCommit) (worker : Worker) :
    (¬ BatchSucceeds serde sqlite buffer worker.store ∧
        ∃ written, writeBatch serde sqlite buffer worker = (none, written) ∧
          written.store = worker.store ∧ written.cursor = worker.cursor) ∨
      (BatchSucceeds serde sqlite buffer worker.store ∧
        ∃ written, writeBatch serde sqlite buffer worker = (latestTime buffer, written) ∧
          written.store = worker.store.afterBatch serde
            (buffer.filterMap JetstreamCommit.toOperation) (latestTime buffer) ∧
          written.cursor = worker.cursor) := by
  simp only [writeBatch, BatchSucceeds, operations_flushPlan, latestCursor_flushPlan]
  rcases worker.store.applyOperationsBatch_cases serde sqlite
      (buffer.filterMap JetstreamCommit.toOperation) (latestTime buffer) with
    ⟨err, failed⟩ | ⟨stats, succeeded⟩
  · simp only [Worker.store_addSyncErrors, failed]
    exact Or.inl ⟨Bool.false_ne_true, _, rfl, rfl, rfl⟩
  · simp only [Worker.store_addSyncErrors, succeeded]
    exact Or.inr ⟨rfl, _, rfl, rfl, rfl⟩

theorem cursor_writeBatch (serde : SerdeJson) (sqlite : BatchAnswers)
    (buffer : List JetstreamCommit) (worker : Worker) :
    (writeBatch serde sqlite buffer worker).2.cursor = worker.cursor := by
  rcases writeBatch_cases serde sqlite buffer worker with
    ⟨_, written, written_eq, _, cursor_eq⟩ | ⟨_, written, written_eq, _, cursor_eq⟩
  · rw [written_eq]
    exact cursor_eq
  · rw [written_eq]
    exact cursor_eq

/-- The cursor that a batch leaves to record is the timestamp of one of its
commits. -/
theorem left_writeBatch (serde : SerdeJson) (sqlite : BatchAnswers)
    {buffer : List JetstreamCommit} (worker : Worker) (nonempty : buffer ≠ []) :
    (writeBatch serde sqlite buffer worker).1 = none ∨
      ∃ commit ∈ buffer, (writeBatch serde sqlite buffer worker).1 = some commit.timeUs := by
  rcases writeBatch_cases serde sqlite buffer worker with
    ⟨_, written, written_eq, _⟩ | ⟨_, written, written_eq, _⟩
  · rw [written_eq]
    exact Or.inl rfl
  · rcases exists_latestTime nonempty with ⟨latest, latest_eq, ⟨newest, mem, rfl⟩, _⟩
    rw [written_eq]
    exact Or.inr ⟨newest, mem, latest_eq⟩

/-- Without a failure of SQLite the transaction commits. -/
theorem writeBatch_ok (serde : SerdeJson) (buffer : List JetstreamCommit) (worker : Worker) :
    ∃ written, writeBatch serde BatchAnswers.ok buffer worker = (latestTime buffer, written) ∧
      written.store = worker.store.afterBatch serde
        (buffer.filterMap JetstreamCommit.toOperation) (latestTime buffer) ∧
      written.cursor = worker.cursor := by
  simp only [writeBatch, operations_flushPlan, latestCursor_flushPlan]
  obtain ⟨stats, succeeded⟩ := worker.store.applyOperationsBatch_ok serde
    (buffer.filterMap JetstreamCommit.toOperation) (latestTime buffer)
  simp only [Worker.store_addSyncErrors, succeeded]
  exact ⟨_, rfl, rfl, rfl⟩

/-! ## The persisted cursor -/

/-- Setting a cursor makes `get_cursor` return it. -/
theorem getCursor_of_insert {store : RecordStore} {meta₀ : MetaTable} {cursor : U64}
    (written : store.skybaseMeta = meta₀.insert "cursor" cursor.text) :
    store.getCursor = .ok (some cursor) := by
  simp only [RecordStore.getCursor, RecordStore.getMeta, written, Finmap.lookup_insert,
    parseU64_text]

/-- `get_cursor` depends on the metadata only. -/
theorem getCursor_congr {first second : RecordStore}
    (same : first.skybaseMeta = second.skybaseMeta) : first.getCursor = second.getCursor := by
  simp only [RecordStore.getCursor, RecordStore.getMeta, same]

theorem getCursor_persist_ok (worker : Worker) (timeUs : U64) :
    (worker.persist none timeUs).store.getCursor = .ok (some timeUs) := by
  have written : (worker.persist none timeUs).store.skybaseMeta =
      worker.store.skybaseMeta.insert "cursor" timeUs.text := rfl
  exact getCursor_of_insert written

theorem getCursor_afterBatch (serde : SerdeJson) (operations : List StoreOperation)
    (cursor : U64) (store : RecordStore) :
    (store.afterBatch serde operations (some cursor)).getCursor = .ok (some cursor) := by
  have written : (store.afterBatch serde operations (some cursor)).skybaseMeta =
      store.skybaseMeta.insert "cursor" cursor.text := rfl
  exact getCursor_of_insert written

end Skybase.Ingest
