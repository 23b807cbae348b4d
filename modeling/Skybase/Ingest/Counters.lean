import Skybase.Ingest.Batching

/-!
# The counters of the consumer

The batch sync counts the rows that its statements change.  The single sync
counts a delete only if it changed its row, but every upsert that the store took
without an error, also one that was too old to change anything.  The two modes
report the changes, and hence the same numbers, exactly on the lists of commits
without such an upsert.
-/

namespace Skybase.Ingest

open Skybase.Index
open Skybase.Json
open Skybase.Register (Op)

/-! ## Changes of the table -/

/-- The commit's upsert inserts or updates a row. -/
def upsertsRow (serde : SerdeJson) (records : Records) (commit : JetstreamCommit) : Bool :=
  match commit.toOperation with
  | some (.upsert input) =>
      decide (FitsI64 input.indexedAt) &&
        decide ((records.upsert input.uri (input.row serde)).1 > 0)
  | _ => false

/-- The commit moves its row from live to deleted. -/
def deletesRow (serde : SerdeJson) (records : Records) (commit : JetstreamCommit) : Bool :=
  match records.lookup commit.uri, (applyCommit serde records commit).lookup commit.uri with
  | some before, some after => !before.isDeleted && after.isDeleted
  | _, _ => false

/-- The number of commits of a list that pass the test at their turn. -/
def countChanges (serde : SerdeJson) (changes : Records → JetstreamCommit → Bool) :
    Records → List JetstreamCommit → Nat
  | _, [] => 0
  | records, commit :: commits =>
      (changes records commit).toNat +
        countChanges serde changes (applyCommit serde records commit) commits

/-- The commit is an upsert that the store can apply. -/
def reachesUpsert (commit : JetstreamCommit) : Bool :=
  decide (commit.Usable ∧ commit.operation ≠ .delete)

theorem isUpsert_of_toOperation {commit : JetstreamCommit} {op : StoreOperation}
    (asked : commit.toOperation = some op) :
    op.isUpsert = true ↔ commit.operation ≠ .delete := by
  by_cases deletes : commit.operation = .delete
  · rw [toOperation_of_delete deletes] at asked
    cases asked
    simp [StoreOperation.isUpsert, deletes]
  · rw [toOperation_of_upsert deletes] at asked
    rcases Option.map_eq_some_iff.mp asked with ⟨input, _, rfl⟩
    simp [StoreOperation.isUpsert, deletes]

theorem reachesUpsert_of_toOperation {commit : JetstreamCommit} {op : StoreOperation}
    (asked : commit.toOperation = some op) :
    reachesUpsert commit = (op.isUpsert && decide (FitsI64 op.indexedAt)) := by
  have usable : commit.Usable ↔ FitsI64 op.indexedAt := by
    rw [JetstreamCommit.Usable, asked, JetstreamCommit.indexedAt_of_toOperation asked]
    simp
  rw [Bool.eq_iff_iff, reachesUpsert, Bool.and_eq_true, decide_eq_true_iff, decide_eq_true_iff,
    usable, isUpsert_of_toOperation asked, and_comm]

theorem upsertsRow_of_toOperation (serde : SerdeJson) (records : Records)
    {commit : JetstreamCommit} {op : StoreOperation} (asked : commit.toOperation = some op) :
    upsertsRow serde records commit = (op.isUpsert && op.accepted serde records) := by
  rw [upsertsRow, asked]
  cases op with
  | delete uri indexedAt => rfl
  | upsert input =>
      dsimp only
      rw [Records.upsert_eq]
      simp only [StoreOperation.isUpsert, StoreOperation.accepted, StoreOperation.indexedAt,
        StoreOperation.uri, StoreOperation.registerOp, Bool.true_and]
      congr 1
      cases Register.accepts (cellAt input.uri records)
        (.put input.indexedAt.toInt (input.content serde)) <;> rfl

theorem deletesRow_of_toOperation (serde : SerdeJson) (records : Records)
    {commit : JetstreamCommit} {op : StoreOperation} (asked : commit.toOperation = some op) :
    deletesRow serde records commit = (!op.isUpsert && op.accepted serde records) := by
  have uri_eq := JetstreamCommit.uri_of_toOperation asked
  rw [deletesRow, applyCommit, asked, Option.elim_some, ← uri_eq]
  rcases op.exec_cases serde records with ⟨rejected, same⟩ | ⟨accepted, row, inserted, written⟩
  · rw [same, rejected, Bool.and_false]
    cases records.lookup op.uri with
    | none => rfl
    | some stored => exact Bool.not_and_self stored.isDeleted
  · have live : row.isDeleted = !op.isUpsert := by
      have put := Register.live_of_write written.symm
      rw [StoreOperation.isPut_registerOp, Row.cell] at put
      rw [← put, Bool.not_not]
    rw [inserted, Finmap.lookup_insert, accepted, Bool.and_true]
    cases found : records.lookup op.uri with
    | some stored =>
        cases op with
        | upsert input =>
            dsimp only
            rw [live]
            exact Bool.and_false _
        | delete uri indexedAt =>
            -- Only a live row accepts a delete.
            rw [StoreOperation.accepted, cellAt, found, Option.map_some, Bool.and_eq_true]
              at accepted
            have wasLive := ((Register.accepts_remove_iff stored.cell _).mp accepted.2).2
            rw [Row.cell, Bool.not_eq_true'] at wasLive
            dsimp only
            rw [live, wasLive]
            rfl
    | none =>
        cases op with
        | upsert input => rfl
        | delete uri indexedAt =>
            rw [StoreOperation.accepted, cellAt, found, Option.map_none, Bool.and_eq_true]
              at accepted
            exact absurd accepted.2 Bool.false_ne_true

theorem upsertsRow_of_none (serde : SerdeJson) (records : Records) {commit : JetstreamCommit}
    (idle : commit.toOperation = none) : upsertsRow serde records commit = false := by
  rw [upsertsRow, idle]

theorem deletesRow_of_none (serde : SerdeJson) (records : Records) {commit : JetstreamCommit}
    (idle : commit.toOperation = none) : deletesRow serde records commit = false := by
  rw [deletesRow, applyCommit, idle, Option.elim_none]
  cases records.lookup commit.uri with
  | none => rfl
  | some stored => exact Bool.not_and_self stored.isDeleted

theorem countChanges_append (serde : SerdeJson) (changes : Records → JetstreamCommit → Bool)
    (records : Records) (first second : List JetstreamCommit) :
    countChanges serde changes records (first ++ second) =
      countChanges serde changes records first +
        countChanges serde changes (first.foldl (applyCommit serde) records) second := by
  induction first generalizing records with
  | nil => exact (Nat.zero_add _).symm
  | cons commit first ih =>
      rw [List.cons_append, countChanges, countChanges, ih, List.foldl_cons, Nat.add_assoc]

/-! ## What the batch counts -/

/-- The kind of what an operation announces, if it changes its row. -/
theorem announced_cases (serde : SerdeJson) (records : Records) (op : StoreOperation) :
    (op.accepted serde records = false ∧ op.announced serde records = none) ∨
      (op.accepted serde records = true ∧ ∃ notification,
        op.announced serde records = some notification ∧ notification.isUpsert = op.isUpsert) := by
  rcases op.statement_cases serde records with
    ⟨rejected, _, silent⟩ | ⟨accepted, row, notification, _, _, announced, change_eq⟩
  · exact Or.inl ⟨rejected, silent⟩
  · refine Or.inr ⟨accepted, notification, announced, ?_⟩
    rw [← ChangeNotification.isSet_columnChange serde, change_eq, StoreOperation.columnChange]
    cases op.isUpsert <;> rfl

/-- An iteration of the loop counts the change of its row. -/
theorem stats_advance (serde : SerdeJson) (tx : Transaction) (op : StoreOperation) :
    (tx.advance serde op).stats.upserted =
        tx.stats.upserted + (op.isUpsert && op.accepted serde tx.records).toNat ∧
      (tx.advance serde op).stats.deleted =
        tx.stats.deleted + (!op.isUpsert && op.accepted serde tx.records).toNat := by
  rw [Transaction.advance]
  by_cases fits : FitsI64 op.indexedAt
  · rw [if_pos fits]
    rcases announced_cases serde tx.records op with
      ⟨rejected, silent⟩ | ⟨accepted, notification, announced, kind⟩
    · rw [silent, rejected]
      simp [Transaction.note]
    · rw [announced, accepted, ← kind]
      cases notification with
      | upsert row => exact ⟨rfl, rfl⟩
      | delete uri did collection rkey => exact ⟨rfl, rfl⟩
  · rw [if_neg fits, StoreOperation.accepted, decide_eq_false fits]
    simp [Transaction.skip]

/-- The loop counts the changes of the commits that it got its operations from. -/
theorem stats_foldl (serde : SerdeJson) (tx : Transaction) (commits : List JetstreamCommit) :
    ((commits.filterMap JetstreamCommit.toOperation).foldl (Transaction.advance serde)
        tx).stats.upserted =
        tx.stats.upserted + countChanges serde (upsertsRow serde) tx.records commits ∧
      ((commits.filterMap JetstreamCommit.toOperation).foldl (Transaction.advance serde)
        tx).stats.deleted =
        tx.stats.deleted + countChanges serde (deletesRow serde) tx.records commits := by
  induction commits generalizing tx with
  | nil => exact ⟨rfl, rfl⟩
  | cons commit commits ih =>
      rw [List.filterMap_cons]
      cases asked : commit.toOperation with
      | none =>
          rw [countChanges, countChanges, upsertsRow_of_none serde _ asked,
            deletesRow_of_none serde _ asked, applyCommit, asked, Option.elim_none,
            Bool.toNat_false, Nat.zero_add, Nat.zero_add]
          exact ih tx
      | some op =>
          rcases stats_advance serde tx op with ⟨upserted, deleted⟩
          rcases ih (tx.advance serde op) with ⟨restUpserted, restDeleted⟩
          rw [upserted, Transaction.records_advance] at restUpserted
          rw [deleted, Transaction.records_advance] at restDeleted
          rw [countChanges, countChanges, upsertsRow_of_toOperation serde _ asked,
            deletesRow_of_toOperation serde _ asked, applyCommit, asked, Option.elim_some]
          exact ⟨restUpserted.trans (Nat.add_assoc _ _ _), restDeleted.trans (Nat.add_assoc _ _ _)⟩

/-- A batch without storage failure counts the changes of its commits. -/
theorem counts_flushCommitBatch (serde : SerdeJson) (buffer : List JetstreamCommit)
    (worker : Worker) :
    (flushCommitBatch serde BatchAnswers.ok buffer worker).stats.recordsUpserted =
        worker.stats.recordsUpserted +
          countChanges serde (upsertsRow serde) worker.store.records buffer ∧
      (flushCommitBatch serde BatchAnswers.ok buffer worker).stats.recordsDeleted =
        worker.stats.recordsDeleted +
          countChanges serde (deletesRow serde) worker.store.records buffer := by
  rcases stats_foldl serde worker.store.begin buffer with ⟨upserted, deleted⟩
  have fromZero : worker.store.begin.stats = ⟨0, 0, 0⟩ := rfl
  rw [fromZero, Nat.zero_add] at upserted deleted
  have records_eq : worker.store.begin.records = worker.store.records := rfl
  rw [records_eq] at upserted deleted
  rw [flushCommitBatch_eq, writeBatch]
  simp only [operations_flushPlan, latestCursor_flushPlan, Worker.store_addSyncErrors,
    RecordStore.applyOperationsBatch_ok_eq]
  cases latestTime buffer with
  | none => exact ⟨congrArg (worker.stats.recordsUpserted + ·) upserted,
      congrArg (worker.stats.recordsDeleted + ·) deleted⟩
  | some latest => exact ⟨congrArg (worker.stats.recordsUpserted + ·) upserted,
      congrArg (worker.stats.recordsDeleted + ·) deleted⟩

theorem counts_syncInBatches (serde : SerdeJson) (worker : Worker)
    (batches : List (List JetstreamCommit)) :
    (syncInBatches serde worker batches).stats.recordsUpserted =
        worker.stats.recordsUpserted +
          countChanges serde (upsertsRow serde) worker.store.records batches.flatten ∧
      (syncInBatches serde worker batches).stats.recordsDeleted =
        worker.stats.recordsDeleted +
          countChanges serde (deletesRow serde) worker.store.records batches.flatten := by
  induction batches generalizing worker with
  | nil => exact ⟨rfl, rfl⟩
  | cons buffer batches ih =>
      rcases counts_flushCommitBatch serde buffer worker with ⟨upserted, deleted⟩
      rcases ih (flushCommitBatch serde BatchAnswers.ok buffer worker) with
        ⟨restUpserted, restDeleted⟩
      rw [upserted, records_flushCommitBatch, Nat.add_assoc] at restUpserted
      rw [deleted, records_flushCommitBatch, Nat.add_assoc] at restDeleted
      rw [List.flatten_cons, countChanges_append, countChanges_append]
      exact ⟨restUpserted, restDeleted⟩

/-! ## What the single sync counts -/

@[simp]
theorem Worker.stats_persist (sqlite : SqliteAnswer) (worker : Worker) (timeUs : U64) :
    (worker.persist sqlite timeUs).stats = worker.stats :=
  rfl

@[simp]
theorem Worker.stats_track (worker : Worker) (timeUs : U64) :
    (worker.track timeUs).stats = worker.stats :=
  rfl

/-- A single sync counts every upsert that the store takes, and the deletes that
change their row. -/
theorem counts_applySingleCommit (serde : SerdeJson) (commit : JetstreamCommit)
    (worker : Worker) :
    (applySingleCommit serde SingleAnswers.ok commit worker).stats.recordsUpserted =
        worker.stats.recordsUpserted + (reachesUpsert commit).toNat ∧
      (applySingleCommit serde SingleAnswers.ok commit worker).stats.recordsDeleted =
        worker.stats.recordsDeleted + (deletesRow serde worker.store.records commit).toNat := by
  rw [applySingleCommit_eq, show SingleAnswers.ok.write = none from rfl, writeCommit]
  cases asked : commit.toOperation with
  | none =>
      have idle : ¬ commit.Usable := by simp [JetstreamCommit.Usable, asked]
      rw [deletesRow_of_none serde _ asked, reachesUpsert, decide_eq_false fun both => idle both.1]
      exact ⟨rfl, rfl⟩
  | some op =>
      rw [reachesUpsert_of_toOperation asked, deletesRow_of_toOperation serde _ asked]
      have with_eq : op.statementWith serde none worker.store.records =
          op.statement serde worker.store.records := rfl
      dsimp only
      by_cases fits : FitsI64 op.indexedAt
      · rcases op.statement_ok_of_fits serde worker.store.records fits with ⟨announcement, ok_eq⟩
        have told : op.announced serde worker.store.records = announcement := by
          rw [StoreOperation.announced, ok_eq]
          rfl
        rw [with_eq, ok_eq, decide_eq_true fits, Bool.and_true]
        simp only [Worker.stats_persist, Worker.stats_track, Worker.count]
        cases kind : op.isUpsert with
        | true => exact ⟨rfl, rfl⟩
        | false =>
            rcases announced_cases serde worker.store.records op with
              ⟨rejected, silent⟩ | ⟨accepted, notification, announced, _⟩
            · rw [← told, silent, rejected]
              exact ⟨rfl, rfl⟩
            · rw [← told, announced, accepted]
              exact ⟨rfl, rfl⟩
      · rw [with_eq, op.statement_of_not_fits serde _ fits, decide_eq_false fits, Bool.and_false,
          StoreOperation.accepted, decide_eq_false fits, Bool.false_and, Bool.and_false]
        exact ⟨rfl, rfl⟩

theorem counts_syncSingly (serde : SerdeJson) (worker : Worker) (commits : List JetstreamCommit) :
    (syncSingly serde worker commits).stats.recordsUpserted =
        worker.stats.recordsUpserted +
          countChanges serde (fun _ => reachesUpsert) worker.store.records commits ∧
      (syncSingly serde worker commits).stats.recordsDeleted =
        worker.stats.recordsDeleted +
          countChanges serde (deletesRow serde) worker.store.records commits := by
  induction commits generalizing worker with
  | nil => exact ⟨rfl, rfl⟩
  | cons commit commits ih =>
      rcases counts_applySingleCommit serde commit worker with ⟨upserted, deleted⟩
      rcases ih (applySingleCommit serde SingleAnswers.ok commit worker) with
        ⟨restUpserted, restDeleted⟩
      rw [upserted, records_applySingleCommit, Nat.add_assoc] at restUpserted
      rw [deleted, records_applySingleCommit, Nat.add_assoc] at restDeleted
      exact ⟨restUpserted, restDeleted⟩

/-! ## Stale upserts -/

/-- The commit, if it is an upsert that the store takes, is not older than the row
it is for. -/
def NotStale (records : Records) (commit : JetstreamCommit) : Prop :=
  commit.Usable → commit.operation ≠ .delete →
    ∀ stored, records.lookup commit.uri = some stored → stored.indexedAt ≤ commit.timeUs.toInt

/-- No commit of the list is a stale upsert at its turn. -/
def NoneStale (serde : SerdeJson) : Records → List JetstreamCommit → Prop
  | _, [] => True
  | records, commit :: commits =>
      NotStale records commit ∧ NoneStale serde (applyCommit serde records commit) commits

/-- What changes a row reaches the store. -/
theorem reachesUpsert_of_upsertsRow {serde : SerdeJson} {records : Records}
    {commit : JetstreamCommit} (upserts : upsertsRow serde records commit = true) :
    reachesUpsert commit = true := by
  cases asked : commit.toOperation with
  | none =>
      rw [upsertsRow_of_none serde records asked] at upserts
      exact absurd upserts Bool.false_ne_true
  | some op =>
      rw [upsertsRow_of_toOperation serde records asked, StoreOperation.accepted] at upserts
      rw [reachesUpsert_of_toOperation asked]
      simp only [Bool.and_eq_true] at upserts ⊢
      exact ⟨upserts.1, upserts.2.1⟩

/-- An upsert in range is taken unless a newer row is there. -/
theorem accepted_upsert_iff (serde : SerdeJson) (records : Records) {input : RecordInput}
    (fits : FitsI64 input.indexedAt) :
    (StoreOperation.upsert input).accepted serde records = true ↔
      ∀ stored, records.lookup input.uri = some stored →
        stored.indexedAt ≤ input.indexedAt.toInt := by
  have guard : (StoreOperation.upsert input).accepted serde records =
      Register.accepts (cellAt input.uri records)
        (.put input.indexedAt.toInt (input.content serde)) := by
    simp only [StoreOperation.accepted, StoreOperation.indexedAt, fits, decide_true, Bool.true_and]
    rfl
  rw [guard, cellAt]
  cases records.lookup input.uri with
  | none =>
      constructor
      · intro _ stored found
        cases found
      · exact fun _ => rfl
  | some row =>
      rw [Option.map_some, Register.accepts_put_iff, Row.cell]
      constructor
      · rintro older stored found
        cases found
        exact older
      · exact fun all => all row rfl

/-- An upsert that reaches the store changes its row unless it is stale. -/
theorem notStale_iff (serde : SerdeJson) (records : Records) (commit : JetstreamCommit) :
    NotStale records commit ↔ upsertsRow serde records commit = reachesUpsert commit := by
  cases asked : commit.toOperation with
  | none =>
      have idle : ¬ commit.Usable := by simp [JetstreamCommit.Usable, asked]
      rw [upsertsRow_of_none serde records asked, reachesUpsert,
        decide_eq_false fun both => idle both.1]
      exact ⟨fun _ => rfl, fun _ usable => absurd usable idle⟩
  | some op =>
      have kind := isUpsert_of_toOperation asked
      have uri_eq := JetstreamCommit.uri_of_toOperation asked
      have time_eq := JetstreamCommit.indexedAt_of_toOperation asked
      rw [upsertsRow_of_toOperation serde records asked, reachesUpsert_of_toOperation asked,
        NotStale, JetstreamCommit.Usable, asked, ← kind, ← uri_eq, ← time_eq]
      cases op with
      | delete uri indexedAt => simp [StoreOperation.isUpsert]
      | upsert input =>
          by_cases fits : FitsI64 input.indexedAt
          · have accepted := accepted_upsert_iff serde records fits
            simpa [StoreOperation.isUpsert, StoreOperation.indexedAt, StoreOperation.uri, fits]
              using accepted.symm
          · simp [StoreOperation.isUpsert, StoreOperation.indexedAt, StoreOperation.accepted, fits]

/-- Along a list, the upserts that reach the store are at least those that change a row,
and as many exactly if none is stale. -/
theorem countChanges_upsertsRow (serde : SerdeJson) (records : Records)
    (commits : List JetstreamCommit) :
    countChanges serde (upsertsRow serde) records commits ≤
        countChanges serde (fun _ => reachesUpsert) records commits ∧
      (countChanges serde (fun _ => reachesUpsert) records commits =
          countChanges serde (upsertsRow serde) records commits ↔
        NoneStale serde records commits) := by
  induction commits generalizing records with
  | nil => exact ⟨Nat.le_refl _, fun _ => trivial, fun _ => rfl⟩
  | cons commit commits ih =>
      rcases ih (applyCommit serde records commit) with ⟨restLe, rest_iff⟩
      have here := notStale_iff serde records commit
      have reaches : upsertsRow serde records commit = true → reachesUpsert commit = true :=
        reachesUpsert_of_upsertsRow
      rw [NoneStale, here, ← rest_iff, countChanges, countChanges]
      cases upserts : upsertsRow serde records commit with
      | true =>
          rw [reaches upserts]
          simp only [Bool.toNat_true, true_and]
          omega
      | false =>
          cases reachesUpsert commit with
          | true =>
              simp only [Bool.toNat_true, Bool.toNat_false, Bool.false_eq_true, false_and,
                iff_false]
              omega
          | false =>
              simp only [Bool.toNat_false, true_and]
              omega

/-! ## Exact counters -/

/-- The counters grew by the numbers of rows inserted or updated, and deleted, by the
commits. -/
structure CountsChanges (serde : SerdeJson) (before : Worker) (commits : List JetstreamCommit)
    (after : Worker) : Prop where
  upserted : after.stats.recordsUpserted = before.stats.recordsUpserted +
    countChanges serde (upsertsRow serde) before.store.records commits
  deleted : after.stats.recordsDeleted = before.stats.recordsDeleted +
    countChanges serde (deletesRow serde) before.store.records commits

/-- Both modes count the changes of a list of commits, whatever batches it is cut into, and
report the same numbers. -/
structure CountersExact (serde : SerdeJson) (worker : Worker)
    (batches : List (List JetstreamCommit)) : Prop where
  singly : CountsChanges serde worker batches.flatten (syncSingly serde worker batches.flatten)
  batched : CountsChanges serde worker batches.flatten (syncInBatches serde worker batches)
  upserted_eq : (syncSingly serde worker batches.flatten).stats.recordsUpserted =
    (syncInBatches serde worker batches).stats.recordsUpserted
  deleted_eq : (syncSingly serde worker batches.flatten).stats.recordsDeleted =
    (syncInBatches serde worker batches).stats.recordsDeleted

theorem countsChanges_syncInBatches (serde : SerdeJson) (worker : Worker)
    (batches : List (List JetstreamCommit)) :
    CountsChanges serde worker batches.flatten (syncInBatches serde worker batches) := by
  rcases counts_syncInBatches serde worker batches with ⟨upserted, deleted⟩
  exact ⟨upserted, deleted⟩

theorem countsChanges_syncSingly_iff (serde : SerdeJson) (worker : Worker)
    (commits : List JetstreamCommit) :
    CountsChanges serde worker commits (syncSingly serde worker commits) ↔
      NoneStale serde worker.store.records commits := by
  rcases counts_syncSingly serde worker commits with ⟨upserted, deleted⟩
  rw [← (countChanges_upsertsRow serde worker.store.records commits).2]
  constructor
  · intro counts
    exact Nat.add_left_cancel (upserted.symm.trans counts.upserted)
  · intro same
    exact ⟨by rw [upserted, same], deleted⟩

/-- The counters are exact in both modes exactly if no commit of the list is a stale upsert
at its turn; the deletes, and the batches, are always counted right. -/
theorem countersExact_iff_noneStale (serde : SerdeJson) (worker : Worker)
    (batches : List (List JetstreamCommit)) :
    (CountersExact serde worker batches ↔
        NoneStale serde worker.store.records batches.flatten) ∧
      CountsChanges serde worker batches.flatten (syncInBatches serde worker batches) ∧
      (syncSingly serde worker batches.flatten).stats.recordsDeleted =
        (syncInBatches serde worker batches).stats.recordsDeleted := by
  have batched := countsChanges_syncInBatches serde worker batches
  have singly := countsChanges_syncSingly_iff serde worker batches.flatten
  have deleted : (syncSingly serde worker batches.flatten).stats.recordsDeleted =
      (syncInBatches serde worker batches).stats.recordsDeleted := by
    rw [batched.deleted, (counts_syncSingly serde worker batches.flatten).2]
  refine ⟨⟨fun counters => singly.mp counters.singly, fun fresh => ?_⟩, batched, deleted⟩
  have counts := singly.mpr fresh
  exact ⟨counts, batched, by rw [counts.upserted, batched.upserted], deleted⟩

/-- An update older than the row it is for is counted by the single sync. -/
theorem not_countersExact_stale :
    ¬ CountersExact .scalars (newConsumer ⟨[], [], none, 16, 1⟩ RecordStore.empty)
      [[aliceCommit .create (some .null) 10], [aliceCommit .update (some .null) 5]] := by
  intro counters
  exact absurd counters.singly.upserted (by decide +kernel)

end Skybase.Ingest
