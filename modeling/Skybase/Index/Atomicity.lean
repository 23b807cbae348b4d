import Skybase.Index.Batch

/-!
# Atomic batches

Whatever SQLite answers to the calls of a batch, the batch either leaves the
store as it was and publishes nothing, or it executes all of its operations
that are in range, stores its cursor, and reports what it publishes and skips.
-/

namespace Skybase.Index

open Skybase.Json

namespace Transaction

/-- The counters of the transaction agree with what it collected from the
operations that it has gone through. -/
structure Counts (tx : Transaction) (ops : List StoreOperation) : Prop where
  upserted : tx.stats.upserted = tx.upsertsToNotify.length
  deleted : tx.stats.deleted = tx.deletesToNotify.length
  skipped : tx.stats.skipped = (ops.filter fun op => ¬ FitsI64 op.indexedAt).length
  total : tx.stats.upserted + tx.stats.deleted + tx.stats.skipped ≤ ops.length

theorem Counts.skip {tx : Transaction} {ops : List StoreOperation} {op : StoreOperation}
    (counts : tx.Counts ops) (overflow : ¬ FitsI64 op.indexedAt) :
    tx.skip.Counts (ops ++ [op]) := by
  have total := counts.total
  constructor
  · exact counts.upserted
  · exact counts.deleted
  · simp [Transaction.skip, overflow, counts.skipped]
  · simp only [Transaction.skip, List.length_append, List.length_singleton]
    omega

theorem Counts.note {tx : Transaction} {ops : List StoreOperation} {op : StoreOperation}
    (counts : tx.Counts ops) (fits : FitsI64 op.indexedAt) (records : Records)
    (announcement : Option ChangeNotification) :
    (tx.note records announcement).Counts (ops ++ [op]) := by
  have total := counts.total
  have skipped : tx.stats.skipped =
      ((ops ++ [op]).filter fun op => ¬ FitsI64 op.indexedAt).length := by
    simp [counts.skipped, fits]
  cases announcement with
  | none =>
      refine ⟨counts.upserted, counts.deleted, skipped, ?_⟩
      simp only [Transaction.note, List.length_append, List.length_singleton]
      omega
  | some notification =>
      cases notification with
      | upsert row =>
          refine ⟨?_, counts.deleted, skipped, ?_⟩
          · simp [Transaction.note, counts.upserted]
          · simp only [Transaction.note, List.length_append, List.length_singleton]
            omega
      | delete uri did collection rkey =>
          refine ⟨counts.upserted, ?_, skipped, ?_⟩
          · simp [Transaction.note, counts.deleted]
          · simp only [Transaction.note, List.length_append, List.length_singleton]
            omega

/-- An iteration of the loop keeps the counters right. -/
theorem Counts.advance {tx : Transaction} {ops : List StoreOperation} (counts : tx.Counts ops)
    (serde : SerdeJson) (op : StoreOperation) : (tx.advance serde op).Counts (ops ++ [op]) := by
  unfold Transaction.advance
  split
  · next fits => exact counts.note fits _ _
  · next overflow => exact counts.skip overflow

/-- The loop keeps the counters right. -/
theorem Counts.foldl {tx : Transaction} {before : List StoreOperation} (counts : tx.Counts before)
    (serde : SerdeJson) (ops : List StoreOperation) :
    (ops.foldl (Transaction.advance serde) tx).Counts (before ++ ops) := by
  induction ops generalizing tx before with
  | nil =>
      rw [List.append_nil]
      exact counts
  | cons op ops ih =>
      have after := ih (counts.advance serde op)
      rw [List.append_assoc, List.singleton_append] at after
      exact after

/-- The cursor write leaves the counters and what was collected alone. -/
theorem Counts.withCursor {tx : Transaction} {ops : List StoreOperation} (counts : tx.Counts ops)
    (cursor : Option U64) : (tx.withCursor cursor).Counts ops :=
  ⟨counts.upserted, counts.deleted, counts.skipped, counts.total⟩

end Transaction

/-- Operations with out-of-range timestamps can be left out of a run. -/
theorem runOperations_filter_fits (serde : SerdeJson) (records : Records)
    (ops : List StoreOperation) :
    runOperations serde records (ops.filter fun op => FitsI64 op.indexedAt) =
      runOperations serde records ops := by
  induction ops generalizing records with
  | nil => rfl
  | cons op ops ih =>
      by_cases fits : FitsI64 op.indexedAt
      · rw [List.filter_cons_of_pos (by simpa using fits), runOperations_cons, runOperations_cons,
          ih]
      · rw [List.filter_cons_of_neg (by simpa using fits), ih, runOperations_cons,
          op.exec_of_not_fits serde records fits]

namespace RecordStore

/-- The upserts and the deletes among the notifications of a batch. -/
theorem filter_batchNotifications (tx : Transaction) :
    ((batchNotifications tx).filter fun notification => notification.isUpsert) =
        tx.upsertsToNotify.map .upsert ∧
      ((batchNotifications tx).filter fun notification => !notification.isUpsert) =
        tx.deletesToNotify.map fun (uri, did, collection, rkey) =>
          .delete uri did collection rkey := by
  have sets : ∀ rows : List RecordRow,
      ∀ notification ∈ rows.map ChangeNotification.upsert, notification.isUpsert = true := by
    intro rows notification mem
    rcases List.mem_map.mp mem with ⟨row, _, rfl⟩
    rfl
  have clears : ∀ deletes : List (String × DeletedMeta),
      ∀ notification ∈ deletes.map fun (uri, did, collection, rkey) =>
        ChangeNotification.delete uri did collection rkey, notification.isUpsert = false := by
    intro deletes notification mem
    rcases List.mem_map.mp mem with ⟨deleted, _, rfl⟩
    rfl
  unfold batchNotifications
  constructor
  · rw [List.filter_append, List.filter_eq_self.mpr (sets _), List.filter_eq_nil_iff.mpr,
      List.append_nil]
    intro notification mem
    rw [clears _ notification mem]
    exact Bool.false_ne_true
  · rw [List.filter_append, List.filter_eq_nil_iff.mpr, List.nil_append, List.filter_eq_self.mpr]
    · intro notification mem
      rw [clears _ notification mem]
      rfl
    · intro notification mem
      rw [sets _ notification mem]
      exact Bool.false_ne_true

/-- The report of a batch that returns `Ok`. -/
theorem stats_of_applied {serde : SerdeJson} {sqlite : BatchAnswers}
    {operations : List StoreOperation} {cursor : Option U64} {store after : RecordStore}
    {stats : BatchStats}
    (applied : store.applyOperationsBatch serde sqlite operations cursor = (.ok stats, after)) :
    ∃ batch, after.bus.published = store.bus.published ++ batch ∧
      stats.upserted = (batch.filter fun notification => notification.isUpsert).length ∧
      stats.deleted = (batch.filter fun notification => !notification.isUpsert).length ∧
      stats.skipped = (operations.filter fun op => ¬ FitsI64 op.indexedAt).length ∧
      stats.upserted + stats.deleted + stats.skipped ≤ operations.length := by
  unfold applyOperationsBatch at applied
  split at applied
  · next nothing =>
      cases applied
      rw [List.isEmpty_iff.mp (Bool.and_eq_true_iff.mp nothing).1]
      exact ⟨[], (List.append_nil _).symm, rfl, rfl, rfl, Nat.le_refl 0⟩
  · cases outcome : store.runTransaction serde sqlite operations cursor with
    | error err =>
        rw [outcome] at applied
        cases applied
    | ok tx =>
        rw [outcome] at applied
        cases applied
        have begun : store.begin.Counts [] := ⟨rfl, rfl, rfl, Nat.le_refl 0⟩
        have counts := (begun.foldl serde operations).withCursor cursor
        rw [← runTransaction_eq_ok outcome, List.nil_append] at counts
        obtain ⟨upserts, deletes⟩ := filter_batchNotifications tx
        refine ⟨batchNotifications tx, BroadcastBus.published_publishAll _ _, ?_, ?_,
          counts.skipped, counts.total⟩
        · rw [upserts, List.length_map, counts.upserted]
        · rw [deletes, List.length_map, counts.deleted]

/-- Atomicity of batches.  For all answers of SQLite to the calls of a batch: if
the batch returns an error, the store is as it was, its two tables and what has
been published included.  If it returns `Ok`, the table is the left fold of the
operations in range, in list order, the cursor is stored exactly if there is
one, and the report counts the notifications published and the operations
skipped. -/
theorem applyOperationsBatch_atomic (serde : SerdeJson) (sqlite : BatchAnswers)
    (operations : List StoreOperation) (cursor : Option U64) (store : RecordStore) :
    (∀ err after, store.applyOperationsBatch serde sqlite operations cursor = (.error err, after) →
        after.records = store.records ∧ after.skybaseMeta = store.skybaseMeta ∧
          after.bus.published = store.bus.published) ∧
      ∀ stats after,
        store.applyOperationsBatch serde sqlite operations cursor = (.ok stats, after) →
          after.records =
              (operations.filter fun op => FitsI64 op.indexedAt).foldl
                (StoreOperation.exec serde) store.records ∧
            after.skybaseMeta = (cursor.elim store.skybaseMeta fun value =>
              store.skybaseMeta.insert "cursor" value.text) ∧
            ∃ batch, after.bus.published = store.bus.published ++ batch ∧
              stats.upserted = (batch.filter fun notification => notification.isUpsert).length ∧
              stats.deleted = (batch.filter fun notification => !notification.isUpsert).length ∧
              stats.skipped = (operations.filter fun op => ¬ FitsI64 op.indexedAt).length ∧
              stats.upserted + stats.deleted + stats.skipped ≤ operations.length := by
  have outcomes := store.applyOperationsBatch_cases serde sqlite operations cursor
  constructor
  · intro err after failed
    rcases outcomes with ⟨_, unchanged⟩ | ⟨_, succeeded⟩
    · rw [unchanged] at failed
      cases failed
      exact ⟨rfl, rfl, rfl⟩
    · rw [succeeded] at failed
      cases failed
  · intro stats after applied
    have report := stats_of_applied applied
    rcases outcomes with ⟨_, failed⟩ | ⟨_, succeeded⟩
    · rw [failed] at applied
      cases applied
    · rw [succeeded] at applied
      cases applied
      exact ⟨(runOperations_filter_fits serde store.records operations).symm, rfl, report⟩

end RecordStore

end Skybase.Index
