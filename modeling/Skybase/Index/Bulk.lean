import Skybase.Index.Hydration

/-!
# Bulk calls

A batch publishes its upserts before its deletes.  A bulk call only upserts or
only deletes, so that its batch publishes in arrival order: it does to the store
what single calls do, one after the other, and `soft_delete_records_batch`
returns how many of these would have returned `true`.
-/

namespace Skybase.Index

open Skybase.Json

/-! ## Counts of a batch -/

namespace Transaction

/-- The statistics count what is collected for publication. -/
structure Counted (tx : Transaction) : Prop where
  upserted : tx.stats.upserted = tx.upserts.length
  deleted : tx.stats.deleted = tx.deletes.length

theorem counted_note {tx : Transaction} (counted : tx.Counted) (records : Records)
    (announcement : Option ChangeNotification) : (tx.note records announcement).Counted := by
  have upserted := counted.upserted
  have deleted := counted.deleted
  rw [upserts, List.length_map] at upserted
  rw [deletes, List.length_map] at deleted
  rcases announcement with _ | _ | _
  · exact ⟨counted.upserted, counted.deleted⟩
  · constructor
    · simp only [note, upserts, List.length_map, List.length_append, upserted]
      rfl
    · exact counted.deleted
  · constructor
    · exact counted.upserted
    · simp only [note, deletes, List.length_map, List.length_append, deleted]
      rfl

theorem counted_advance {tx : Transaction} (counted : tx.Counted) (serde : SerdeJson)
    (op : StoreOperation) : (tx.advance serde op).Counted := by
  unfold advance
  split
  · exact counted_note counted _ _
  · exact ⟨counted.upserted, counted.deleted⟩

theorem counted_foldl {tx : Transaction} (counted : tx.Counted) (serde : SerdeJson)
    (ops : List StoreOperation) : (ops.foldl (advance serde) tx).Counted := by
  induction ops generalizing tx with
  | nil => exact counted
  | cons op ops ih => exact ih (counted_advance counted serde op)

end Transaction

theorem RecordStore.counted_begin (store : RecordStore) : store.begin.Counted := ⟨rfl, rfl⟩

/-! ## Single calls -/

/-- The call that performs an operation alone, where SQLite does not fail. -/
def StoreOperation.single : StoreOperation → RecordCall
  | .upsert input => .client (.upsertRecord none input)
  | .delete uri indexedAt => .client (.softDeleteRecord none uri indexedAt)

theorem StoreOperation.statement_single (serde : SerdeJson) (op : StoreOperation) :
    op.single.statement serde = op.statement serde := by
  cases op <;> rfl

/-- Single calls publish what they announce, as they announce it. -/
theorem runRecordCalls_singles (serde : SerdeJson) (store : RecordStore)
    (ops : List StoreOperation) :
    runRecordCalls serde store (ops.map StoreOperation.single) =
      { records := runOperations serde store.records ops
        skybaseMeta := store.skybaseMeta
        bus := store.bus.publishAll (announcements serde store.records ops) } := by
  induction ops generalizing store with
  | nil => rfl
  | cons op ops ih =>
      have first := op.single.execute_eq serde store
      rw [StoreOperation.statement_single] at first
      rw [List.map_cons]
      change runRecordCalls serde (op.single.execute serde store) _ = _
      rw [ih, first, announcements, BroadcastBus.publishAll, BroadcastBus.publishAll,
        BroadcastBus.publishAll, List.foldl_append]
      rfl

/-- A batch without a cursor does what the single calls do exactly if no upsert
is announced after a delete. -/
theorem afterBatch_eq_singles_iff (serde : SerdeJson) (store : RecordStore)
    (ops : List StoreOperation) :
    store.afterBatch serde ops none =
        runRecordCalls serde store (ops.map StoreOperation.single) ↔
      ChangeNotification.upsertsFirst (announcements serde store.records ops) =
        announcements serde store.records ops := by
  rw [runRecordCalls_singles, RecordStore.afterBatch]
  constructor
  · intro same
    have published := congrArg (fun after => after.bus.published) same
    dsimp only at published
    rw [BroadcastBus.published_publishAll, BroadcastBus.published_publishAll] at published
    exact List.append_cancel_left published
  · intro ordered
    rw [ordered]
    rfl

/-- What an operation announces is of its kind. -/
theorem StoreOperation.isUpsert_announced {serde : SerdeJson} {op : StoreOperation}
    {records : Records} {notification : ChangeNotification}
    (mem : notification ∈ leftToPublish (op.statement serde records).1) :
    notification.isUpsert = op.isUpsert := by
  have announced : op.announced serde records = some notification := Option.mem_toList.mp mem
  rcases statement_cases serde records op with
    ⟨_, _, silent⟩ | ⟨_, row, told, _, _, told_eq, change_eq⟩
  · rw [silent] at announced
    cases announced
  · rw [told_eq] at announced
    cases announced
    have kinds := congrArg Feed.Change.isSet change_eq
    rw [ChangeNotification.isSet_columnChange] at kinds
    rw [kinds, columnChange]
    cases op.isUpsert <;> rfl

theorem isUpsert_announcements {serde : SerdeJson} {kind : Bool} {ops : List StoreOperation}
    (uniform : ∀ op ∈ ops, op.isUpsert = kind) (records : Records) :
    ∀ notification ∈ announcements serde records ops, notification.isUpsert = kind := by
  induction ops generalizing records with
  | nil =>
      intro notification absurd
      cases absurd
  | cons op ops ih =>
      rw [List.forall_mem_cons] at uniform
      intro notification mem
      rcases List.mem_append.mp mem with here | later
      · exact (StoreOperation.isUpsert_announced here).trans uniform.1
      · exact ih uniform.2 _ notification later

/-- Notifications of one kind are in order. -/
theorem upsertsFirst_of_uniform {kind : Bool} {notifications : List ChangeNotification}
    (uniform : ∀ notification ∈ notifications, notification.isUpsert = kind) :
    ChangeNotification.upsertsFirst notifications = notifications := by
  rw [ChangeNotification.upsertsFirst]
  cases kind with
  | true =>
      rw [List.filter_eq_self.mpr uniform, List.filter_eq_nil_iff.mpr, List.append_nil]
      intro notification mem
      rw [uniform notification mem]
      exact Bool.false_ne_true
  | false =>
      have kept : ∀ notification ∈ notifications, (!notification.isUpsert) = true := by
        intro notification mem
        rw [uniform notification mem]
        rfl
      rw [List.filter_eq_self.mpr kept, List.filter_eq_nil_iff.mpr, List.nil_append]
      intro notification mem
      rw [uniform notification mem]
      exact Bool.false_ne_true

theorem afterBatch_of_uniform (serde : SerdeJson) (store : RecordStore) {kind : Bool}
    {ops : List StoreOperation} (uniform : ∀ op ∈ ops, op.isUpsert = kind) :
    store.afterBatch serde ops none =
      runRecordCalls serde store (ops.map StoreOperation.single) :=
  (afterBatch_eq_singles_iff serde store ops).mpr
    (upsertsFirst_of_uniform (isUpsert_announcements uniform store.records))

/-! ## Bulk calls -/

namespace RecordStore

/-- What `soft_delete_record` returns for items, one after the other. -/
def softDeleteResults (store : RecordStore) : List (String × U64) → List (Except SkybaseError Bool)
  | [] => []
  | (uri, indexedAt) :: items =>
      (store.softDeleteRecord none uri indexedAt).1 ::
        softDeleteResults (store.softDeleteRecord none uri indexedAt).2 items

/-- The operations of `soft_delete_records_batch`. -/
def deletions (items : List (String × U64)) : List StoreOperation :=
  items.map fun (uri, indexedAt) => .delete uri indexedAt

/-- A single call returns `true` exactly if it announces a deletion. -/
theorem countP_softDeleteResults (serde : SerdeJson) (store : RecordStore)
    (items : List (String × U64)) :
    (store.softDeleteResults items).countP (fun result => result.toOption == some true) =
      (announcements serde store.records (deletions items)).length := by
  induction items generalizing store with
  | nil => rfl
  | cons item items ih =>
      rcases item with ⟨uri, indexedAt⟩
      have call := store.softDeleteRecord_eq serde none uri indexedAt
      have after : (store.softDeleteRecord none uri indexedAt).2.records =
          (StoreOperation.delete uri indexedAt).exec serde store.records := by
        rw [call, execute_eq]
        rfl
      have result : (store.softDeleteRecord none uri indexedAt).1 =
          ((StoreOperation.delete uri indexedAt).statement serde store.records).1.map
            Option.isSome := by
        rw [call]
        rfl
      have first : deletions ((uri, indexedAt) :: items) =
          .delete uri indexedAt :: deletions items := rfl
      rw [softDeleteResults, List.countP_cons, ih, after, result, first, announcements,
        List.length_append, Nat.add_comm]
      congr 1
      rcases ((StoreOperation.delete uri indexedAt).statement serde store.records).1 with
        _ | _ | _ <;> rfl

/-- The checks of `upsert_records_batch` pass exactly if all timestamps fit. -/
theorem forM_checkRecord_isOk_iff (serde : SerdeJson) (records : List RecordInput) :
    (records.forM (checkRecord serde)).isOk = true ↔
      ∀ record ∈ records, FitsI64 record.indexedAt := by
  induction records with
  | nil => exact iff_of_true rfl fun _ mem => nomatch mem
  | cons record records ih =>
      rw [List.forall_mem_cons, ← ih]
      change (checkRecord serde record >>= fun _ => records.forM (checkRecord serde)).isOk =
        true ↔ _
      rw [checkRecord]
      by_cases fits : FitsI64 record.indexedAt
      · rw [i64TryFrom_of_fits fits, and_iff_right fits]
        dsimp only
        rw [serde.toString_eq_text]
        rfl
      · rw [i64TryFrom_of_not_fits fits]
        exact iff_of_false Bool.false_ne_true fun both => fits both.1

end RecordStore

/-- Bulk calls agree with single ones.  Whatever SQLite answers, a bulk call
fails and leaves the store alone, or it leaves the whole store, with its table
and its notifications, as the single calls do, one after the other, and a bulk
deletion returns how many of these return `true`.  Where SQLite does not fail, a
bulk upsert succeeds exactly if all timestamps fit, and a bulk deletion always.
A batch of both kinds agrees exactly if no upsert is announced after a delete. -/
theorem bulk_eq_singles (serde : SerdeJson) (store : RecordStore) :
    (∀ (sqlite : BatchAnswers) (records : List RecordInput),
      (∃ err, store.upsertRecordsBatch serde sqlite records = (.error err, store)) ∨
        store.upsertRecordsBatch serde sqlite records =
          (.ok (), runRecordCalls serde store
            (records.map fun input => .client (.upsertRecord none input)))) ∧
    (∀ records : List RecordInput,
      (store.upsertRecordsBatch serde BatchAnswers.ok records).1.isOk = true ↔
        ∀ record ∈ records, FitsI64 record.indexedAt) ∧
    (∀ (sqlite : BatchAnswers) (items : List (String × U64)),
      (∃ err, store.softDeleteRecordsBatch serde sqlite items = (.error err, store)) ∨
        store.softDeleteRecordsBatch serde sqlite items =
          (.ok ((store.softDeleteResults items).countP fun result =>
              result.toOption == some true),
            runRecordCalls serde store (items.map fun item =>
              .client (.softDeleteRecord none item.1 item.2)))) ∧
    (∀ items : List (String × U64),
      (store.softDeleteRecordsBatch serde BatchAnswers.ok items).1.isOk = true) ∧
    ∀ operations : List StoreOperation,
      (store.applyOperationsBatch serde BatchAnswers.ok operations none).2 =
          runRecordCalls serde store (operations.map StoreOperation.single) ↔
        ChangeNotification.upsertsFirst (announcements serde store.records operations) =
          announcements serde store.records operations := by
  refine ⟨?_, ?_, ?_, ?_, ?_⟩
  · intro sqlite records
    have uniform : ∀ op ∈ records.map StoreOperation.upsert, op.isUpsert = true := by
      intro op mem
      rcases List.mem_map.mp mem with ⟨input, _, rfl⟩
      rfl
    rcases store.upsertRecordsBatch_cases serde sqlite records with failed | succeeded
    · exact .inl failed
    · rw [afterBatch_of_uniform serde store uniform, List.map_map] at succeeded
      exact .inr succeeded
  · intro records
    rw [← RecordStore.forM_checkRecord_isOk_iff serde, RecordStore.upsertRecordsBatch]
    cases records.forM (RecordStore.checkRecord serde) with
    | error err => rfl
    | ok passed =>
        dsimp only
        rw [RecordStore.applyOperationsBatch_ok_eq]
        rfl
  · intro sqlite items
    have uniform : ∀ op ∈ RecordStore.deletions items, op.isUpsert = false := by
      intro op mem
      rcases List.mem_map.mp mem with ⟨item, _, rfl⟩
      rfl
    have counted := Transaction.counted_foldl store.counted_begin serde
      (RecordStore.deletions items)
    have silent : (announcements serde store.records (RecordStore.deletions items)).filter
        (fun notification => !notification.isUpsert) =
          announcements serde store.records (RecordStore.deletions items) := by
      rw [List.filter_eq_self]
      intro notification mem
      rw [isUpsert_announcements uniform store.records notification mem]
      rfl
    have number : ((RecordStore.deletions items).foldl (Transaction.advance serde)
        store.begin).stats.deleted =
          (store.softDeleteResults items).countP fun result => result.toOption == some true := by
      rw [counted.deleted, Transaction.deletes_foldl, RecordStore.countP_softDeleteResults serde]
      exact congrArg List.length silent
    unfold RecordStore.softDeleteRecordsBatch
    dsimp only
    rcases RecordStore.applyOperationsBatch_outcome serde sqlite (RecordStore.deletions items) none
        store with ⟨err, failed⟩ | applied
    · rw [← RecordStore.deletions, failed]
      exact .inl ⟨err, rfl⟩
    · rw [← RecordStore.deletions, applied, afterBatch_of_uniform serde store uniform,
        RecordStore.deletions, List.map_map]
      exact .inr (Prod.ext (congrArg Except.ok number) rfl)
  · intro items
    unfold RecordStore.softDeleteRecordsBatch
    dsimp only
    rw [RecordStore.applyOperationsBatch_ok_eq]
    rfl
  · intro operations
    rw [RecordStore.applyOperationsBatch_ok_eq]
    exact afterBatch_eq_singles_iff serde store operations

end Skybase.Index
