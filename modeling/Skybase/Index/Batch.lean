import Skybase.Index.Announcement

/-!
# Batches as runs of statements

Whatever SQLite answers, a batch either fails and leaves the store alone, or
it leaves the table that its operations leave as single statements, in arrival
order, and publishes their announcements with every upsert before every
delete.
-/

namespace Skybase.Index

open Skybase.Feed
open Skybase.Json

namespace ChangeNotification

/-- Whether a notification announces an upsert. -/
def isUpsert (notification : ChangeNotification) : Bool := notification.change.isSet

@[simp]
theorem isSet_columnChange (serde : SerdeJson) (notification : ChangeNotification) :
    (notification.columnChange serde).isSet = notification.isUpsert :=
  Change.isSet_map _ _

/-- The notifications with every upsert before every delete. -/
def upsertsFirst (notifications : List ChangeNotification) : List ChangeNotification :=
  notifications.filter isUpsert ++ notifications.filter fun notification => !notification.isUpsert

theorem map_upsertsFirst (serde : SerdeJson) (notifications : List ChangeNotification) :
    (upsertsFirst notifications).map (columnChange serde) =
      setsFirst (notifications.map (columnChange serde)) := by
  simp only [upsertsFirst, setsFirst, List.map_append, List.filter_map, Function.comp_def,
    isSet_columnChange]

end ChangeNotification

namespace Transaction

/-- The transaction after a statement and its announcement. -/
def note (tx : Transaction) (records : Records) : Option ChangeNotification → Transaction
  | none => { tx with records }
  | some (.upsert row) =>
      { tx with
        records
        stats := { tx.stats with upserted := tx.stats.upserted + 1 }
        upsertsToNotify := tx.upsertsToNotify ++ [row] }
  | some (.delete uri did collection rkey) =>
      { tx with
        records
        stats := { tx.stats with deleted := tx.stats.deleted + 1 }
        deletesToNotify := tx.deletesToNotify ++ [(uri, did, collection, rkey)] }

/-- What an iteration of the loop does when SQLite does not fail. -/
def advance (serde : SerdeJson) (tx : Transaction) (op : StoreOperation) : Transaction :=
  if FitsI64 op.indexedAt then tx.note (op.exec serde tx.records) (op.announced serde tx.records)
  else tx.skip

/-- An operation with an out-of-range timestamp is skipped. -/
theorem applyOperation_of_not_fits (serde : SerdeJson) (tx : Transaction)
    (answer : Except SkybaseError Unit) {op : StoreOperation} (overflow : ¬ FitsI64 op.indexedAt) :
    tx.applyOperation serde answer op = .ok tx.skip := by
  cases op with
  | upsert input =>
      have failed : i64TryFrom input.indexedAt = .error tryFromIntError :=
        i64TryFrom_of_not_fits overflow
      simp only [applyOperation, upsert, serde.toString_eq_text, failed]
  | delete uri indexedAt =>
      have failed : i64TryFrom indexedAt = .error tryFromIntError :=
        i64TryFrom_of_not_fits overflow
      simp only [applyOperation, delete, failed]

/-- Other iterations fail if SQLite does, and else execute the statement of
the operation and note its announcement. -/
theorem applyOperation_of_fits (serde : SerdeJson) (tx : Transaction)
    (answer : Except SkybaseError Unit) {op : StoreOperation} (fits : FitsI64 op.indexedAt) :
    tx.applyOperation serde answer op =
      answer.map fun _ => tx.note (op.exec serde tx.records) (op.announced serde tx.records) := by
  cases answer with
  | error err =>
      cases op with
      | upsert input =>
          have converted : i64TryFrom input.indexedAt = _ := i64TryFrom_of_fits fits
          simp only [applyOperation, upsert, serde.toString_eq_text, converted]
          rfl
      | delete uri indexedAt =>
          have converted : i64TryFrom indexedAt = _ := i64TryFrom_of_fits fits
          simp only [applyOperation, delete, converted]
          rfl
  | ok value =>
      cases op with
      | upsert input =>
          have converted : i64TryFrom input.indexedAt = _ := i64TryFrom_of_fits fits
          simp only [StoreOperation.exec, StoreOperation.announced, StoreOperation.statement,
            StoreOperation.statementWith, upsertStatement, applyOperation, upsert,
            serde.toString_eq_text, converted]
          by_cases affected : (tx.records.upsert input.uri
              (input.boundRow (serde.text input.recordJson) input.indexedAt.toInt)).1 > 0
          · simp only [affected, if_true]
            rfl
          · simp only [affected, if_false]
            rfl
      | delete uri indexedAt =>
          have converted : i64TryFrom indexedAt = _ := i64TryFrom_of_fits fits
          simp only [StoreOperation.exec, StoreOperation.announced, StoreOperation.statement,
            StoreOperation.statementWith, softDeleteStatement, applyOperation, delete, converted]
          rcases tx.records.softDelete uri indexedAt.toInt with ⟨_ | _, records⟩ <;> rfl

/-- An iteration that does not fail advances the transaction. -/
theorem applyOperation_eq_ok {serde : SerdeJson} {tx next : Transaction}
    {answer : Except SkybaseError Unit} {op : StoreOperation}
    (applied : tx.applyOperation serde answer op = .ok next) : next = tx.advance serde op := by
  by_cases fits : FitsI64 op.indexedAt
  · rw [applyOperation_of_fits serde tx answer fits] at applied
    rw [advance, if_pos fits]
    cases answer with
    | error err => cases applied
    | ok value =>
        cases applied
        rfl
  · rw [applyOperation_of_not_fits serde tx answer fits] at applied
    cases applied
    rw [advance, if_neg fits]

theorem applyOperation_ok (serde : SerdeJson) (tx : Transaction) (op : StoreOperation) :
    tx.applyOperation serde (.ok ()) op = .ok (tx.advance serde op) := by
  by_cases fits : FitsI64 op.indexedAt
  · rw [applyOperation_of_fits serde tx _ fits, advance, if_pos fits]
    rfl
  · rw [applyOperation_of_not_fits serde tx _ fits, advance, if_neg fits]

/-- A loop that does not fail advances the transaction by its operations. -/
theorem applyOperations_eq_ok {serde : SerdeJson} {sqlite : BatchAnswers} {position : Nat}
    {tx final : Transaction} {ops : List StoreOperation}
    (applied : applyOperations serde sqlite position tx ops = .ok final) :
    final = ops.foldl (advance serde) tx := by
  induction ops generalizing tx position with
  | nil =>
      cases applied
      rfl
  | cons op ops ih =>
      rw [applyOperations] at applied
      cases first : tx.applyOperation serde (sqlite.check (.operation position)) op with
      | error err =>
          rw [first] at applied
          cases applied
      | ok next =>
          rw [first] at applied
          rw [List.foldl_cons, ← applyOperation_eq_ok first]
          exact ih applied

theorem applyOperations_ok (serde : SerdeJson) (position : Nat) (tx : Transaction)
    (ops : List StoreOperation) :
    applyOperations serde BatchAnswers.ok position tx ops = .ok (ops.foldl (advance serde) tx) := by
  induction ops generalizing tx position with
  | nil => rfl
  | cons op ops ih =>
      rw [applyOperations]
      change (tx.applyOperation serde (.ok ()) op >>= fun next =>
        applyOperations serde BatchAnswers.ok (position + 1) next ops) = _
      rw [applyOperation_ok]
      exact ih (position + 1) (tx.advance serde op)

/-! ### What the loop accumulates -/

@[simp]
theorem records_note (tx : Transaction) (records : Records)
    (announcement : Option ChangeNotification) :
    (tx.note records announcement).records = records := by
  rcases announcement with _ | _ | _ <;> rfl

@[simp]
theorem skybaseMeta_note (tx : Transaction) (records : Records)
    (announcement : Option ChangeNotification) :
    (tx.note records announcement).skybaseMeta = tx.skybaseMeta := by
  rcases announcement with _ | _ | _ <;> rfl

theorem records_advance (serde : SerdeJson) (tx : Transaction) (op : StoreOperation) :
    (tx.advance serde op).records = op.exec serde tx.records := by
  unfold advance
  split
  · exact records_note _ _ _
  · next overflow => exact (op.exec_of_not_fits serde tx.records overflow).symm

theorem skybaseMeta_advance (serde : SerdeJson) (tx : Transaction) (op : StoreOperation) :
    (tx.advance serde op).skybaseMeta = tx.skybaseMeta := by
  unfold advance
  split
  · exact skybaseMeta_note _ _ _
  · rfl

theorem records_foldl (serde : SerdeJson) (tx : Transaction) (ops : List StoreOperation) :
    (ops.foldl (advance serde) tx).records = runOperations serde tx.records ops := by
  induction ops generalizing tx with
  | nil => rfl
  | cons op ops ih => rw [List.foldl_cons, ih, records_advance, runOperations_cons]

theorem skybaseMeta_foldl (serde : SerdeJson) (tx : Transaction) (ops : List StoreOperation) :
    (ops.foldl (advance serde) tx).skybaseMeta = tx.skybaseMeta := by
  induction ops generalizing tx with
  | nil => rfl
  | cons op ops ih => rw [List.foldl_cons, ih, skybaseMeta_advance]

/-- The collected upserts as notifications. -/
def upserts (tx : Transaction) : List ChangeNotification := tx.upsertsToNotify.map .upsert

/-- The collected deletes as notifications. -/
def deletes (tx : Transaction) : List ChangeNotification :=
  tx.deletesToNotify.map fun (uri, did, collection, rkey) => .delete uri did collection rkey

theorem upserts_advance (serde : SerdeJson) (tx : Transaction) (op : StoreOperation) :
    (tx.advance serde op).upserts = tx.upserts ++
      (leftToPublish (op.statement serde tx.records).1).filter ChangeNotification.isUpsert := by
  unfold advance
  split
  · change (tx.note _ _).upserts = tx.upserts ++
      (op.announced serde tx.records).toList.filter ChangeNotification.isUpsert
    rcases op.announced serde tx.records with _ | _ | _
    · exact (List.append_nil _).symm
    · exact List.map_append
    · exact (List.append_nil _).symm
  · next overflow =>
      rw [op.statement_of_not_fits serde tx.records overflow]
      exact (List.append_nil _).symm

theorem deletes_advance (serde : SerdeJson) (tx : Transaction) (op : StoreOperation) :
    (tx.advance serde op).deletes = tx.deletes ++
      (leftToPublish (op.statement serde tx.records).1).filter
        fun notification => !notification.isUpsert := by
  unfold advance
  split
  · change (tx.note _ _).deletes = tx.deletes ++
      (op.announced serde tx.records).toList.filter fun notification => !notification.isUpsert
    rcases op.announced serde tx.records with _ | _ | _
    · exact (List.append_nil _).symm
    · exact (List.append_nil _).symm
    · exact List.map_append
  · next overflow =>
      rw [op.statement_of_not_fits serde tx.records overflow]
      exact (List.append_nil _).symm

theorem upserts_foldl (serde : SerdeJson) (tx : Transaction) (ops : List StoreOperation) :
    (ops.foldl (advance serde) tx).upserts = tx.upserts ++
      (announcements serde tx.records ops).filter ChangeNotification.isUpsert := by
  induction ops generalizing tx with
  | nil => exact (List.append_nil _).symm
  | cons op ops ih =>
      rw [List.foldl_cons, ih, upserts_advance, records_advance, announcements, List.filter_append,
        List.append_assoc]

theorem deletes_foldl (serde : SerdeJson) (tx : Transaction) (ops : List StoreOperation) :
    (ops.foldl (advance serde) tx).deletes = tx.deletes ++
      (announcements serde tx.records ops).filter fun notification => !notification.isUpsert := by
  induction ops generalizing tx with
  | nil => exact (List.append_nil _).symm
  | cons op ops ih =>
      rw [List.foldl_cons, ih, deletes_advance, records_advance, announcements, List.filter_append,
        List.append_assoc]

end Transaction

/-! ## The whole batch -/

/-- The transaction after the cursor write. -/
def Transaction.withCursor (tx : Transaction) (cursor : Option U64) : Transaction :=
  { tx with
    skybaseMeta := cursor.elim tx.skybaseMeta fun value =>
      tx.skybaseMeta.insert "cursor" value.text }

theorem Transaction.writeCursor_eq_ok {sqlite : BatchAnswers} {tx next : Transaction}
    {cursor : Option U64} (written : tx.writeCursor sqlite cursor = .ok next) :
    next = tx.withCursor cursor := by
  cases cursor with
  | none =>
      cases written
      rfl
  | some value =>
      rcases Except.bind_eq_ok_iff.mp written with ⟨_, _, written⟩
      rcases Except.bind_eq_ok_iff.mp written with ⟨_, _, written⟩
      cases written
      rfl

theorem Transaction.writeCursor_ok (tx : Transaction) (cursor : Option U64) :
    tx.writeCursor BatchAnswers.ok cursor = .ok (tx.withCursor cursor) := by
  cases cursor <;> rfl

namespace RecordStore

/-- The open transaction before its first statement. -/
def begin (store : RecordStore) : Transaction :=
  ⟨store.records, store.skybaseMeta, BatchStats.default, [], []⟩

/-- A transaction that commits has executed its operations and written its
cursor, whatever SQLite could have answered otherwise. -/
theorem runTransaction_eq_ok {serde : SerdeJson} {sqlite : BatchAnswers}
    {operations : List StoreOperation} {cursor : Option U64} {store : RecordStore}
    {tx : Transaction}
    (committed : store.runTransaction serde sqlite operations cursor = .ok tx) :
    tx = (operations.foldl (Transaction.advance serde) store.begin).withCursor cursor := by
  rcases Except.bind_eq_ok_iff.mp committed with ⟨_, _, committed⟩
  obtain ⟨_, _, committed⟩ := Except.bind_eq_ok_iff.mp committed
  rcases Except.bind_eq_ok_iff.mp committed with ⟨_, _, committed⟩
  rcases Except.bind_eq_ok_iff.mp committed with ⟨looped, applied, committed⟩
  rcases Except.bind_eq_ok_iff.mp committed with ⟨final, written, committed⟩
  obtain ⟨_, _, committed⟩ := Except.bind_eq_ok_iff.mp committed
  cases committed
  rw [Transaction.writeCursor_eq_ok written, Transaction.applyOperations_eq_ok applied]
  rfl

theorem runTransaction_ok (serde : SerdeJson) (operations : List StoreOperation)
    (cursor : Option U64) (store : RecordStore) :
    ∃ tx, store.runTransaction serde BatchAnswers.ok operations cursor = .ok tx := by
  refine ⟨_, Except.bind_eq_ok_iff.mpr ⟨(), rfl, Except.bind_eq_ok_iff.mpr ⟨(), rfl,
    Except.bind_eq_ok_iff.mpr ⟨(), rfl, Except.bind_eq_ok_iff.mpr
      ⟨_, Transaction.applyOperations_ok serde 0 _ operations, Except.bind_eq_ok_iff.mpr
        ⟨_, Transaction.writeCursor_ok _ cursor, rfl⟩⟩⟩⟩⟩⟩

theorem batchNotifications_eq (serde : SerdeJson) (operations : List StoreOperation)
    (cursor : Option U64) (store : RecordStore) :
    batchNotifications
        ((operations.foldl (Transaction.advance serde) store.begin).withCursor cursor) =
      ChangeNotification.upsertsFirst (announcements serde store.records operations) := by
  have upserts := Transaction.upserts_foldl serde store.begin operations
  have deletes := Transaction.deletes_foldl serde store.begin operations
  change Transaction.upserts _ ++ Transaction.deletes _ = _
  exact congrArg₂ (· ++ ·) upserts deletes

/-- The store after a batch that does not fail. -/
def afterBatch (serde : SerdeJson) (operations : List StoreOperation) (cursor : Option U64)
    (store : RecordStore) : RecordStore where
  records := runOperations serde store.records operations
  skybaseMeta := cursor.elim store.skybaseMeta fun value =>
    store.skybaseMeta.insert "cursor" value.text
  bus := store.bus.publishAll
    (ChangeNotification.upsertsFirst (announcements serde store.records operations))

/-- A batch fails and leaves the store alone, or it does what its operations do as single
statements, and returns the counts of its loop. -/
theorem applyOperationsBatch_outcome (serde : SerdeJson) (sqlite : BatchAnswers)
    (operations : List StoreOperation) (cursor : Option U64) (store : RecordStore) :
    (∃ err, store.applyOperationsBatch serde sqlite operations cursor = (.error err, store)) ∨
      store.applyOperationsBatch serde sqlite operations cursor =
        (.ok (operations.foldl (Transaction.advance serde) store.begin).stats,
          store.afterBatch serde operations cursor) := by
  unfold applyOperationsBatch
  split
  · next nothing =>
      rcases Bool.and_eq_true_iff.mp nothing with ⟨empty, absent⟩
      rw [List.isEmpty_iff.mp empty, Option.isNone_iff_eq_none.mp absent]
      exact Or.inr rfl
  · cases outcome : store.runTransaction serde sqlite operations cursor with
    | error err => exact Or.inl ⟨err, rfl⟩
    | ok tx =>
        apply Or.inr
        have records_eq := Transaction.records_foldl serde store.begin operations
        have meta_eq := Transaction.skybaseMeta_foldl serde store.begin operations
        simp only [runTransaction_eq_ok outcome, batchNotifications_eq, afterBatch]
        simp only [Transaction.withCursor, records_eq, meta_eq]
        rfl

/-- What a batch can do to the store: nothing, if it fails, or else what its
operations do as single statements. -/
theorem applyOperationsBatch_cases (serde : SerdeJson) (sqlite : BatchAnswers)
    (operations : List StoreOperation) (cursor : Option U64) (store : RecordStore) :
    (∃ err, store.applyOperationsBatch serde sqlite operations cursor = (.error err, store)) ∨
      ∃ stats, store.applyOperationsBatch serde sqlite operations cursor =
        (.ok stats, store.afterBatch serde operations cursor) := by
  rcases applyOperationsBatch_outcome serde sqlite operations cursor store with failed | applied
  · exact Or.inl failed
  · exact Or.inr ⟨_, applied⟩

/-- Without a failure of SQLite a batch returns the counts of its loop. -/
theorem applyOperationsBatch_ok_eq (serde : SerdeJson) (operations : List StoreOperation)
    (cursor : Option U64) (store : RecordStore) :
    store.applyOperationsBatch serde BatchAnswers.ok operations cursor =
      (.ok (operations.foldl (Transaction.advance serde) store.begin).stats,
        store.afterBatch serde operations cursor) := by
  rcases applyOperationsBatch_outcome serde BatchAnswers.ok operations cursor store with
    ⟨err, failed⟩ | applied
  · unfold applyOperationsBatch at failed
    split at failed
    · cases failed
    · rcases runTransaction_ok serde operations cursor store with ⟨tx, committed⟩
      rw [committed] at failed
      cases failed
  · exact applied

/-- Without a failure of SQLite a batch succeeds. -/
theorem applyOperationsBatch_ok (serde : SerdeJson) (operations : List StoreOperation)
    (cursor : Option U64) (store : RecordStore) :
    ∃ stats, store.applyOperationsBatch serde BatchAnswers.ok operations cursor =
      (.ok stats, store.afterBatch serde operations cursor) :=
  ⟨_, applyOperationsBatch_ok_eq serde operations cursor store⟩

end RecordStore

end Skybase.Index
