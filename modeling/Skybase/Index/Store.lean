import Skybase.Error
import Skybase.Index.Broadcast
import Skybase.Index.Table

/-!
# The record store

The store is the two tables and the bus.  Every write takes the answer of
SQLite as an argument: `none` where the calls it makes succeed and the message
of the failure otherwise.  Operations that notify subscribers consist of a
statement, executed under the connection lock, and of a publication that
follows the release of the lock; the two parts are separate definitions.
-/

namespace Skybase.Index

open Skybase.Json

/-- The answer of SQLite to the calls of one statement: `none` for success,
and the message of the error otherwise. -/
abbrev SqliteAnswer := Option String

/-- `RecordStore`. -/
structure RecordStore where
  records : Records
  skybaseMeta : MetaTable
  bus : BroadcastBus

/-- A store whose schema has just been created. -/
def RecordStore.empty : RecordStore := ⟨∅, ∅, BroadcastBus.empty⟩

/-! ## Single writes -/

/-- The row that the upsert statement binds for an input. -/
def RecordInput.boundRow (input : RecordInput) (recordJsonStr : String)
    (indexedAtI64 : Int) : Row where
  cid := input.cid
  did := input.did
  collection := input.collection
  rkey := input.rkey
  recordJson := recordJsonStr
  indexedAt := indexedAtI64
  isDeleted := false

/-- `upsert_record` up to the release of the connection lock; the result holds
the notification that is left to publish. -/
def upsertStatement (serde : SerdeJson) (sqlite : SqliteAnswer) (input : RecordInput)
    (records : Records) : Except SkybaseError (Option ChangeNotification) × Records :=
  match serde.toString input.recordJson with
  | .error err => (.error (.serialization err), records)
  | .ok recordJsonStr =>
      match i64TryFrom input.indexedAt with
      | .error e => (.error (.indexedAtOutOfRange e), records)
      | .ok indexedAtI64 =>
          match sqlite with
          | some err => (.error (.storage err), records)
          | none =>
              let (rowsAffected, after) :=
                records.upsert input.uri (input.boundRow recordJsonStr indexedAtI64)
              (.ok (if rowsAffected > 0 then some (.upsert input.toRow) else none), after)

/-- The `Delete` notification for the row a statement returned. -/
def deleteNotification (uri : String) (deletedMeta : Option DeletedMeta) :
    Option ChangeNotification :=
  deletedMeta.map fun (did, collection, rkey) => .delete uri did collection rkey

/-- `soft_delete_record` up to the release of the connection lock. -/
def softDeleteStatement (sqlite : SqliteAnswer) (uri : String) (indexedAt : U64)
    (records : Records) : Except SkybaseError (Option ChangeNotification) × Records :=
  match i64TryFrom indexedAt with
  | .error e => (.error (.indexedAtOutOfRange e), records)
  | .ok indexedAtI64 =>
      match sqlite with
      | some err => (.error (.storage err), records)
      | none =>
          let (deletedMeta, after) := records.softDelete uri indexedAtI64
          (.ok (deleteNotification uri deletedMeta), after)

/-- `soft_delete_record_unversioned` up to the release of the connection lock. -/
def softDeleteUnversionedStatement (sqlite : SqliteAnswer) (uri : String)
    (records : Records) : Except SkybaseError (Option ChangeNotification) × Records :=
  match sqlite with
  | some err => (.error (.storage err), records)
  | none =>
      let (deletedMeta, after) := records.softDeleteUnversioned uri
      (.ok (deleteNotification uri deletedMeta), after)

/-- `hard_delete_record` up to the release of the connection lock. -/
def hardDeleteStatement (sqlite : SqliteAnswer) (uri : String)
    (records : Records) : Except SkybaseError (Option ChangeNotification) × Records :=
  match sqlite with
  | some err => (.error (.storage err), records)
  | none =>
      let (deletedMeta, after) := records.hardDelete uri
      (.ok (deleteNotification uri deletedMeta), after)

namespace RecordStore

/-- Run a statement under the connection lock, and publish what it left to
publish. -/
def execute (store : RecordStore)
    (statement : Records → Except SkybaseError (Option ChangeNotification) × Records) :
    Except SkybaseError (Option ChangeNotification) × RecordStore :=
  match statement store.records with
  | (.error err, records) => (.error err, { store with records })
  | (.ok none, records) => (.ok none, { store with records })
  | (.ok (some notification), records) =>
      (.ok (some notification),
        { store with records, bus := store.bus.publish notification })

/-- `RecordStore::upsert_record`. -/
def upsertRecord (serde : SerdeJson) (sqlite : SqliteAnswer) (input : RecordInput)
    (store : RecordStore) : Except SkybaseError Unit × RecordStore :=
  let (result, after) := store.execute (upsertStatement serde sqlite input)
  (result.map fun _ => (), after)

/-- `RecordStore::soft_delete_record`. -/
def softDeleteRecord (sqlite : SqliteAnswer) (uri : String) (indexedAt : U64)
    (store : RecordStore) : Except SkybaseError Bool × RecordStore :=
  let (result, after) := store.execute (softDeleteStatement sqlite uri indexedAt)
  (result.map Option.isSome, after)

/-- `RecordStore::soft_delete_record_unversioned`. -/
def softDeleteRecordUnversioned (sqlite : SqliteAnswer) (uri : String)
    (store : RecordStore) : Except SkybaseError Bool × RecordStore :=
  let (result, after) := store.execute (softDeleteUnversionedStatement sqlite uri)
  (result.map Option.isSome, after)

/-- `RecordStore::hard_delete_record`. -/
def hardDeleteRecord (sqlite : SqliteAnswer) (uri : String)
    (store : RecordStore) : Except SkybaseError Bool × RecordStore :=
  let (result, after) := store.execute (hardDeleteStatement sqlite uri)
  (result.map Option.isSome, after)

end RecordStore

/-! ## Batches -/

/-- The fallible SQLite calls of `apply_operations_batch`. -/
inductive BatchCall where
  | transaction
  | prepareUpsert
  | prepareDelete
  /-- The statement of the operation at a position of the batch. -/
  | operation (position : Nat)
  | prepareCursor
  | executeCursor
  | commit
deriving DecidableEq

/-- The answers of SQLite to the calls of one batch. -/
abbrev BatchAnswers := BatchCall → SqliteAnswer

/-- Every call of the batch succeeds. -/
def BatchAnswers.ok : BatchAnswers := fun _ => none

/-- A SQLite call that fails with the answered message. -/
def BatchAnswers.check (sqlite : BatchAnswers) (call : BatchCall) : Except SkybaseError Unit :=
  match sqlite call with
  | some err => .error (.storage err)
  | none => .ok ()

/-- The open transaction of a batch, with its local variables. -/
structure Transaction where
  records : Records
  skybaseMeta : MetaTable
  stats : BatchStats
  upsertsToNotify : List RecordRow
  deletesToNotify : List (String × DeletedMeta)

namespace Transaction

/-- `stats.skipped += 1; continue`. -/
def skip (tx : Transaction) : Transaction :=
  { tx with stats := { tx.stats with skipped := tx.stats.skipped + 1 } }

/-- The arm of the loop for `StoreOperation::Upsert`. -/
def upsert (serde : SerdeJson) (answer : Except SkybaseError Unit) (input : RecordInput)
    (tx : Transaction) : Except SkybaseError Transaction :=
  match serde.toString input.recordJson with
  | .error _ => .ok tx.skip
  | .ok recordJsonStr =>
      match i64TryFrom input.indexedAt with
      | .error _ => .ok tx.skip
      | .ok indexedAtI64 => do
          answer
          let (rowsAffected, records) :=
            tx.records.upsert input.uri (input.boundRow recordJsonStr indexedAtI64)
          if rowsAffected > 0 then
            pure { tx with
              records
              stats := { tx.stats with upserted := tx.stats.upserted + 1 }
              upsertsToNotify := tx.upsertsToNotify ++ [input.toRow] }
          else pure { tx with records }

/-- The arm of the loop for `StoreOperation::Delete`. -/
def delete (answer : Except SkybaseError Unit) (uri : String) (indexedAt : U64)
    (tx : Transaction) : Except SkybaseError Transaction :=
  match i64TryFrom indexedAt with
  | .error _ => .ok tx.skip
  | .ok indexedAtI64 => do
      answer
      match tx.records.softDelete uri indexedAtI64 with
      | (some deletedMeta, records) =>
          pure { tx with
            records
            stats := { tx.stats with deleted := tx.stats.deleted + 1 }
            deletesToNotify := tx.deletesToNotify ++ [(uri, deletedMeta)] }
      | (none, records) => pure { tx with records }

/-- One iteration of the loop over the operations. -/
def applyOperation (serde : SerdeJson) (answer : Except SkybaseError Unit) (tx : Transaction) :
    StoreOperation → Except SkybaseError Transaction
  | .upsert input => tx.upsert serde answer input
  | .delete uri indexedAt => tx.delete answer uri indexedAt

/-- The loop over the operations, from a position of the batch on. -/
def applyOperations (serde : SerdeJson) (sqlite : BatchAnswers) :
    Nat → Transaction → List StoreOperation → Except SkybaseError Transaction
  | _, tx, [] => .ok tx
  | position, tx, op :: ops => do
      let next ← tx.applyOperation serde (sqlite.check (.operation position)) op
      applyOperations serde sqlite (position + 1) next ops

/-- The cursor write of a batch. -/
def writeCursor (sqlite : BatchAnswers) (tx : Transaction) :
    Option U64 → Except SkybaseError Transaction
  | none => .ok tx
  | some cursor => do
      sqlite.check .prepareCursor
      sqlite.check .executeCursor
      pure { tx with skybaseMeta := tx.skybaseMeta.insert "cursor" cursor.text }

end Transaction

namespace RecordStore

/-- The transaction of a batch, from `BEGIN` to `COMMIT`. -/
def runTransaction (serde : SerdeJson) (sqlite : BatchAnswers)
    (operations : List StoreOperation) (cursor : Option U64) (store : RecordStore) :
    Except SkybaseError Transaction := do
  sqlite.check .transaction
  sqlite.check .prepareUpsert
  sqlite.check .prepareDelete
  let tx ← Transaction.applyOperations serde sqlite 0
    ⟨store.records, store.skybaseMeta, BatchStats.default, [], []⟩ operations
  let tx ← tx.writeCursor sqlite cursor
  sqlite.check .commit
  pure tx

/-- The notifications of a committed batch, in the order of publication. -/
def batchNotifications (tx : Transaction) : List ChangeNotification :=
  tx.upsertsToNotify.map .upsert ++
    tx.deletesToNotify.map fun (uri, did, collection, rkey) => .delete uri did collection rkey

/-- `RecordStore::apply_operations_batch`.  A transaction that is dropped
before its commit rolls back. -/
def applyOperationsBatch (serde : SerdeJson) (sqlite : BatchAnswers)
    (operations : List StoreOperation) (cursor : Option U64) (store : RecordStore) :
    Except SkybaseError BatchStats × RecordStore :=
  if operations.isEmpty && cursor.isNone then (.ok BatchStats.default, store)
  else
    match store.runTransaction serde sqlite operations cursor with
    | .error err => (.error err, store)
    | .ok tx =>
        (.ok tx.stats,
          { records := tx.records
            skybaseMeta := tx.skybaseMeta
            bus := store.bus.publishAll (batchNotifications tx) })

/-- The checks of `upsert_records_batch` on one record. -/
def checkRecord (serde : SerdeJson) (record : RecordInput) : Except SkybaseError Unit :=
  match i64TryFrom record.indexedAt with
  | .error e => .error (.indexedAtOutOfRange e)
  | .ok _ =>
      match serde.toString record.recordJson with
      | .error err => .error (.serialization err)
      | .ok _ => .ok ()

/-- `RecordStore::upsert_records_batch`. -/
def upsertRecordsBatch (serde : SerdeJson) (sqlite : BatchAnswers) (records : List RecordInput)
    (store : RecordStore) : Except SkybaseError Unit × RecordStore :=
  match records.forM (checkRecord serde) with
  | .error err => (.error err, store)
  | .ok _ =>
      let (result, after) := store.applyOperationsBatch serde sqlite (records.map .upsert) none
      (result.map fun _ => (), after)

/-- `RecordStore::soft_delete_records_batch`. -/
def softDeleteRecordsBatch (serde : SerdeJson) (sqlite : BatchAnswers)
    (items : List (String × U64)) (store : RecordStore) : Except SkybaseError Nat × RecordStore :=
  let ops := items.map fun (uri, indexedAt) => StoreOperation.delete uri indexedAt
  let (result, after) := store.applyOperationsBatch serde sqlite ops none
  (result.map BatchStats.deleted, after)

/-! ## Metadata and the cursor -/

/-- `RecordStore::get_meta`. -/
def getMeta (store : RecordStore) (key : String) : Option String :=
  store.skybaseMeta.lookup key

/-- `RecordStore::set_meta`. -/
def setMeta (sqlite : SqliteAnswer) (key value : String) (store : RecordStore) :
    Except SkybaseError Unit × RecordStore :=
  match sqlite with
  | some err => (.error (.storage err), store)
  | none => (.ok (), { store with skybaseMeta := store.skybaseMeta.insert key value })

/-- `RecordStore::get_cursor`. -/
def getCursor (store : RecordStore) : Except SkybaseError (Option U64) :=
  match store.getMeta "cursor" with
  | some s =>
      match parseU64 s with
      | .ok cursor => .ok (some cursor)
      | .error e =>
          .error (.storage s!"Corrupted cursor value in _skybase_meta: {e}")
  | none => .ok none

/-- `RecordStore::set_cursor`. -/
def setCursor (sqlite : SqliteAnswer) (cursor : U64) (store : RecordStore) :
    Except SkybaseError Unit × RecordStore :=
  store.setMeta sqlite "cursor" cursor.text

/-! ## Reads -/

/-- `map_record_row`. -/
def mapRecordRow (serde : SerdeJson) (uri : String) (row : Row) :
    Except SkybaseError RecordRow :=
  match serde.fromStr row.recordJson with
  | .error err => .error (.serialization err)
  | .ok recordJson =>
      match u64TryFrom row.indexedAt with
      | .error e => .error (.index s!"negative timestamp in database: {e}")
      | .ok indexedAt =>
          .ok
            { uri := uri
              cid := row.cid
              did := row.did
              collection := row.collection
              rkey := row.rkey
              recordJson := recordJson
              indexedAt := indexedAt
              isDeleted := row.isDeleted }

/-- `RecordStore::get_record`. -/
def getRecord (serde : SerdeJson) (uri : String) (store : RecordStore) :
    Except SkybaseError (Option RecordRow) :=
  match store.records.selectActive uri with
  | some row => (mapRecordRow serde uri row).map some
  | none => .ok none

/-- `RecordStore::get_record_including_deleted`. -/
def getRecordIncludingDeleted (serde : SerdeJson) (uri : String) (store : RecordStore) :
    Except SkybaseError (Option RecordRow) :=
  match store.records.lookup uri with
  | some row => (mapRecordRow serde uri row).map some
  | none => .ok none

end RecordStore

end Skybase.Index
