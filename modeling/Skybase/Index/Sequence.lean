import Skybase.Index.Publication

/-!
# Sequential clients and the change feed

A client that waits for each of its calls publishes what a statement left
before its next statement runs.  The feed of such a client follows the live
view call by call: a statement that touches no row is silent, and one that
touches a row is announced once.
-/

namespace Skybase.Index

open Skybase.Feed
open Skybase.Json

/-- A call that changes at most one row: one of those that may also run
concurrently, or `soft_delete_record_unversioned`. -/
inductive RecordCall where
  | client (call : ClientCall)
  | softDeleteRecordUnversioned (sqlite : SqliteAnswer) (uri : String)

namespace ClientCall

/-- SQLite executes the statement of the call, and its guard lets a row pass. -/
def Touches (records : Records) : ClientCall → Prop
  | .upsertRecord sqlite input =>
      sqlite = none ∧ FitsI64 input.indexedAt ∧
        ∀ stored, records.lookup input.uri = some stored →
          stored.indexedAt ≤ input.indexedAt.toInt
  | .softDeleteRecord sqlite uri indexedAt =>
      sqlite = none ∧ FitsI64 indexedAt ∧
        ∃ stored, records.lookup uri = some stored ∧ stored.indexedAt ≤ indexedAt.toInt ∧
          stored.isDeleted = false
  | .hardDeleteRecord sqlite uri => sqlite = none ∧ ∃ stored, records.lookup uri = some stored

end ClientCall

namespace RecordCall

/-- The part of the call under the connection lock. -/
def statement (serde : SerdeJson) :
    RecordCall → Records → Except SkybaseError (Option ChangeNotification) × Records
  | .client call => call.statement serde
  | .softDeleteRecordUnversioned sqlite uri => softDeleteUnversionedStatement sqlite uri

/-- The whole call. -/
def execute (serde : SerdeJson) (store : RecordStore) : RecordCall → RecordStore
  | .client call => call.execute serde store
  | .softDeleteRecordUnversioned sqlite uri => (store.softDeleteRecordUnversioned sqlite uri).2

/-- The URI a call is about. -/
def uri : RecordCall → String
  | .client call => call.uri
  | .softDeleteRecordUnversioned _ uri => uri

/-- SQLite executes the statement of the call, and its guard lets a row pass. -/
def Touches (records : Records) : RecordCall → Prop
  | .client call => call.Touches records
  | .softDeleteRecordUnversioned sqlite uri =>
      sqlite = none ∧ ∃ stored, records.lookup uri = some stored ∧ stored.isDeleted = false

theorem announces (serde : SerdeJson) (call : RecordCall) :
    Announces serde call.uri (call.statement serde) := by
  cases call with
  | client call => exact call.announces serde
  | softDeleteRecordUnversioned sqlite uri =>
      exact softDeleteUnversionedStatement_announces serde sqlite uri

theorem execute_eq (serde : SerdeJson) (store : RecordStore) (call : RecordCall) :
    call.execute serde store =
      { store with
        records := (call.statement serde store.records).2
        bus := store.bus.publishAll (leftToPublish (call.statement serde store.records).1) } := by
  cases call with
  | client call => exact call.execute_eq serde store
  | softDeleteRecordUnversioned sqlite uri =>
      simp only [execute, RecordStore.softDeleteRecordUnversioned, RecordStore.execute_eq,
        statement]

end RecordCall

/-! ## Statements by whether they touch a row -/

/-- The outcome of a statement that touches no row. -/
structure Silent (records : Records)
    (outcome : Except SkybaseError (Option ChangeNotification) × Records) : Prop where
  nothing : leftToPublish outcome.1 = []
  unchanged : outcome.2 = records

/-- The outcome of a statement that touches the row of a URI: it leaves one
notification, and one that announces an upsert holds the columns of the row. -/
structure Announced (serde : SerdeJson) (uri : String) (notification : ChangeNotification)
    (outcome : Except SkybaseError (Option ChangeNotification) × Records) : Prop where
  alone : leftToPublish outcome.1 = [notification]
  about : notification.uri = uri
  holds : ∀ row, notification = .upsert row →
    ∃ written, outcome.2.lookup uri = some written ∧ row.columns serde = (uri, written)

/-- A deletion is announced without columns. -/
theorem announced_delete (serde : SerdeJson) (uri : String) (deletedMeta : DeletedMeta)
    (records : Records) :
    Announced serde uri (.delete uri deletedMeta.1 deletedMeta.2.1 deletedMeta.2.2)
      (.ok (deleteNotification uri (some deletedMeta)), records) := by
  constructor
  · rfl
  · rfl
  · intro row absurd
    cases absurd

theorem upsertStatement_outcome (serde : SerdeJson) (sqlite : SqliteAnswer) (input : RecordInput)
    (records : Records) :
    (¬ (ClientCall.upsertRecord sqlite input).Touches records ∧
        Silent records (upsertStatement serde sqlite input records)) ∨
      ((ClientCall.upsertRecord sqlite input).Touches records ∧
        Announced serde input.uri (.upsert input.toRow)
          (upsertStatement serde sqlite input records)) := by
  unfold upsertStatement
  rw [serde.toString_eq_text]
  by_cases fits : FitsI64 input.indexedAt
  · cases sqlite with
    | some err =>
        rw [i64TryFrom_of_fits fits]
        exact Or.inl ⟨fun touches => Option.some_ne_none err touches.1, rfl, rfl⟩
    | none =>
        -- the input's columns are those that the statement writes
        have bound : input.boundRow (serde.text input.recordJson) input.indexedAt.toInt =
            input.row serde := rfl
        simp only [i64TryFrom_of_fits fits, bound, Records.upsert]
        have inserted : Announced serde input.uri (.upsert input.toRow)
            (.ok (some (.upsert input.toRow)), records.insert input.uri (input.row serde)) := by
          refine ⟨rfl, rfl, ?_⟩
          rintro row ⟨⟩
          exact ⟨input.row serde, Finmap.lookup_insert records, rfl⟩
        cases found : records.lookup input.uri with
        | none =>
            refine Or.inr ⟨⟨rfl, fits, ?_⟩, inserted⟩
            intro stored absurd
            rw [found] at absurd
            cases absurd
        | some stored =>
            by_cases newer : stored.indexedAt ≤ input.indexedAt.toInt
            · have passes : (input.row serde).indexedAt ≥ stored.indexedAt := newer
              simp only [passes, if_true]
              refine Or.inr ⟨⟨rfl, fits, ?_⟩, inserted⟩
              intro other same
              rw [found] at same
              cases same
              exact newer
            · have fails : ¬ (input.row serde).indexedAt ≥ stored.indexedAt := newer
              simp only [fails, if_false]
              exact Or.inl ⟨fun touches => newer (touches.2.2 stored found), rfl, rfl⟩
  · rw [i64TryFrom_of_not_fits fits]
    exact Or.inl ⟨fun touches => fits touches.2.1, rfl, rfl⟩

theorem softDeleteStatement_outcome (serde : SerdeJson) (sqlite : SqliteAnswer) (uri : String)
    (indexedAt : U64) (records : Records) :
    (¬ (ClientCall.softDeleteRecord sqlite uri indexedAt).Touches records ∧
        Silent records (softDeleteStatement sqlite uri indexedAt records)) ∨
      ((ClientCall.softDeleteRecord sqlite uri indexedAt).Touches records ∧ ∃ notification,
        Announced serde uri notification (softDeleteStatement sqlite uri indexedAt records)) := by
  unfold softDeleteStatement
  by_cases fits : FitsI64 indexedAt
  · cases sqlite with
    | some err =>
        rw [i64TryFrom_of_fits fits]
        exact Or.inl ⟨fun touches => Option.some_ne_none err touches.1, rfl, rfl⟩
    | none =>
        simp only [i64TryFrom_of_fits fits, Records.softDelete]
        cases found : records.lookup uri with
        | none =>
            refine Or.inl ⟨?_, rfl, rfl⟩
            rintro ⟨_, _, stored, absurd, _⟩
            rw [found] at absurd
            cases absurd
        | some stored =>
            by_cases passes : indexedAt.toInt ≥ stored.indexedAt ∧ stored.isDeleted = false
            · simp only [passes, and_self, if_true]
              exact Or.inr ⟨⟨rfl, fits, stored, found, passes.1, passes.2⟩, _,
                announced_delete serde uri stored.deletedMeta _⟩
            · simp only [passes, if_false]
              refine Or.inl ⟨?_, rfl, rfl⟩
              rintro ⟨_, _, other, same, newer, live⟩
              rw [found] at same
              cases same
              exact passes ⟨newer, live⟩
  · rw [i64TryFrom_of_not_fits fits]
    exact Or.inl ⟨fun touches => fits touches.2.1, rfl, rfl⟩

theorem softDeleteUnversionedStatement_outcome (serde : SerdeJson) (sqlite : SqliteAnswer)
    (uri : String) (records : Records) :
    (¬ (RecordCall.softDeleteRecordUnversioned sqlite uri).Touches records ∧
        Silent records (softDeleteUnversionedStatement sqlite uri records)) ∨
      ((RecordCall.softDeleteRecordUnversioned sqlite uri).Touches records ∧ ∃ notification,
        Announced serde uri notification (softDeleteUnversionedStatement sqlite uri records)) := by
  unfold softDeleteUnversionedStatement
  cases sqlite with
  | some err => exact Or.inl ⟨fun touches => Option.some_ne_none err touches.1, rfl, rfl⟩
  | none =>
      simp only [Records.softDeleteUnversioned]
      cases found : records.lookup uri with
      | none =>
          refine Or.inl ⟨?_, rfl, rfl⟩
          rintro ⟨_, stored, absurd, _⟩
          rw [found] at absurd
          cases absurd
      | some stored =>
          by_cases live : stored.isDeleted = false
          · simp only [live, if_true]
            exact Or.inr ⟨⟨rfl, stored, found, live⟩, _,
              announced_delete serde uri stored.deletedMeta _⟩
          · simp only [live]
            refine Or.inl ⟨?_, rfl, rfl⟩
            rintro ⟨_, other, same, otherLive⟩
            rw [found] at same
            cases same
            exact live otherLive

theorem hardDeleteStatement_outcome (serde : SerdeJson) (sqlite : SqliteAnswer) (uri : String)
    (records : Records) :
    (¬ (ClientCall.hardDeleteRecord sqlite uri).Touches records ∧
        Silent records (hardDeleteStatement sqlite uri records)) ∨
      ((ClientCall.hardDeleteRecord sqlite uri).Touches records ∧ ∃ notification,
        Announced serde uri notification (hardDeleteStatement sqlite uri records)) := by
  unfold hardDeleteStatement
  cases sqlite with
  | some err => exact Or.inl ⟨fun touches => Option.some_ne_none err touches.1, rfl, rfl⟩
  | none =>
      simp only [Records.hardDelete]
      cases found : records.lookup uri with
      | none =>
          refine Or.inl ⟨?_, rfl, rfl⟩
          rintro ⟨_, stored, absurd⟩
          rw [found] at absurd
          cases absurd
      | some stored =>
          exact Or.inr ⟨⟨rfl, stored, found⟩, _, announced_delete serde uri stored.deletedMeta _⟩

namespace RecordCall

/-- What the statement of a call can do. -/
theorem statement_outcome (serde : SerdeJson) (call : RecordCall) (records : Records) :
    (¬ call.Touches records ∧ Silent records (call.statement serde records)) ∨
      (call.Touches records ∧ ∃ notification,
        Announced serde call.uri notification (call.statement serde records)) := by
  cases call with
  | client call =>
      cases call with
      | upsertRecord sqlite input =>
          rcases upsertStatement_outcome serde sqlite input records with silent | ⟨touches, told⟩
          · exact Or.inl silent
          · exact Or.inr ⟨touches, _, told⟩
      | softDeleteRecord sqlite uri indexedAt =>
          exact softDeleteStatement_outcome serde sqlite uri indexedAt records
      | hardDeleteRecord sqlite uri => exact hardDeleteStatement_outcome serde sqlite uri records
  | softDeleteRecordUnversioned sqlite uri =>
      exact softDeleteUnversionedStatement_outcome serde sqlite uri records

/-- A call that touches no row leaves the whole store alone. -/
theorem execute_of_not_touches (serde : SerdeJson) (store : RecordStore) {call : RecordCall}
    (untouched : ¬ call.Touches store.records) : call.execute serde store = store := by
  rcases call.statement_outcome serde store.records with ⟨_, silent⟩ | ⟨touches, _⟩
  · rw [execute_eq, silent.nothing, silent.unchanged]
    rfl
  · exact absurd touches untouched

/-- A call that touches a row publishes one notification, about that row. -/
theorem execute_of_touches (serde : SerdeJson) (store : RecordStore) {call : RecordCall}
    (touches : call.Touches store.records) :
    ∃ notification,
      (call.execute serde store).bus.published = store.bus.published ++ [notification] ∧
      notification.uri = call.uri ∧
      ∀ row, notification = .upsert row → ∃ written,
        (call.execute serde store).records.lookup call.uri = some written ∧
          row.columns serde = (call.uri, written) := by
  rcases call.statement_outcome serde store.records with ⟨untouched, _⟩ | ⟨_, notification, told⟩
  · exact absurd touches untouched
  · exists notification
    rw [execute_eq, told.alone]
    exact ⟨rfl, told.about, told.holds⟩

end RecordCall

/-! ## Sequences of calls -/

/-- The store after a sequence of calls. -/
def runRecordCalls (serde : SerdeJson) (store : RecordStore) (calls : List RecordCall) :
    RecordStore :=
  calls.foldl (RecordCall.execute serde) store

/-- What a sequence of calls publishes replays its effect on the live view. -/
theorem liveView_runRecordCalls (serde : SerdeJson) (store : RecordStore)
    (calls : List RecordCall) :
    ∃ batch, (runRecordCalls serde store calls).bus.published = store.bus.published ++ batch ∧
      (runRecordCalls serde store calls).records.liveView =
        replay store.records.liveView (batch.map (ChangeNotification.columnChange serde)) := by
  induction calls generalizing store with
  | nil => exact ⟨[], (List.append_nil _).symm, rfl⟩
  | cons call calls ih =>
      rcases ih (call.execute serde store) with ⟨batch, published, followed⟩
      have effect := (call.announces serde).effect store.records
      rw [RecordCall.execute_eq] at published followed
      exists leftToPublish (call.statement serde store.records).1 ++ batch
      constructor
      · rw [BroadcastBus.published_publishAll, List.append_assoc] at published
        rw [← published, ← RecordCall.execute_eq]
        rfl
      · rw [List.map_append, replay_append, ← effect, ← followed, ← RecordCall.execute_eq]
        rfl

/-- The feed of a sequential client.  Folding what a sequence of calls
publishes over the live view before it gives the live view after it, for the
columns of the rows and for a subscriber's copy of them.  In the sequence, a
call whose statement touches no row leaves the store alone, and any other call
publishes one notification about its URI, which for an upsert holds the columns
just written. -/
theorem feed_mirrors_runRecordCalls (serde : SerdeJson) (store : RecordStore)
    (calls : List RecordCall) :
    (∃ batch, (runRecordCalls serde store calls).bus.published = store.bus.published ++ batch ∧
      replay store.records.liveView (batch.map (ChangeNotification.columnChange serde)) =
        (runRecordCalls serde store calls).records.liveView ∧
      ∀ mirror : Mirror, mirror.columns serde = store.records.liveView →
        (mirror.receive batch).columns serde =
          (runRecordCalls serde store calls).records.liveView) ∧
      ∀ before call after, calls = before ++ call :: after →
        let source := runRecordCalls serde store before
        (¬ call.Touches source.records → call.execute serde source = source) ∧
          (call.Touches source.records → ∃ notification,
            (call.execute serde source).bus.published =
                source.bus.published ++ [notification] ∧
              notification.uri = call.uri ∧
              ∀ row, notification = .upsert row → ∃ written,
                (call.execute serde source).records.lookup call.uri = some written ∧
                  row.columns serde = (call.uri, written)) := by
  constructor
  · rcases liveView_runRecordCalls serde store calls with ⟨batch, published, followed⟩
    exists batch, published, followed.symm
    intro mirror mirrors
    rw [Mirror.columns_receive, mirrors, followed]
  · intro before call after _ source
    constructor
    · exact RecordCall.execute_of_not_touches serde source
    · exact RecordCall.execute_of_touches serde source

end Skybase.Index
