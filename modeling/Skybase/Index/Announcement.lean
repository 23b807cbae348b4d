import Skybase.Index.Refinement

/-!
# Announcements and the live view

The live view of a table maps every URI to its row unless the row is absent or
soft-deleted.  Every statement of the store leaves a notification to publish
that describes exactly how it changed the live view, so that a subscriber who
folds the notifications in the order of the statements follows the table.
-/

namespace Skybase.Index

open Skybase.Feed
open Skybase.Json

/-! ## The live view -/

/-- The live rows with their URIs. -/
def Records.liveView (records : Records) (uri : String) : Option (String × Row) :=
  (records.selectActive uri).map fun row => (uri, row)

/-- The columns of the rows that a subscriber holds. -/
def Mirror.columns (serde : SerdeJson) (mirror : Mirror) (uri : String) : Option (String × Row) :=
  (mirror uri).map (RecordRow.columns serde)

/-- The view after received notifications is the replay of their changes. -/
theorem Mirror.columns_receive (serde : SerdeJson) (mirror : Mirror)
    (notifications : List ChangeNotification) :
    (mirror.receive notifications).columns serde =
      replay (mirror.columns serde)
        (notifications.map (ChangeNotification.columnChange serde)) := by
  have folded := replay_map (RecordRow.columns serde) mirror
    (notifications.map ChangeNotification.change)
  rw [List.map_map] at folded
  exact folded.symm

theorem Records.liveView_insert (records : Records) (uri : String) (row : Row) :
    Records.liveView (records.insert uri row) =
      Function.update records.liveView uri (if row.isDeleted then none else some (uri, row)) := by
  funext key
  by_cases same : key = uri
  · subst same
    rw [Function.update_self, liveView, selectActive, Finmap.lookup_insert]
    cases deleted : row.isDeleted <;> simp [deleted]
  · rw [Function.update_of_ne same, liveView, selectActive, Finmap.lookup_insert_of_ne _ same,
      liveView, selectActive]

theorem Records.liveView_erase (records : Records) (uri : String) :
    Records.liveView (records.erase uri) = Function.update records.liveView uri none := by
  funext key
  by_cases same : key = uri
  · subst same
    rw [Function.update_self, liveView, selectActive, Finmap.lookup_erase, Option.filter_none,
      Option.map_none]
  · rw [Function.update_of_ne same, liveView, selectActive, Finmap.lookup_erase_ne same,
      liveView, selectActive]

/-! ## Statements that announce their effect -/

/-- The notification that a statement leaves to publish. -/
def leftToPublish (result : Except SkybaseError (Option ChangeNotification)) :
    List ChangeNotification :=
  result.toOption.join.toList

/-- Publish what a statement left, as `RecordStore` does after the lock. -/
theorem RecordStore.execute_eq (store : RecordStore)
    (statement : Records → Except SkybaseError (Option ChangeNotification) × Records) :
    store.execute statement =
      ((statement store.records).1,
        { store with
          records := (statement store.records).2
          bus := store.bus.publishAll (leftToPublish (statement store.records).1) }) := by
  unfold RecordStore.execute
  rcases statement store.records with ⟨_ | _ | _, records⟩ <;> rfl

/-- `upsert_record` and `soft_delete_record` execute the statements of their
operations. -/
theorem RecordStore.upsertRecord_eq (serde : SerdeJson) (sqlite : SqliteAnswer)
    (input : RecordInput) (store : RecordStore) :
    store.upsertRecord serde sqlite input =
      (((StoreOperation.upsert input).statementWith serde sqlite store.records).1.map fun _ => (),
        (store.execute ((StoreOperation.upsert input).statementWith serde sqlite)).2) := by
  simp only [upsertRecord, execute_eq, StoreOperation.statementWith]

theorem RecordStore.softDeleteRecord_eq (serde : SerdeJson) (sqlite : SqliteAnswer)
    (uri : String) (indexedAt : U64) (store : RecordStore) :
    store.softDeleteRecord sqlite uri indexedAt =
      (((StoreOperation.delete uri indexedAt).statementWith serde sqlite store.records).1.map
          Option.isSome,
        (store.execute ((StoreOperation.delete uri indexedAt).statementWith serde sqlite)).2) := by
  simp only [softDeleteRecord, execute_eq, StoreOperation.statementWith]

/-- A statement on one URI that announces exactly its effect on the live view. -/
structure Announces (serde : SerdeJson) (uri : String)
    (statement : Records → Except SkybaseError (Option ChangeNotification) × Records) : Prop where
  about : ∀ records, ∀ notification ∈ leftToPublish (statement records).1, notification.uri = uri
  effect : ∀ records, Records.liveView (statement records).2 =
    replay records.liveView
      ((leftToPublish (statement records).1).map (ChangeNotification.columnChange serde))

/-- A statement that changes nothing and leaves nothing to publish. -/
theorem effect_of_unchanged (serde : SerdeJson) {records after : Records}
    {result : Except SkybaseError (Option ChangeNotification)} (unchanged : after = records)
    (silent : leftToPublish result = []) :
    after.liveView = replay records.liveView
      ((leftToPublish result).map (ChangeNotification.columnChange serde)) := by
  rw [unchanged, silent]
  rfl

theorem StoreOperation.columnChange_key (op : StoreOperation) (row : Row) :
    (op.columnChange row).key = op.uri := by
  unfold columnChange
  split <;> rfl

/-- A versioned statement announces its effect. -/
theorem StoreOperation.announces (serde : SerdeJson) (op : StoreOperation) :
    Announces serde op.uri (op.statement serde) := by
  constructor
  · intro records notification mem
    rcases statement_cases serde records op with ⟨_, _, silent⟩ | ⟨_, row, announcement, _, _,
      announced_eq, change_eq⟩
    · rw [leftToPublish,
        show (op.statement serde records).1.toOption.join = none from silent] at mem
      cases mem
    · rw [leftToPublish, show (op.statement serde records).1.toOption.join = some announcement
        from announced_eq, Option.toList_some, List.mem_singleton] at mem
      have key_eq := congrArg Change.key change_eq
      rw [columnChange_key, ChangeNotification.columnChange, Change.key_map,
        ChangeNotification.key_change] at key_eq
      rw [mem, key_eq]
  · intro records
    rcases statement_cases serde records op with ⟨_, same, silent⟩ | ⟨_, row, announcement,
      inserted, written, announced_eq, change_eq⟩
    · exact effect_of_unchanged serde same (congrArg Option.toList silent)
    · have alone : leftToPublish (op.statement serde records).1 = [announcement] :=
        congrArg Option.toList announced_eq
      have live_eq : row.isDeleted = !op.isUpsert := by
        have live := Register.live_of_write written.symm
        rw [isPut_registerOp, Row.cell] at live
        rw [← live, Bool.not_not]
      rw [alone, List.map_singleton, replay_singleton, change_eq, Feed.apply, columnChange_key]
      change Records.liveView (op.exec serde records) = _
      rw [inserted, Records.liveView_insert, live_eq]
      cases upserts : op.isUpsert <;> simp [columnChange, upserts, Change.value]

/-- A versioned statement announces its effect also where SQLite may fail it. -/
theorem StoreOperation.announces_with (serde : SerdeJson) (sqlite : SqliteAnswer)
    (op : StoreOperation) : Announces serde op.uri (op.statementWith serde sqlite) := by
  cases sqlite with
  | none => exact op.announces serde
  | some err =>
      constructor
      · intro records notification mem
        rcases op.statementWith_some serde err records with ⟨error, failed⟩
        rw [failed] at mem
        cases mem
      · intro records
        rcases op.statementWith_some serde err records with ⟨error, failed⟩
        rw [failed]
        rfl

/-- A statement that clears its URI in the live view and announces a deletion,
or changes nothing and stays silent. -/
theorem announces_of_clearing (serde : SerdeJson) {uri : String}
    {statement : Records → Except SkybaseError (Option ChangeNotification) × Records}
    (clearing : ∀ records,
      ((statement records).2 = records ∧ leftToPublish (statement records).1 = []) ∨
        (Records.liveView (statement records).2 = Function.update records.liveView uri none ∧
          ∃ did collection rkey,
            leftToPublish (statement records).1 = [.delete uri did collection rkey])) :
    Announces serde uri statement := by
  constructor
  · intro records notification mem
    rcases clearing records with ⟨_, silent⟩ | ⟨_, did, collection, rkey, alone⟩
    · rw [silent] at mem
      cases mem
    · rw [alone, List.mem_singleton] at mem
      rw [mem]
      rfl
  · intro records
    rcases clearing records with ⟨unchanged, silent⟩ | ⟨cleared, did, collection, rkey, alone⟩
    · exact effect_of_unchanged serde unchanged silent
    · rw [cleared, alone]
      rfl

/-- `soft_delete_record_unversioned` announces its effect. -/
theorem softDeleteUnversionedStatement_announces (serde : SerdeJson) (sqlite : SqliteAnswer)
    (uri : String) : Announces serde uri (softDeleteUnversionedStatement sqlite uri) := by
  apply announces_of_clearing
  intro records
  unfold softDeleteUnversionedStatement Records.softDeleteUnversioned
  cases sqlite with
  | some err => exact Or.inl ⟨rfl, rfl⟩
  | none =>
      cases found : records.lookup uri with
      | none => exact Or.inl ⟨rfl, rfl⟩
      | some stored =>
          by_cases live : stored.isDeleted = false
          · simp only [live, if_true]
            exact Or.inr ⟨Records.liveView_insert records uri _, _, _, _, rfl⟩
          · simp only [live]
            exact Or.inl ⟨rfl, rfl⟩

/-- `hard_delete_record` announces its effect. -/
theorem hardDeleteStatement_announces (serde : SerdeJson) (sqlite : SqliteAnswer)
    (uri : String) : Announces serde uri (hardDeleteStatement sqlite uri) := by
  apply announces_of_clearing
  intro records
  unfold hardDeleteStatement Records.hardDelete
  cases sqlite with
  | some err => exact Or.inl ⟨rfl, rfl⟩
  | none =>
      cases found : records.lookup uri with
      | none => exact Or.inl ⟨rfl, rfl⟩
      | some stored => exact Or.inr ⟨Records.liveView_erase records uri, _, _, _, rfl⟩

/-! ## Runs of statements -/

/-- The notifications of a run of versioned statements, in the order of the
statements. -/
def announcements (serde : SerdeJson) : Records → List StoreOperation → List ChangeNotification
  | _, [] => []
  | records, op :: ops =>
      leftToPublish (op.statement serde records).1 ++
        announcements serde (op.exec serde records) ops

/-- Replaying the announcements of a run follows the live view. -/
theorem liveView_runOperations (serde : SerdeJson) (records : Records)
    (ops : List StoreOperation) :
    (runOperations serde records ops).liveView =
      replay records.liveView
        ((announcements serde records ops).map (ChangeNotification.columnChange serde)) := by
  induction ops generalizing records with
  | nil => rfl
  | cons op ops ih =>
      have effect : (op.exec serde records).liveView = _ :=
        (op.announces serde).effect records
      rw [runOperations_cons, ih, effect, announcements, List.map_append, replay_append]

end Skybase.Index
