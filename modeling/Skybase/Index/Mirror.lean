import Skybase.Index.Calls

/-!
# Subscribers of batches

A batch executes its operations in arrival order but publishes every upsert
before every delete.  A subscriber that folds the notifications over its copy
of the live rows therefore ends with the live view of the store exactly if no
URI of the batch is deleted and then upserted last.
-/

namespace Skybase.Index

open Skybase.Feed
open Skybase.Json

/-- The operations of a run whose statements touch their row, in order. -/
def effective (serde : SerdeJson) : Records → List StoreOperation → List StoreOperation
  | _, [] => []
  | records, op :: ops =>
      (if op.accepted serde records then [op] else []) ++
        effective serde (op.exec serde records) ops

/-- A URI is deleted by the operations and then ends up upserted. -/
def Recreated (uri : String) (ops : List StoreOperation) : Prop :=
  (∃ op ∈ onUri uri ops, op.isUpsert = false) ∧
    ∃ last, (onUri uri ops).getLast? = some last ∧ last.isUpsert = true

theorem recreated_iff_map_isUpsert (uri : String) (ops : List StoreOperation) :
    Recreated uri ops ↔
      false ∈ (onUri uri ops).map StoreOperation.isUpsert ∧
        ((onUri uri ops).map StoreOperation.isUpsert).getLast? = some true := by
  simp only [Recreated, List.mem_map, List.getLast?_map, Option.map_eq_some_iff]

/-- The announcements of a statement have the kind of its operation. -/
theorem map_isSet_leftToPublish (serde : SerdeJson) (records : Records) (op : StoreOperation)
    (uri : String) :
    (on uri ((leftToPublish (op.statement serde records).1).map
        (ChangeNotification.columnChange serde))).map Change.isSet =
      (onUri uri (if op.accepted serde records then [op] else [])).map
        StoreOperation.isUpsert := by
  change (on uri ((op.announced serde records).toList.map
    (ChangeNotification.columnChange serde))).map Change.isSet = _
  rcases op.statement_cases serde records with ⟨rejected, _, silent⟩ | ⟨accepted, row,
    announcement, _, _, announced_eq, change_eq⟩
  · rw [silent, rejected]
    rfl
  · have key_eq : (announcement.columnChange serde).key = op.uri := by
      rw [change_eq, op.columnChange_key]
    have isSet_eq : (announcement.columnChange serde).isSet = op.isUpsert := by
      rw [change_eq, StoreOperation.columnChange]
      cases op.isUpsert <;> rfl
    rw [announced_eq, accepted, if_pos rfl, Option.toList_some, List.map_singleton]
    by_cases about : op.uri = uri
    · simp [on, onUri, key_eq, about, isSet_eq]
    · simp [on, onUri, key_eq, about]

/-- The announcements about a URI have the kinds of the effective operations
on it. -/
theorem map_isSet_announcements (serde : SerdeJson) (records : Records)
    (ops : List StoreOperation) (uri : String) :
    (on uri ((announcements serde records ops).map
        (ChangeNotification.columnChange serde))).map Change.isSet =
      (onUri uri (effective serde records ops)).map StoreOperation.isUpsert := by
  induction ops generalizing records with
  | nil => rfl
  | cons op ops ih =>
      have first := map_isSet_leftToPublish serde records op uri
      have rest := ih (op.exec serde records)
      rw [announcements, effective, onUri, List.filter_append, List.map_append, List.map_append,
        on_append, List.map_append, rest, first]
      rfl

theorem overtaken_announcements_iff (serde : SerdeJson) (records : Records)
    (ops : List StoreOperation) (uri : String) :
    Overtaken (on uri ((announcements serde records ops).map
        (ChangeNotification.columnChange serde))) ↔
      Recreated uri (effective serde records ops) := by
  rw [overtaken_iff_map_isSet, recreated_iff_map_isUpsert, map_isSet_announcements]

/-- Mirrors of batches, exactly.  A subscriber that holds the live view before
a batch that returns `Ok`, and folds what the batch publishes, holds the live
view after it if and only if the operations that take effect delete no URI
that they upsert last. -/
theorem receive_batch_eq_liveView_iff (serde : SerdeJson) (sqlite : BatchAnswers)
    (operations : List StoreOperation) (cursor : Option U64) (store after : RecordStore)
    (stats : BatchStats) (mirror : Mirror)
    (applied : store.applyOperationsBatch serde sqlite operations cursor = (.ok stats, after))
    (mirrors : mirror.columns serde = store.records.liveView) :
    ∃ batch, after.bus.published = store.bus.published ++ batch ∧
      ((mirror.receive batch).columns serde = after.records.liveView ↔
        ∀ uri, ¬ Recreated uri (effective serde store.records operations)) := by
  have after_eq : after = store.afterBatch serde operations cursor := by
    rcases store.applyOperationsBatch_cases serde sqlite operations cursor with
      ⟨err, failed⟩ | ⟨_, succeeded⟩
    · rw [failed] at applied
      cases applied
    · rw [succeeded] at applied
      exact (congrArg Prod.snd applied).symm
  subst after_eq
  exists ChangeNotification.upsertsFirst (announcements serde store.records operations),
    BroadcastBus.published_publishAll _ _
  have after_view : (store.afterBatch serde operations cursor).records.liveView = _ :=
    liveView_runOperations serde store.records operations
  rw [Mirror.columns_receive, ChangeNotification.map_upsertsFirst, mirrors, after_view, funext_iff]
  apply forall_congr'
  intro uri
  rw [replay_setsFirst_eq_iff, overtaken_announcements_iff]

/-- A subscriber that has nothing follows a batch that creates a post and
deletes it. -/
theorem receive_batch_eq_liveView_deletedPost :
    ∃ batch, (RecordStore.empty.applyOperationsBatch .scalars BatchAnswers.ok
        [.upsert (alicePost 1), .delete (alicePost 1).uri 2] none).2.bus.published = [] ++ batch ∧
      (Mirror.receive (fun _ => none) batch).columns .scalars =
        (RecordStore.empty.applyOperationsBatch .scalars BatchAnswers.ok
          [.upsert (alicePost 1), .delete (alicePost 1).uri 2] none).2.records.liveView := by
  obtain ⟨batch, published, mirrored⟩ := receive_batch_eq_liveView_iff .scalars BatchAnswers.ok
    [.upsert (alicePost 1), .delete (alicePost 1).uri 2] none RecordStore.empty _ ⟨1, 1, 0⟩
    (fun _ => none) rfl rfl
  exists batch, published
  apply mirrored.mpr
  have effective_eq : effective .scalars RecordStore.empty.records
      [.upsert (alicePost 1), .delete (alicePost 1).uri 2] =
        [.upsert (alicePost 1), .delete (alicePost 1).uri 2] := rfl
  intro uri
  rw [effective_eq, recreated_iff_map_isUpsert]
  by_cases about : (alicePost 1).uri = uri
  · subst about
    decide
  · have other : onUri uri [.upsert (alicePost 1), .delete (alicePost 1).uri 2] = [] := by
      simp [onUri, StoreOperation.uri, about]
    rw [other]
    decide

/-- A batch that creates, deletes and recreates a post: the store holds the
post, and the subscriber has been told last that it is deleted. -/
theorem receive_batch_ne_liveView_recreatedPost :
    ∃ stats after batch,
      RecordStore.empty.applyOperationsBatch .scalars BatchAnswers.ok
        [.upsert (alicePost 1), .delete (alicePost 1).uri 2, .upsert (alicePost 3)] none =
          (.ok stats, after) ∧
      after.bus.published = RecordStore.empty.bus.published ++ batch ∧
      Mirror.columns .scalars (fun _ => none) = RecordStore.empty.records.liveView ∧
      (Mirror.receive (fun _ => none) batch).columns .scalars (alicePost 3).uri = none ∧
      after.records.liveView (alicePost 3).uri =
        some ((alicePost 3).uri, (alicePost 3).row .scalars) :=
  ⟨⟨2, 1, 0⟩, _, _, rfl, rfl, rfl, rfl, rfl⟩

end Skybase.Index
