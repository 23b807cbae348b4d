import Skybase.Ingest.Sync

/-!
# Batches against single commits

A list of commits leaves the same records whether it is synced commit by
commit, in batches of any sizes, or through `sync_commit_to_store`.  The cursor
is another matter: the single sync persists the timestamp of the last commit it
could apply, and a batch the greatest timestamp of its buffer, usable or not.
-/

namespace Skybase.Ingest

open Skybase.Index
open Skybase.Json

/-! ## Records -/

theorem records_applySingleCommit (serde : SerdeJson) (commit : JetstreamCommit)
    (worker : Worker) :
    (applySingleCommit serde SingleAnswers.ok commit worker).store.records =
      applyCommit serde worker.store.records commit := by
  rw [applySingleCommit_eq]
  rcases writeCommit_cases serde none commit worker with
    ⟨failed, written, written_eq, store_eq, _⟩ | ⟨_, _, written, written_eq, records_eq, _, _⟩
  · have unusable : ¬ commit.Usable := fun usable => failed ⟨usable, rfl⟩
    rw [show SingleAnswers.ok.write = none from rfl, written_eq,
      applyCommit_of_not_usable serde _ unusable]
    exact congrArg RecordStore.records store_eq
  · rw [show SingleAnswers.ok.write = none from rfl, written_eq]
    simp only [Worker.records_persist, Worker.store_track]
    exact records_eq

theorem records_flushCommitBatch (serde : SerdeJson) (buffer : List JetstreamCommit)
    (worker : Worker) :
    (flushCommitBatch serde BatchAnswers.ok buffer worker).store.records =
      buffer.foldl (applyCommit serde) worker.store.records := by
  rcases writeBatch_ok serde buffer worker with ⟨written, written_eq, store_eq, _⟩
  rw [flushCommitBatch_eq, written_eq, foldl_applyCommit]
  cases latestTime buffer with
  | none => exact congrArg RecordStore.records store_eq
  | some latest => exact congrArg RecordStore.records store_eq

/-- `sync_commit_to_store` executes the statement of the commit's operation. -/
theorem store_syncCommitToStore (serde : SerdeJson) (sqlite : SqliteAnswer) (store : RecordStore)
    (commit : JetstreamCommit) :
    (syncCommitToStore serde sqlite store commit).2 =
      commit.toOperation.elim store fun op =>
        (store.execute (op.statementWith serde sqlite)).2 := by
  by_cases deletes : commit.operation = .delete
  · simp only [syncCommitToStore, deletes, toOperation_of_delete deletes,
      RecordStore.softDeleteRecord_eq serde, Option.elim_some]
  · rw [toOperation_of_upsert deletes]
    unfold syncCommitToStore
    cases kind : commit.operation with
    | delete => exact absurd kind deletes
    | _ =>
        cases commit.toRecordInput none with
        | none => rfl
        | some input =>
            simp only [RecordStore.upsertRecord_eq, Option.map_some, Option.elim_some]

theorem records_syncCommitToStore (serde : SerdeJson) (store : RecordStore)
    (commit : JetstreamCommit) :
    (syncCommitToStore serde none store commit).2.records =
      applyCommit serde store.records commit := by
  rw [store_syncCommitToStore, applyCommit]
  cases commit.toOperation with
  | none => rfl
  | some op =>
      rw [Option.elim_some, Option.elim_some, RecordStore.execute_eq]
      rfl

/-- Sync the commits one by one. -/
def syncSingly (serde : SerdeJson) (worker : Worker) (commits : List JetstreamCommit) : Worker :=
  commits.foldl (fun worker commit => applySingleCommit serde SingleAnswers.ok commit worker) worker

/-- Sync the batches one by one. -/
def syncInBatches (serde : SerdeJson) (worker : Worker) (batches : List (List JetstreamCommit)) :
    Worker :=
  batches.foldl (fun worker buffer => flushCommitBatch serde BatchAnswers.ok buffer worker) worker

/-- Sync the commits through `sync_commit_to_store`, ignoring its errors. -/
def syncThrough (serde : SerdeJson) (store : RecordStore) (commits : List JetstreamCommit) :
    RecordStore :=
  commits.foldl (fun store commit => (syncCommitToStore serde none store commit).2) store

theorem records_syncSingly (serde : SerdeJson) (worker : Worker)
    (commits : List JetstreamCommit) :
    (syncSingly serde worker commits).store.records =
      commits.foldl (applyCommit serde) worker.store.records := by
  induction commits generalizing worker with
  | nil => rfl
  | cons commit commits ih =>
      rw [List.foldl_cons, ← records_applySingleCommit]
      exact ih (applySingleCommit serde SingleAnswers.ok commit worker)

theorem records_syncInBatches (serde : SerdeJson) (worker : Worker)
    (batches : List (List JetstreamCommit)) :
    (syncInBatches serde worker batches).store.records =
      batches.flatten.foldl (applyCommit serde) worker.store.records := by
  induction batches generalizing worker with
  | nil => rfl
  | cons buffer batches ih =>
      rw [List.flatten_cons, List.foldl_append, ← records_flushCommitBatch]
      exact ih (flushCommitBatch serde BatchAnswers.ok buffer worker)

theorem records_syncThrough (serde : SerdeJson) (store : RecordStore)
    (commits : List JetstreamCommit) :
    (syncThrough serde store commits).records =
      commits.foldl (applyCommit serde) store.records := by
  induction commits generalizing store with
  | nil => rfl
  | cons commit commits ih =>
      rw [List.foldl_cons, ← records_syncCommitToStore]
      exact ih (syncCommitToStore serde none store commit).2

/-- However a list of commits is cut into batches, syncing the batches, syncing
the commits one by one and syncing them through `sync_commit_to_store` leave
the same records. -/
theorem syncs_agree_on_records (serde : SerdeJson) (worker : Worker)
    (batches : List (List JetstreamCommit)) :
    (syncInBatches serde worker batches).store.records =
        (syncSingly serde worker batches.flatten).store.records ∧
      (syncThrough serde worker.store batches.flatten).records =
        (syncSingly serde worker batches.flatten).store.records := by
  rw [records_syncInBatches, records_syncSingly, records_syncThrough]
  exact ⟨rfl, rfl⟩

/-! ## The cursor -/

/-- The commits of a list that the store can apply. -/
def usableCommits (commits : List JetstreamCommit) : List JetstreamCommit :=
  commits.filter fun commit => commit.Usable

/-- A single sync of a usable commit records its timestamp. -/
theorem applySingleCommit_of_usable (serde : SerdeJson) {commit : JetstreamCommit}
    (worker : Worker) (usable : commit.Usable) :
    (applySingleCommit serde SingleAnswers.ok commit worker).store.getCursor =
        .ok (some commit.timeUs) ∧
      (applySingleCommit serde SingleAnswers.ok commit worker).cursor =
        worker.cursor.advance commit.timeUs := by
  rw [applySingleCommit_eq]
  rcases writeCommit_cases serde none commit worker with
    ⟨failed, _⟩ | ⟨_, _, written, written_eq, _, _, cursor_eq⟩
  · exact absurd ⟨usable, rfl⟩ failed
  · rw [show SingleAnswers.ok.write = none from rfl, written_eq]
    constructor
    · exact getCursor_persist_ok _ _
    · rw [Worker.cursor_persist, Worker.cursor_track, cursor_eq]

/-- A single sync of any other commit records nothing. -/
theorem applySingleCommit_of_not_usable (serde : SerdeJson) {commit : JetstreamCommit}
    (worker : Worker) (unusable : ¬ commit.Usable) :
    (applySingleCommit serde SingleAnswers.ok commit worker).store = worker.store ∧
      (applySingleCommit serde SingleAnswers.ok commit worker).cursor = worker.cursor := by
  rw [applySingleCommit_eq]
  rcases writeCommit_cases serde none commit worker with
    ⟨_, written, written_eq, store_eq, cursor_eq⟩ | ⟨usable, _⟩
  · rw [show SingleAnswers.ok.write = none from rfl, written_eq]
    exact ⟨store_eq, cursor_eq⟩
  · exact absurd usable unusable

/-- Synced one by one, the last usable commit sets the persisted cursor, and
the watermark covers all of them. -/
theorem cursors_syncSingly (serde : SerdeJson) (worker : Worker)
    (commits : List JetstreamCommit) :
    (syncSingly serde worker commits).store.getCursor =
        (usableCommits commits).getLast?.elim worker.store.getCursor
          (fun last => .ok (some last.timeUs)) ∧
      ∀ bound, (syncSingly serde worker commits).cursor.watermark ≤ bound ↔
        worker.cursor.watermark ≤ bound ∧
          ∀ commit ∈ usableCommits commits, commit.timeUs ≤ bound := by
  induction commits using List.reverseRecOn with
  | nil => exact ⟨rfl, fun bound => by simp [syncSingly, usableCommits]⟩
  | append_singleton commits commit ih =>
      have last_step : syncSingly serde worker (commits ++ [commit]) =
          applySingleCommit serde SingleAnswers.ok commit (syncSingly serde worker commits) := by
        rw [syncSingly, List.foldl_append]
        rfl
      by_cases usable : commit.Usable
      · have usable_eq :
            usableCommits (commits ++ [commit]) = usableCommits commits ++ [commit] := by
          simp [usableCommits, usable]
        obtain ⟨stored, tracked⟩ := applySingleCommit_of_usable serde
          (syncSingly serde worker commits) usable
        rw [last_step, usable_eq, stored, tracked]
        constructor
        · rw [List.getLast?_concat, Option.elim_some]
        · intro bound
          rw [CursorTracker.watermark_advance, max_le_iff, ih.2 bound]
          simp only [List.mem_append, List.mem_singleton, or_imp, forall_and, forall_eq, and_assoc]
      · have usable_eq : usableCommits (commits ++ [commit]) = usableCommits commits := by
          simp [usableCommits, usable]
        obtain ⟨stored, tracked⟩ := applySingleCommit_of_not_usable serde
          (syncSingly serde worker commits) usable
        rw [last_step, usable_eq, stored, tracked]
        exact ih

/-- Synced as one batch, the greatest timestamp sets the persisted cursor. -/
theorem cursors_flushCommitBatch (serde : SerdeJson) (worker : Worker)
    {commits : List JetstreamCommit} {latest : U64} (latest_eq : latestTime commits = some latest) :
    (flushCommitBatch serde BatchAnswers.ok commits worker).store.getCursor =
        .ok (some latest) ∧
      (flushCommitBatch serde BatchAnswers.ok commits worker).cursor.watermark =
        max worker.cursor.watermark latest := by
  rcases writeBatch_ok serde commits worker with ⟨written, written_eq, store_eq, cursor_eq⟩
  rw [flushCommitBatch_eq, written_eq, latest_eq]
  rw [latest_eq] at store_eq
  constructor
  · rw [Worker.store_track, store_eq]
    exact getCursor_afterBatch serde _ latest worker.store
  · rw [Worker.cursor_track, cursor_eq, CursorTracker.watermark_advance]

/-- The two modes agree on a list of commits if it is empty, if its last usable
commit is the newest of all its commits, or if no commit is usable and both
cursors have already reached the newest. -/
def CursorsMeet (worker : Worker) (commits : List JetstreamCommit) : Prop :=
  commits = [] ∨
    (∃ last, (usableCommits commits).getLast? = some last ∧
      latestTime commits = some last.timeUs) ∨
    (usableCommits commits = [] ∧ ∃ latest, latestTime commits = some latest ∧
      worker.store.getCursor = .ok (some latest) ∧ latest ≤ worker.cursor.watermark)

/-- The watermark after a list of single syncs, if no usable commit exceeds a
bound that the watermark or one of them reaches. -/
theorem watermark_syncSingly_eq (serde : SerdeJson) (worker : Worker)
    {commits : List JetstreamCommit} {latest : U64}
    (bound : ∀ commit ∈ usableCommits commits, commit.timeUs ≤ latest)
    (attained : latest ≤ worker.cursor.watermark ∨
      ∃ commit ∈ usableCommits commits, commit.timeUs = latest) :
    (syncSingly serde worker commits).cursor.watermark =
      max worker.cursor.watermark latest := by
  have tracked := (cursors_syncSingly serde worker commits).2
  apply le_antisymm
  · rw [tracked]
    exact ⟨le_max_left _ _, fun commit mem => (bound commit mem).trans (le_max_right _ _)⟩
  · obtain ⟨grown, covers⟩ :=
      (tracked (syncSingly serde worker commits).cursor.watermark).mp (le_refl _)
    apply max_le grown
    rcases attained with reached | ⟨commit, mem, rfl⟩
    · exact reached.trans grown
    · exact covers commit mem

/-- Single and batch mode leave the same persisted cursor and the same
watermark exactly on the lists whose cursors meet. -/
theorem syncs_agree_on_cursor_iff (serde : SerdeJson) (worker : Worker)
    (commits : List JetstreamCommit) :
    ((syncSingly serde worker commits).store.getCursor =
        (flushCommitBatch serde BatchAnswers.ok commits worker).store.getCursor ∧
      (syncSingly serde worker commits).cursor =
        (flushCommitBatch serde BatchAnswers.ok commits worker).cursor) ↔
      CursorsMeet worker commits := by
  by_cases empty : commits = []
  · subst empty
    exact ⟨fun _ => Or.inl rfl, fun _ => ⟨rfl, rfl⟩⟩
  · rcases exists_latestTime empty with ⟨latest, latest_eq, _, bound⟩
    have usableBound : ∀ commit ∈ usableCommits commits, commit.timeUs ≤ latest :=
      fun commit mem => bound commit (List.mem_filter.mp mem).1
    obtain ⟨batchStored, batchTracked⟩ := cursors_flushCommitBatch serde worker latest_eq
    have singleStored := (cursors_syncSingly serde worker commits).1
    have tracker_iff : (syncSingly serde worker commits).cursor =
        (flushCommitBatch serde BatchAnswers.ok commits worker).cursor ↔
          (syncSingly serde worker commits).cursor.watermark =
            max worker.cursor.watermark latest := by
      rw [CursorTracker.ext_iff, batchTracked]
    rw [tracker_iff, batchStored, singleStored]
    cases last_eq : (usableCommits commits).getLast? with
    | none =>
        have noneUsable : usableCommits commits = [] := List.getLast?_eq_none_iff.mp last_eq
        rw [Option.elim_none]
        constructor
        · rintro ⟨stored, tracked⟩
          refine Or.inr (Or.inr ⟨noneUsable, latest, latest_eq, stored, ?_⟩)
          have unmoved := ((cursors_syncSingly serde worker commits).2
            worker.cursor.watermark).mpr ⟨le_refl _, by simp [noneUsable]⟩
          rw [tracked] at unmoved
          exact (le_max_right _ _).trans unmoved
        · rintro (absurd | ⟨last, found, _⟩ | ⟨_, other, other_eq, stored, reached⟩)
          · exact (empty absurd).elim
          · rw [last_eq] at found
            cases found
          · rw [latest_eq] at other_eq
            cases other_eq
            exact ⟨stored, watermark_syncSingly_eq serde worker usableBound (Or.inl reached)⟩
    | some last =>
        have lastMem : last ∈ usableCommits commits := List.mem_of_getLast? last_eq
        rw [Option.elim_some]
        constructor
        · rintro ⟨stored, _⟩
          cases Option.some.inj (Except.ok.inj stored)
          exact Or.inr (Or.inl ⟨last, last_eq, latest_eq⟩)
        · rintro (absurd | ⟨other, found, newest⟩ | ⟨noneUsable, _⟩)
          · exact (empty absurd).elim
          · rw [last_eq] at found
            cases found
            rw [latest_eq] at newest
            cases newest
            exact ⟨rfl, watermark_syncSingly_eq serde worker usableBound
              (Or.inr ⟨last, lastMem, rfl⟩)⟩
          · rw [noneUsable] at lastMem
            cases lastMem

/-- A commit of the concrete runs: the post with the given payload. -/
def aliceCommit (operation : CommitOperation) (record : Option Value) (timeUs : U64) :
    JetstreamCommit where
  did := "did:plc:alice"
  timeUs := timeUs
  collection := "app.bsky.feed.post"
  rkey := "r1"
  operation := operation
  cid := some "cid1"
  record := record

/-- Out-of-order commits: the single sync goes back to the last one, the batch
stays at the newest. -/
theorem syncs_disagree_on_cursor :
    let worker : Worker := newConsumer ⟨[], [], none, 16, 1⟩ RecordStore.empty
    let commits := [aliceCommit .create (some .null) 10, aliceCommit .update (some .null) 5]
    (syncSingly .scalars worker commits).store.getCursor = .ok (some 5) ∧
      (flushCommitBatch .scalars BatchAnswers.ok commits worker).store.getCursor =
        .ok (some 10) := by
  intro worker commits
  constructor
  · have usable : usableCommits commits = commits := rfl
    rw [(cursors_syncSingly .scalars worker commits).1, usable]
    rfl
  · exact (cursors_flushCommitBatch .scalars worker rfl).1

end Skybase.Ingest
