import Skybase.Ingest.Batching
import Skybase.Transition.Core

/-!
# The persisted cursor over runs of the worker

The storage worker receives commits one by one or, in batch mode, in buffers
of any size, and syncs them.  Two runs of properties are meant to hold of the
cursor that it persists: it never goes back, and it never passes a commit that
has not been stored.  Neither is enforced; the theorems say along which runs
they hold.
-/

namespace Skybase.Ingest

open Skybase.Index
open Skybase.Json
open Skybase.Transition (Step Along Always run)

/-- What the worker takes from its channel in one iteration of its loop, with
the answers of SQLite to the sync of it. -/
inductive WorkerEvent where
  | recv (sqlite : SingleAnswers) (commit : JetstreamCommit)
  | recvMany (sqlite : BatchAnswers) (buffer : List JetstreamCommit)

/-- One iteration of `run_storage_sync_worker`.  The drain after a
cancellation consists of such iterations too. -/
def workerStep (serde : SerdeJson) (batchSize : Nat) : Step Worker WorkerEvent
  | worker, .recv sqlite commit =>
      if batchSize ≤ 1 then some (applySingleCommit serde sqlite commit worker) else none
  | worker, .recvMany sqlite buffer =>
      if batchSize ≤ 1 then none else some (flushCommitBatch serde sqlite buffer worker)

namespace WorkerEvent

/-- SQLite does not fail the sync. -/
def FaultFree : WorkerEvent → Prop
  | .recv sqlite _ => sqlite = SingleAnswers.ok
  | .recvMany sqlite _ => sqlite = BatchAnswers.ok

/-- The commits an iteration receives. -/
def commits : WorkerEvent → List JetstreamCommit
  | .recv _ commit => [commit]
  | .recvMany _ buffer => buffer

/-- The store call of an iteration is made and returns `Ok`. -/
def Succeeds (serde : SerdeJson) (store : RecordStore) : WorkerEvent → Prop
  | .recv sqlite commit => commit.Usable ∧ sqlite.write = none
  | .recvMany sqlite buffer => BatchSucceeds serde sqlite buffer store

instance (serde : SerdeJson) (store : RecordStore) (event : WorkerEvent) :
    Decidable (event.Succeeds serde store) :=
  match event with
  | .recv _ _ => inferInstanceAs (Decidable (_ ∧ _))
  | .recvMany sqlite buffer => inferInstanceAs (Decidable (BatchSucceeds serde sqlite buffer store))

/-- The commits that an iteration stores. -/
def stored (serde : SerdeJson) (store : RecordStore) (event : WorkerEvent) :
    List JetstreamCommit :=
  if event.Succeeds serde store then event.commits else []

/-- The timestamp that an iteration persists if its calls succeed. -/
def timeUs : WorkerEvent → Option U64
  | .recv sqlite commit => if sqlite.setCursor = none then some commit.timeUs else none
  | .recvMany _ buffer => latestTime buffer

/-- The cursor that an iteration persists, if it does. -/
def persisted (serde : SerdeJson) (store : RecordStore) (event : WorkerEvent) : Option U64 :=
  if event.Succeeds serde store then event.timeUs else none

end WorkerEvent

/-- After an iteration `get_cursor` returns what the iteration persisted, or
else what it returned before. -/
theorem getCursor_workerStep {serde : SerdeJson} {batchSize : Nat} {source target : Worker}
    {event : WorkerEvent} (step : workerStep serde batchSize source event = some target) :
    target.store.getCursor =
      (event.persisted serde source.store).elim source.store.getCursor
        fun cursor => .ok (some cursor) := by
  cases event with
  | recv sqlite commit =>
      rw [workerStep] at step
      split at step
      · cases step
        rw [applySingleCommit_eq, WorkerEvent.persisted]
        rcases writeCommit_cases serde sqlite.write commit source with
          ⟨failed, written, written_eq, store_eq, _⟩ |
            ⟨usable, ok, written, written_eq, _, meta_eq, _⟩
        · have fails : ¬ (WorkerEvent.recv sqlite commit).Succeeds serde source.store := failed
          rw [written_eq, if_neg fails]
          exact congrArg RecordStore.getCursor store_eq
        · have succeeds : (WorkerEvent.recv sqlite commit).Succeeds serde source.store :=
            ⟨usable, ok⟩
          rw [written_eq, if_pos succeeds, WorkerEvent.timeUs]
          cases answer : sqlite.setCursor with
          | none => exact getCursor_persist_ok _ _
          | some err => exact getCursor_congr meta_eq
      · cases step
  | recvMany sqlite buffer =>
      rw [workerStep] at step
      split at step
      · cases step
      · cases step
        rw [flushCommitBatch_eq, WorkerEvent.persisted]
        rcases writeBatch_cases serde sqlite buffer source with
          ⟨failed, written, written_eq, store_eq, _⟩ | ⟨ok, written, written_eq, store_eq, _⟩
        · have fails : ¬ (WorkerEvent.recvMany sqlite buffer).Succeeds serde source.store := failed
          rw [written_eq, if_neg fails]
          exact congrArg RecordStore.getCursor store_eq
        · have succeeds : (WorkerEvent.recvMany sqlite buffer).Succeeds serde source.store := ok
          rw [written_eq, if_pos succeeds, WorkerEvent.timeUs]
          cases latest_eq : latestTime buffer with
          | none =>
              rw [latest_eq] at store_eq
              have meta_eq : written.store.skybaseMeta = source.store.skybaseMeta := by
                rw [store_eq]
                rfl
              exact getCursor_congr meta_eq
          | some latest =>
              rw [latest_eq] at store_eq
              change written.store.getCursor = .ok (some latest)
              rw [store_eq]
              exact getCursor_afterBatch serde _ latest source.store

/-! ## The cursor does not go back -/

/-- The timestamp that a sync without failures persists. -/
def WorkerEvent.newest : WorkerEvent → Option U64
  | .recv _ commit => if commit.Usable then some commit.timeUs else none
  | .recvMany _ buffer => latestTime buffer

theorem WorkerEvent.persisted_of_faultFree (serde : SerdeJson) (store : RecordStore)
    {event : WorkerEvent} (faultFree : event.FaultFree) :
    event.persisted serde store = event.newest := by
  cases event with
  | recv sqlite commit =>
      cases faultFree
      by_cases usable : commit.Usable
      · have succeeds : (WorkerEvent.recv .ok commit).Succeeds serde store := ⟨usable, rfl⟩
        rw [persisted, if_pos succeeds, newest, if_pos usable]
        rfl
      · have fails : ¬ (WorkerEvent.recv .ok commit).Succeeds serde store :=
          fun succeeds => usable succeeds.1
        rw [persisted, if_neg fails, newest, if_neg usable]
  | recvMany sqlite buffer =>
      cases faultFree
      have succeeds : (WorkerEvent.recvMany .ok buffer).Succeeds serde store := by
        rcases store.applyOperationsBatch_ok serde (flushPlan buffer).operations
          (flushPlan buffer).latestCursor with ⟨stats, answered⟩
        change Except.isOk _ = true
        rw [answered]
        rfl
      rw [persisted, if_pos succeeds]
      rfl

/-- An iteration does not lower what `get_cursor` returns. -/
def KeepsCursor (serde : SerdeJson) (batchSize : Nat) (source : Worker) (event : WorkerEvent) :
    Prop :=
  ∀ target, workerStep serde batchSize source event = some target →
    ∀ cursor, source.store.getCursor = .ok (some cursor) →
      ∃ later, target.store.getCursor = .ok (some later) ∧ cursor ≤ later

/-- What `get_cursor` returns, if it returns a cursor. -/
def persistedCursor (store : RecordStore) : Option U64 := store.getCursor.toOption.join

theorem getCursor_eq_iff (store : RecordStore) (cursor : U64) :
    store.getCursor = .ok (some cursor) ↔ persistedCursor store = some cursor := by
  unfold persistedCursor
  rcases store.getCursor with _ | _ | _ <;> simp [Except.toOption]

theorem persistedCursor_workerStep {serde : SerdeJson} {batchSize : Nat} {source target : Worker}
    {event : WorkerEvent} (step : workerStep serde batchSize source event = some target)
    (faultFree : event.FaultFree) :
    persistedCursor target.store = event.newest.or (persistedCursor source.store) := by
  rw [persistedCursor, getCursor_workerStep step,
    event.persisted_of_faultFree serde source.store faultFree]
  cases event.newest <;> rfl

theorem keepsCursor_iff {serde : SerdeJson} {batchSize : Nat} {source target : Worker}
    {event : WorkerEvent} (step : workerStep serde batchSize source event = some target)
    (faultFree : event.FaultFree) :
    KeepsCursor serde batchSize source event ↔
      ∀ cursor, persistedCursor source.store = some cursor →
        ∀ newest, event.newest = some newest → cursor ≤ newest := by
  have after := persistedCursor_workerStep step faultFree
  unfold KeepsCursor
  simp only [getCursor_eq_iff, step, Option.some.injEq, forall_eq', after]
  cases event.newest with
  | none =>
      simp only [Option.none_or, reduceCtorEq, false_implies, implies_true, iff_true]
      exact fun cursor found => ⟨cursor, found, le_refl _⟩
  | some newest => simp

/-- Without failures of SQLite the persisted cursor never goes back, exactly on
the runs whose persisted timestamps never do: the cursor persisted at the
start, then the timestamps of the usable commits that are synced singly and the
greatest timestamps of the batches. -/
theorem keepsCursor_along_iff (serde : SerdeJson) (batchSize : Nat) (start final : Worker)
    (events : List WorkerEvent) (faultFree : ∀ event ∈ events, event.FaultFree)
    (reached : run (workerStep serde batchSize) start events = some final) :
    Along (workerStep serde batchSize) (KeepsCursor serde batchSize) start events ↔
      ((persistedCursor start.store).toList ++ events.filterMap WorkerEvent.newest).IsChain
        (· ≤ ·) := by
  induction events generalizing start with
  | nil => cases persistedCursor start.store <;> simp
  | cons event events ih =>
      rcases (Transition.run_cons_eq_some_iff _ _ _ _).mp reached with ⟨middle, step, rest⟩
      have eventFree := faultFree event List.mem_cons_self
      have later :=
        ih middle (fun other mem => faultFree other (List.mem_cons_of_mem event mem)) rest
      rw [Transition.along_cons_iff, keepsCursor_iff step eventFree]
      simp only [step, Option.some.injEq, forall_eq', later,
        persistedCursor_workerStep step eventFree]
      cases newest_eq : event.newest with
      | none =>
          rw [List.filterMap_cons_none newest_eq]
          simp
      | some newest =>
          rw [List.filterMap_cons_some newest_eq]
          cases persistedCursor start.store with
          | none => simp
          | some cursor => simp

/-- Two commits in order keep the cursor. -/
theorem keepsCursor_along_inOrder :
    Along (workerStep .scalars 1) (KeepsCursor .scalars 1)
      (newConsumer ⟨[], [], none, 16, 1⟩ RecordStore.empty)
      [.recv .ok (aliceCommit .create (some (.bool true)) 5),
        .recv .ok (aliceCommit .delete none 10)] := by
  apply (keepsCursor_along_iff .scalars 1 _ _ _ ?_ rfl).mpr
  · have written : [WorkerEvent.recv .ok (aliceCommit .create (some (.bool true)) 5),
        .recv .ok (aliceCommit .delete none 10)].filterMap WorkerEvent.newest = [5, 10] := rfl
    rw [written]
    decide
  · intro event mem
    simp only [List.mem_cons, List.not_mem_nil, or_false] at mem
    rcases mem with rfl | rfl
    · rfl
    · rfl

/-- The text of a commit frame, with the given members after its author. -/
def frame (members : String) : String :=
  "\x7b" ++ ("\"did\":\"did:plc:alice\"," ++ members ++
    "\"commit\":\x7b\"operation\":\"create\",\"collection\":\"app.bsky.feed.post\"," ++
    "\"rkey\":\"r1\",\"cid\":\"cid1\",\"record\":true\x7d") ++ "\x7d"

/-- A frame that carries a timestamp. -/
def timedFrame : String := frame "\"time_us\":10,\"kind\":\"commit\","

/-- A frame that carries none. -/
def untimedFrame : String := frame "\"kind\":\"commit\","

/-- The envelope of the two frames. -/
def frameMessage (timeUs : Option U64) : RawJetstreamMessage :=
  ⟨some "did:plc:alice", timeUs, some "commit",
    some ⟨"create", "app.bsky.feed.post", "r1", some "cid1", some (.bool true)⟩⟩

/-- The deserialization of the two frames. -/
def decodeFrames (text : String) : Except String RawJetstreamMessage :=
  if text = timedFrame then .ok (frameMessage (some 10))
  else if text = untimedFrame then .ok (frameMessage none)
  else .error "expected value"

theorem parseJetstreamCommit_frame {members : String} {timeUs : Option U64}
    (decoded : decodeFrames (frame members) = .ok (frameMessage timeUs))
    (timely : isValidTimeUs 1700000000000000 (timeUs.getD 0) = true) :
    parseJetstreamCommit decodeFrames 1700000000000000 (frame members) =
      some (aliceCommit .create (some (.bool true)) (timeUs.getD 0)) := by
  have trimmed : Text.trim (frame members) = frame members := Text.trim_braced _
  have nonempty : (frame members).isEmpty = false := Text.isEmpty_braced _
  rw [← trimmed] at nonempty decoded
  exact parseJetstreamCommit_of_valid nonempty decoded timely rfl rfl (by decide) rfl (by decide)
    (by decide) (by decide) rfl

/-- A frame without timestamp parses to a commit at time zero, and syncing it
takes the persisted cursor from 10 back to 0. -/
theorem keepsCursor_fails_on_untimedFrame :
    ∃ first second,
      parseJetstreamCommit decodeFrames 1700000000000000 timedFrame = some first ∧
      parseJetstreamCommit decodeFrames 1700000000000000 untimedFrame = some second ∧
      ∃ start middle final : Worker,
        workerStep .scalars 1 start (.recv .ok first) = some middle ∧
        workerStep .scalars 1 middle (.recv .ok second) = some final ∧
        middle.store.getCursor = .ok (some 10) ∧ final.store.getCursor = .ok (some 0) ∧
        ¬ Along (workerStep .scalars 1) (KeepsCursor .scalars 1) start
          [.recv .ok first, .recv .ok second] := by
  let first := aliceCommit .create (some (.bool true)) 10
  let second := aliceCommit .create (some (.bool true)) 0
  let start := newConsumer ⟨[], [], none, 16, 1⟩ RecordStore.empty
  let middle := applySingleCommit .scalars .ok first start
  let final := applySingleCommit .scalars .ok second middle
  have middleCursor : middle.store.getCursor = .ok (some 10) :=
    (applySingleCommit_of_usable .scalars start (by decide)).1
  have finalCursor : final.store.getCursor = .ok (some 0) :=
    (applySingleCommit_of_usable .scalars middle (by decide)).1
  have firstParsed : parseJetstreamCommit decodeFrames 1700000000000000 timedFrame = some first :=
    parseJetstreamCommit_frame (if_pos rfl) (by decide)
  have different : untimedFrame ≠ timedFrame := by decide +kernel
  have secondParsed :
      parseJetstreamCommit decodeFrames 1700000000000000 untimedFrame = some second :=
    parseJetstreamCommit_frame ((if_neg different).trans (if_pos rfl)) (by decide)
  refine ⟨first, second, firstParsed, secondParsed, start, middle, final, rfl, rfl, middleCursor,
    finalCursor, ?_⟩
  rintro ⟨_, later⟩
  rcases (later middle rfl).1 final rfl 10 middleCursor with ⟨cursor, found, bound⟩
  rw [finalCursor] at found
  cases found
  exact absurd bound (by decide)

end Skybase.Ingest
