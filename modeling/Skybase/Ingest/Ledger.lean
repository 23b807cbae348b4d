import Skybase.Ingest.Persistence

/-!
# Storage failures and the persisted cursor

A ledger records, next to the worker, which commits it has received and which
of them a store call has stored.  A restart replays from the persisted cursor,
so that a commit is safe as long as it is stored or not older than that cursor.
The worker goes on after a failed store call, and the next success moves the
cursor past the commit that failed.
-/

namespace Skybase.Ingest

open Skybase.Index
open Skybase.Json
open Skybase.Transition (Step Along Always run)

/-- The worker with the commits it has received and those that have been
stored. -/
structure Ledger where
  worker : Worker
  received : List JetstreamCommit
  stored : List JetstreamCommit

namespace Ledger

/-- The ledger of a worker that has received nothing. -/
def opened (worker : Worker) : Ledger := ⟨worker, [], []⟩

/-- One iteration of the worker, entered in the ledger. -/
def next (serde : SerdeJson) (batchSize : Nat) : Step Ledger WorkerEvent := fun ledger event =>
  (workerStep serde batchSize ledger.worker event).map fun worker =>
    { worker
      received := ledger.received ++ event.commits
      stored := ledger.stored ++ event.stored serde ledger.worker.store }

/-- A commit that the store could apply and that has been received, but not
been stored. -/
def Unstored (ledger : Ledger) (commit : JetstreamCommit) : Prop :=
  commit ∈ ledger.received ∧ commit.Usable ∧ commit ∉ ledger.stored

/-- A replay from the persisted cursor delivers every unstored commit. -/
def Recoverable (ledger : Ledger) : Prop :=
  ∀ cursor, ledger.worker.store.getCursor = .ok (some cursor) →
    ∀ commit, ledger.Unstored commit → cursor ≤ commit.timeUs

/-- An iteration that persists its timestamp has none before it that is still
unstored, and one that fails to store its commits has received none from before
the cursor. -/
def LeavesNoGap (serde : SerdeJson) (ledger : Ledger) (event : WorkerEvent) : Prop :=
  if event.Succeeds serde ledger.worker.store then
    ∀ timeUs, event.timeUs = some timeUs →
      ∀ commit, ledger.Unstored commit → commit ∉ event.commits → timeUs ≤ commit.timeUs
  else
    ∀ cursor, ledger.worker.store.getCursor = .ok (some cursor) →
      ∀ commit ∈ event.commits, commit.Usable → commit ∉ ledger.stored → cursor ≤ commit.timeUs

/-- After an iteration a commit is unstored if it was before, or has just been
received, and the iteration has not stored it. -/
theorem unstored_next_iff {serde : SerdeJson} {batchSize : Nat} {source target : Ledger}
    {event : WorkerEvent} (step : next serde batchSize source event = some target)
    (commit : JetstreamCommit) :
    target.Unstored commit ↔
      (source.Unstored commit ∨
          commit ∈ event.commits ∧ commit.Usable ∧ commit ∉ source.stored) ∧
        commit ∉ event.stored serde source.worker.store := by
  rcases Option.map_eq_some_iff.mp step with ⟨worker, _, rfl⟩
  unfold Unstored
  rw [List.mem_append, List.mem_append, not_or]
  constructor
  · rintro ⟨earlier | here, usable, unstored, notNow⟩
    · exact ⟨Or.inl ⟨earlier, usable, unstored⟩, notNow⟩
    · exact ⟨Or.inr ⟨here, usable, unstored⟩, notNow⟩
  · rintro ⟨⟨earlier, usable, unstored⟩ | ⟨here, usable, unstored⟩, notNow⟩
    · exact ⟨Or.inl earlier, usable, unstored, notNow⟩
    · exact ⟨Or.inr here, usable, unstored, notNow⟩

/-- One iteration keeps every unstored commit recoverable exactly if it leaves
no gap. -/
theorem recoverable_next_iff {serde : SerdeJson} {batchSize : Nat} {source target : Ledger}
    {event : WorkerEvent} (recoverable : source.Recoverable)
    (step : next serde batchSize source event = some target) :
    target.Recoverable ↔ LeavesNoGap serde source event := by
  have unstored_iff := unstored_next_iff step
  rcases Option.map_eq_some_iff.mp step with ⟨worker, workerStep_eq, worker_eq⟩
  have cursor_eq := getCursor_workerStep workerStep_eq
  have after_eq : target.worker.store.getCursor = worker.store.getCursor := by rw [← worker_eq]
  unfold Recoverable LeavesNoGap
  rw [after_eq, cursor_eq]
  simp only [unstored_iff, WorkerEvent.persisted, WorkerEvent.stored]
  by_cases succeeds : event.Succeeds serde source.worker.store
  · simp only [if_pos succeeds]
    cases time_eq : event.timeUs with
    | some written =>
        constructor
        · intro kept timeUs same commit unstored notNow
          cases same
          exact kept written rfl commit ⟨Or.inl unstored, notNow⟩
        · rintro noGap cursor same commit ⟨unstored | ⟨here, _⟩, notNow⟩
          · cases same
            exact noGap written rfl commit unstored notNow
          · exact absurd here notNow
    | none =>
        -- nothing is persisted, and nothing new is unstored
        constructor
        · intro _ timeUs absurd
          cases absurd
        · rintro _ cursor same commit ⟨unstored | ⟨here, _⟩, notNow⟩
          · exact recoverable cursor same commit unstored
          · exact absurd here notNow
  · simp only [if_neg succeeds]
    constructor
    · intro kept cursor same commit here usable unstored
      exact kept cursor same commit ⟨Or.inr ⟨here, usable, unstored⟩, List.not_mem_nil⟩
    · rintro noGap cursor same commit ⟨unstored | ⟨here, usable, unstored⟩, _⟩
      · exact recoverable cursor same commit unstored
      · exact noGap cursor same commit here usable unstored

/-- Recovery from storage failures, exactly.  Whatever SQLite answers, the
persisted cursor stays at or before every commit that has been received, that
the store could apply, and that has not been stored, at every point of a run,
if and only if no iteration of the run leaves a gap. -/
theorem always_recoverable_iff (serde : SerdeJson) (batchSize : Nat) (worker : Worker)
    (events : List WorkerEvent) (final : Ledger)
    (reached : run (next serde batchSize) (opened worker) events = some final) :
    Always (next serde batchSize) Recoverable (opened worker) events ↔
      Along (next serde batchSize) (LeavesNoGap serde) (opened worker) events := by
  have start : (opened worker).Recoverable := by
    rintro cursor _ commit ⟨absurd, _⟩
    cases absurd
  have preserved : ∀ source event target, True → next serde batchSize source event = some target →
      True := fun _ _ _ _ _ => trivial
  apply Transition.always_iff_along preserved _ trivial start reached
  intro source event target _ recoverable step
  exact recoverable_next_iff recoverable step

/-- A failed store call leaves no gap while nothing after it succeeds. -/
theorem always_recoverable_failedLast :
    Always (next .scalars 1) Recoverable
      (opened (newConsumer ⟨[], [], none, 16, 1⟩ RecordStore.empty))
      [.recv .ok (aliceCommit .create (some (.bool true)) 5),
        .recv ⟨some "disk I/O error", none⟩ (aliceCommit .delete none 10)] := by
  let start := newConsumer ⟨[], [], none, 16, 1⟩ RecordStore.empty
  have usable : (aliceCommit .create (some (.bool true)) 5).Usable := by decide
  have first : (WorkerEvent.recv .ok (aliceCommit .create (some (.bool true)) 5)).Succeeds .scalars
      start.store := ⟨usable, rfl⟩
  apply (always_recoverable_iff .scalars 1 start _ _ rfl).mpr
  constructor
  · apply (if_pos first).mpr
    rintro timeUs _ commit ⟨absurd, _⟩
    cases absurd
  · rintro _ ⟨⟩
    constructor
    · intro cursor read commit mem _ _
      have stored := (applySingleCommit_of_usable .scalars start usable).1
      cases Option.some.inj (Except.ok.inj (stored.symm.trans read))
      rw [List.mem_singleton.mp mem]
      decide
    · intro _ _
      trivial

/-- The store call for the commit at 5 fails, the one for the commit at 10
succeeds, and the persisted cursor has passed the unstored commit. -/
theorem not_recoverable_afterFailure :
    ∃ final, run (next .scalars 1) (opened (newConsumer ⟨[], [], none, 16, 1⟩ RecordStore.empty))
        [.recv ⟨some "disk I/O error", none⟩ (aliceCommit .create (some (.bool true)) 5),
          .recv .ok (aliceCommit .update (some (.bool true)) 10)] = some final ∧
      final.worker.store.getCursor = .ok (some 10) ∧
      final.Unstored (aliceCommit .create (some (.bool true)) 5) ∧ ¬ final.Recoverable := by
  have usable : (aliceCommit .update (some (.bool true)) 10).Usable := by decide
  have passed := fun worker => (applySingleCommit_of_usable .scalars worker usable).1
  have unstored : ∀ worker, (⟨worker,
      [aliceCommit .create (some (.bool true)) 5, aliceCommit .update (some (.bool true)) 10],
      [aliceCommit .update (some (.bool true)) 10]⟩ : Ledger).Unstored
        (aliceCommit .create (some (.bool true)) 5) := by
    intro worker
    refine ⟨by simp, by decide, ?_⟩
    intro mem
    cases List.mem_singleton.mp mem
  refine ⟨_, rfl, passed _, unstored _, ?_⟩
  intro recoverable
  exact absurd (recoverable 10 (passed _) _ (unstored _)) (by decide)

end Ledger

end Skybase.Ingest
