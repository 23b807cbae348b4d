import Skybase.Ingest.Sync
import Skybase.Transition.Core

/-!
# The running consumer

A running consumer is a reader task and a worker task that share the cursor
tracker and a bounded channel.  One step is one access to what they share: the
reader handles a frame, the worker takes commits from the channel, calls the
store, updates the tracker, or persists the cursor.  Around such sessions the
reader connects and disconnects, and the process can crash and start again at
any point between two steps.
-/

namespace Skybase.Ingest

open Skybase.Index
open Skybase.Json
open Skybase.Transition (Step)

/-- What the worker has to do before it takes the next commits. -/
inductive Phase where
  | idle
  /-- A store call has succeeded; `cursor.update` is next. -/
  | written (timeUs : U64)
  /-- The tracker is updated; `set_cursor` is next. -/
  | tracked (timeUs : U64)
deriving DecidableEq

/-- The state of a running consumer. -/
structure System where
  /-- The store, the counters and the tracker. -/
  worker : Worker
  /-- The frames that the open connection has still to deliver. -/
  connection : Option (List JetstreamEvent)
  channel : List JetstreamCommit
  /-- The commits that the worker has taken and not yet handed to the store. -/
  buffer : List JetstreamCommit
  phase : Phase

/-- The steps of the two tasks. -/
inductive TaskStep where
  | read
  | take (count : Nat)
  | write (sqlite : SqliteAnswer)
  | flush (sqlite : BatchAnswers)
  | track
  | persist (sqlite : SqliteAnswer)

/-- The commit that an event carries to the channel. -/
def IngesterConfig.wanted (config : IngesterConfig) : JetstreamEvent → Option JetstreamCommit
  | .commit c => if config.wants c then some c else none
  | .heartbeat _ => none
  | .other _ _ _ => none

theorem IngesterConfig.timeUs_of_wanted {config : IngesterConfig} {event : JetstreamEvent}
    {commit : JetstreamCommit} (wanted : config.wanted event = some commit) :
    commit.timeUs = event.timeUs := by
  cases event with
  | commit c =>
      rw [IngesterConfig.wanted] at wanted
      split at wanted
      · cases wanted
        rfl
      · cases wanted
  | heartbeat timeUs => cases wanted
  | other kind did timeUs => cases wanted

namespace System

/-- The commits in the channel or in the hands of the worker, oldest first. -/
def pending (system : System) : List JetstreamCommit := system.buffer ++ system.channel

/-- The reader handles the next frame: a wanted commit goes to the channel,
when it has room, and any other frame advances the tracker. -/
def handleFrame (config : IngesterConfig) (system : System) (rest : List JetstreamEvent) :
    JetstreamEvent → Option System
  | .commit commit =>
      if config.wants commit then
        if system.channel.length < config.capacity then
          some { system with connection := some rest, channel := system.channel ++ [commit] }
        else none
      else
        some { system with connection := some rest, worker := system.worker.track commit.timeUs }
  | .heartbeat timeUs =>
      some { system with connection := some rest, worker := system.worker.track timeUs }
  | .other _ _ timeUs =>
      some { system with connection := some rest, worker := system.worker.track timeUs }

/-- The phase after a store call, with the cursor that it leaves to record. -/
def phaseAfter : Option U64 → Phase
  | none => .idle
  | some timeUs => .written timeUs

/-- One step of a task. -/
def taskStep (serde : SerdeJson) (config : IngesterConfig) : Step System TaskStep
  | system, .read =>
      match system.connection with
      | some (event :: rest) => system.handleFrame config rest event
      | some [] => none
      | none => none
  | system, .take count =>
      if system.phase = .idle ∧ system.buffer = [] ∧ 0 < count ∧ count ≤ system.channel.length ∧
          (config.Immediate → count = 1) then
        some
          { system with
            channel := system.channel.drop count
            buffer := system.channel.take count }
      else none
  | system, .write sqlite =>
      match system.phase, system.buffer with
      | .idle, commit :: rest =>
          if config.Immediate then
            let (left, worker) := writeCommit serde sqlite commit system.worker
            some { system with worker, buffer := rest, phase := phaseAfter left }
          else none
      | _, _ => none
  | system, .flush sqlite =>
      if system.phase = .idle ∧ system.buffer ≠ [] ∧ ¬ config.Immediate then
        let (left, worker) := writeBatch serde sqlite system.buffer system.worker
        some { system with worker, buffer := [], phase := phaseAfter left }
      else none
  | system, .track =>
      match system.phase with
      | .written timeUs =>
          some
            { system with
              worker := system.worker.track timeUs
              phase := if config.Immediate then .tracked timeUs else .idle }
      | .idle => none
      | .tracked _ => none
  | system, .persist sqlite =>
      match system.phase with
      | .tracked timeUs =>
          some { system with worker := system.worker.persist sqlite timeUs, phase := .idle }
      | .idle => none
      | .written _ => none

/-- The steps of a consumer against a server that holds `log`. -/
inductive Action where
  | task (step : TaskStep)
  /-- A connection without cursor starts at the given position of the log. -/
  | connect (live : Nat)
  | disconnect
  /-- The process dies and is started again. -/
  | restart

/-- What the server delivers on a connection with the tracker's cursor: in
order, every frame of the log from the cursor on. -/
def replayFrom (log : List JetstreamEvent) (live : Nat) : Option U64 → List JetstreamEvent
  | some cursor => log.filter fun event => cursor ≤ event.timeUs
  | none => log.drop live

/-- A consumer that has just been started on a store. -/
def booted (config : IngesterConfig) (store : RecordStore) : System where
  worker := (newConsumer config store).resume config
  connection := none
  channel := []
  buffer := []
  phase := .idle

/-- One step of the consumer. -/
def next (serde : SerdeJson) (config : IngesterConfig) (log : List JetstreamEvent) :
    Step System Action
  | system, .task step => system.taskStep serde config step
  | system, .connect live =>
      match system.connection with
      | none =>
          some { system with connection := some (replayFrom log live system.worker.cursor.getOpt) }
      | some _ => none
  | system, .disconnect =>
      match system.connection with
      | some _ => some { system with connection := none }
      | none => none
  | system, .restart => some (booted config system.worker.store)

/-! ## What a step can do -/

section Inversion

variable {serde : SerdeJson} {config : IngesterConfig} {source target : System}

/-- Reading sends a wanted commit or advances the tracker. -/
theorem read_cases (step : source.taskStep serde config .read = some target) :
    ∃ event rest, source.connection = some (event :: rest) ∧
      ((∃ commit, config.wanted event = some commit ∧ source.channel.length < config.capacity ∧
          target =
            { source with connection := some rest, channel := source.channel ++ [commit] }) ∨
        (config.wanted event = none ∧
          target =
            { source with
              connection := some rest
              worker := source.worker.track event.timeUs })) := by
  simp only [taskStep] at step
  split at step
  · next event rest open_eq =>
      cases event with
      | commit commit =>
          simp only [handleFrame] at step
          by_cases wants : config.wants commit = true
          · rw [if_pos wants] at step
            split at step
            · next room =>
                cases step
                exact ⟨_, rest, open_eq, Or.inl ⟨commit, if_pos wants, room, rfl⟩⟩
            · cases step
          · rw [if_neg wants] at step
            cases step
            exact ⟨_, rest, open_eq, Or.inr ⟨if_neg wants, rfl⟩⟩
      | heartbeat timeUs =>
          cases step
          exact ⟨_, rest, open_eq, Or.inr ⟨rfl, rfl⟩⟩
      | other kind did timeUs =>
          cases step
          exact ⟨_, rest, open_eq, Or.inr ⟨rfl, rfl⟩⟩
  · cases step
  · cases step

/-- Taking moves commits from the channel to an empty buffer. -/
theorem take_cases {count : Nat} (step : source.taskStep serde config (.take count) = some target) :
    source.phase = .idle ∧ source.buffer = [] ∧
      target =
        { source with
          channel := source.channel.drop count
          buffer := source.channel.take count } := by
  simp only [taskStep] at step
  split at step
  · next ready =>
      cases step
      exact ⟨ready.1, ready.2.1, rfl⟩
  · cases step

/-- A single store call takes the first commit out of the buffer. -/
theorem write_cases {sqlite : SqliteAnswer}
    (step : source.taskStep serde config (.write sqlite) = some target) :
    ∃ commit rest left worker, source.phase = .idle ∧ source.buffer = commit :: rest ∧
      config.Immediate ∧ writeCommit serde sqlite commit source.worker = (left, worker) ∧
      target = { source with worker, buffer := rest, phase := phaseAfter left } := by
  simp only [taskStep] at step
  split at step
  · next commit rest idle taken =>
      split at step
      · next immediate =>
          cases step
          exact ⟨commit, rest, _, _, idle, taken, immediate, rfl, rfl⟩
      · cases step
  · cases step

/-- A transaction empties the buffer. -/
theorem flush_cases {sqlite : BatchAnswers}
    (step : source.taskStep serde config (.flush sqlite) = some target) :
    ∃ left worker, source.phase = .idle ∧ source.buffer ≠ [] ∧ ¬ config.Immediate ∧
      writeBatch serde sqlite source.buffer source.worker = (left, worker) ∧
      target = { source with worker, buffer := [], phase := phaseAfter left } := by
  simp only [taskStep] at step
  split at step
  · next ready =>
      cases step
      exact ⟨_, _, ready.1, ready.2.1, ready.2.2, rfl, rfl⟩
  · cases step

theorem track_cases (step : source.taskStep serde config .track = some target) :
    ∃ timeUs, source.phase = .written timeUs ∧
      target =
        { source with
          worker := source.worker.track timeUs
          phase := if config.Immediate then .tracked timeUs else .idle } := by
  simp only [taskStep] at step
  split at step
  · next timeUs written =>
      cases step
      exact ⟨timeUs, written, rfl⟩
  · cases step
  · cases step

theorem persist_cases {sqlite : SqliteAnswer}
    (step : source.taskStep serde config (.persist sqlite) = some target) :
    ∃ timeUs, source.phase = .tracked timeUs ∧
      target = { source with worker := source.worker.persist sqlite timeUs, phase := .idle } := by
  simp only [taskStep] at step
  split at step
  · next timeUs tracked =>
      cases step
      exact ⟨timeUs, tracked, rfl⟩
  · cases step
  · cases step

end Inversion

/-! ## The steps of a sync -/

/-- The steps that follow a store call in single mode. -/
def stepsAfterWrite (sqlite : SqliteAnswer) : Option U64 → List TaskStep
  | none => []
  | some _ => [.track, .persist sqlite]

/-- An undisturbed single sync is `apply_single_commit`. -/
theorem run_applySingleCommit (serde : SerdeJson) {config : IngesterConfig}
    (immediate : config.Immediate) (sqlite : SingleAnswers) (system : System)
    (commit : JetstreamCommit) (idle : system.phase = .idle) (taken : system.buffer = [commit]) :
    Transition.run (taskStep serde config) system (.write sqlite.write ::
        stepsAfterWrite sqlite.setCursor (writeCommit serde sqlite.write commit system.worker).1) =
      some
        { system with
          worker := applySingleCommit serde sqlite commit system.worker
          buffer := [] } := by
  rw [applySingleCommit_eq, Transition.run_cons]
  rcases outcome : writeCommit serde sqlite.write commit system.worker with ⟨_ | timeUs, written⟩
  · simp [taskStep, idle, taken, immediate, outcome, phaseAfter, stepsAfterWrite]
  · simp [taskStep, idle, taken, immediate, outcome, phaseAfter, stepsAfterWrite, Transition.run]

/-- The step that follows a committed transaction in batch mode. -/
def stepsAfterFlush : Option U64 → List TaskStep
  | none => []
  | some _ => [.track]

/-- An undisturbed batch sync is `flush_commit_batch`. -/
theorem run_flushCommitBatch (serde : SerdeJson) {config : IngesterConfig}
    (batched : ¬ config.Immediate) (sqlite : BatchAnswers) (system : System)
    (idle : system.phase = .idle) (taken : system.buffer ≠ []) :
    Transition.run (taskStep serde config) system (.flush sqlite ::
        stepsAfterFlush (writeBatch serde sqlite system.buffer system.worker).1) =
      some
        { system with
          worker := flushCommitBatch serde sqlite system.buffer system.worker
          buffer := [] } := by
  rw [flushCommitBatch_eq, Transition.run_cons]
  rcases outcome : writeBatch serde sqlite system.buffer system.worker with ⟨_ | timeUs, written⟩
  · simp [taskStep, idle, taken, batched, outcome, phaseAfter, stepsAfterFlush]
  · simp [taskStep, idle, taken, batched, outcome, phaseAfter, stepsAfterFlush]

end System

end Skybase.Ingest
