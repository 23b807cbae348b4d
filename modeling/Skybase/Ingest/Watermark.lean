import Skybase.Ingest.Batching
import Skybase.Ingest.System

/-!
# The watermark and the queue

Within one session, in which the server delivers its frames in order, the
worker never moves the watermark past a commit that is still pending.  The
reader does: a frame that does not go to the channel advances the tracker at
once, however many older commits are waiting.
-/

namespace Skybase.Ingest

open Skybase.Index
open Skybase.Json
open Skybase.Transition (Step Along Always run)

/-- The time of which the worker has still to tell the tracker. -/
def Phase.times : Phase → List U64
  | .written timeUs => [timeUs]
  | .idle => []
  | .tracked _ => []

namespace System

/-- A session: an open connection, and nothing pending. -/
def session (worker : Worker) (frames : List JetstreamEvent) : System where
  worker := worker
  connection := some frames
  channel := []
  buffer := []
  phase := .idle

/-- No pending commit is older than the watermark, so that a reconnect at the
watermark delivers all of them again. -/
def WatermarkSafe (system : System) : Prop :=
  ∀ commit ∈ system.pending, system.worker.cursor.watermark ≤ commit.timeUs

/-- What the property is for: a connection at the watermark delivers every
pending commit of the log again. -/
theorem mem_replayFrom_of_watermarkSafe {system : System} (safe : system.WatermarkSafe)
    (positive : system.worker.cursor.watermark ≠ 0) {log : List JetstreamEvent} (live : Nat)
    {commit : JetstreamCommit} (waiting : commit ∈ system.pending) (sent : .commit commit ∈ log) :
    .commit commit ∈ replayFrom log live system.worker.cursor.getOpt := by
  have opened : system.worker.cursor.getOpt = some system.worker.cursor.watermark :=
    if_neg positive
  rw [opened]
  exact List.mem_filter.mpr ⟨sent, decide_eq_true (safe commit waiting)⟩

/-- The reader advances the tracker itself only to a time that no pending
commit precedes, and sends no commit from before the watermark. -/
def ReaderWaits (config : IngesterConfig) (system : System) : TaskStep → Prop
  | .read =>
      ∀ event rest, system.connection = some (event :: rest) →
        (∀ commit, config.wanted event = some commit →
          system.worker.cursor.watermark ≤ commit.timeUs) ∧
        (config.wanted event = none → ∀ commit ∈ system.pending, event.timeUs ≤ commit.timeUs)
  | .take _ => True
  | .write _ => True
  | .flush _ => True
  | .track => True
  | .persist _ => True

/-- The times that the tracker can still be told, in the order of the frames. -/
def upcoming (system : System) : List U64 :=
  system.phase.times ++ system.pending.map JetstreamCommit.timeUs ++
    (system.connection.getD []).map JetstreamEvent.timeUs

/-- The upcoming times do not decrease. -/
def Ordered (system : System) : Prop :=
  system.upcoming.Pairwise (· ≤ ·)

theorem times_phaseAfter (left : Option U64) : (phaseAfter left).times = left.toList := by
  cases left <;> rfl

section Step

variable {serde : SerdeJson} {config : IngesterConfig} {source target : System}

/-- The upcoming times of the commits in the channel and of the frames behind
them are in order. -/
theorem ordered_behind (ordered : source.Ordered) :
    (source.channel.map JetstreamCommit.timeUs ++
      (source.connection.getD []).map JetstreamEvent.timeUs).Pairwise (· ≤ ·) := by
  apply List.Pairwise.sublist _ ordered
  simp [upcoming, pending]

/-- A commit in the hands of the worker is not newer than what is behind. -/
theorem le_behind (ordered : source.Ordered) {commit : JetstreamCommit}
    (mem : commit ∈ source.buffer) :
    ∀ timeUs ∈ source.channel.map JetstreamCommit.timeUs ++
      (source.connection.getD []).map JetstreamEvent.timeUs, commit.timeUs ≤ timeUs := by
  have taken : (source.buffer.map JetstreamCommit.timeUs ++
      (source.channel.map JetstreamCommit.timeUs ++
        (source.connection.getD []).map JetstreamEvent.timeUs)).Pairwise (· ≤ ·) := by
    apply List.Pairwise.sublist _ ordered
    simp [upcoming, pending]
  exact (List.pairwise_append.mp taken).2.2 commit.timeUs (List.mem_map_of_mem mem)

/-- Every step of a task keeps the upcoming times in order. -/
theorem ordered_taskStep {step : TaskStep} (ordered : source.Ordered)
    (stepped : source.taskStep serde config step = some target) : target.Ordered := by
  cases step with
  | read =>
      unfold Ordered upcoming pending at ordered ⊢
      rcases read_cases stepped with
        ⟨event, rest, open_eq, ⟨commit, wanted, _, rfl⟩ | ⟨_, rfl⟩⟩
      · have time_eq := IngesterConfig.timeUs_of_wanted wanted
        rw [open_eq] at ordered
        simpa [time_eq] using ordered
      · rw [open_eq] at ordered
        apply List.Pairwise.sublist _ ordered
        exact List.Sublist.append_left (List.sublist_cons_self _ _) _
  | take count =>
      rcases take_cases stepped with ⟨_, empty, rfl⟩
      unfold Ordered upcoming pending at ordered ⊢
      rw [empty] at ordered
      simpa [List.take_append_drop] using ordered
  | write sqlite =>
      rcases write_cases stepped with ⟨commit, rest, left, worker, idle, taken, _, written, rfl⟩
      have left_eq := left_writeCommit serde sqlite commit source.worker
      rw [written] at left_eq
      unfold Ordered upcoming pending at ordered ⊢
      rw [idle, taken] at ordered
      rw [times_phaseAfter]
      rcases left_eq with rfl | rfl
      · exact (List.pairwise_cons.mp ordered).2
      · exact ordered
  | flush sqlite =>
      rcases flush_cases stepped with ⟨left, worker, _, taken, _, written, rfl⟩
      have left_eq := left_writeBatch serde sqlite source.worker taken
      rw [written] at left_eq
      unfold Ordered upcoming
      rw [times_phaseAfter]
      rcases left_eq with rfl | ⟨newest, mem, rfl⟩
      · exact ordered_behind ordered
      · exact List.pairwise_cons.mpr ⟨le_behind ordered mem, ordered_behind ordered⟩
  | track =>
      rcases track_cases stepped with ⟨timeUs, written, rfl⟩
      unfold Ordered upcoming at ordered ⊢
      rw [written] at ordered
      have rest := (List.pairwise_cons.mp ordered).2
      dsimp only
      split
      · exact rest
      · exact rest
  | persist sqlite =>
      rcases persist_cases stepped with ⟨timeUs, tracked, rfl⟩
      unfold Ordered upcoming at ordered
      rw [tracked] at ordered
      exact ordered

/-- What is written to the tracker next is not newer than a pending commit. -/
theorem le_pending_of_written (ordered : source.Ordered) {timeUs : U64}
    (written : source.phase = .written timeUs) :
    ∀ commit ∈ source.pending, timeUs ≤ commit.timeUs := by
  unfold Ordered upcoming at ordered
  rw [written] at ordered
  intro commit mem
  apply (List.pairwise_cons.mp ordered).1
  exact List.mem_append_left _ (List.mem_map_of_mem mem)

/-- A step keeps the watermark safe exactly if the reader waits. -/
theorem watermarkSafe_taskStep_iff {step : TaskStep} (ordered : source.Ordered)
    (safe : source.WatermarkSafe) (stepped : source.taskStep serde config step = some target) :
    target.WatermarkSafe ↔ source.ReaderWaits config step := by
  cases step with
  | read =>
      obtain ⟨event, rest, open_eq, ⟨commit, wanted, _, rfl⟩ | ⟨unwanted, rfl⟩⟩ :=
        read_cases stepped
      · constructor
        · intro safeAfter otherEvent otherRest same
          rw [open_eq] at same
          cases same
          rw [wanted]
          constructor
          · intro other sent
            cases sent
            exact safeAfter commit (by simp [pending])
          · intro absurd
            cases absurd
        · intro waits other mem
          have sent := (waits event rest open_eq).1 commit wanted
          change other ∈ source.buffer ++ (source.channel ++ [commit]) at mem
          rw [← List.append_assoc] at mem
          rcases List.mem_append.mp mem with earlier | last
          · exact safe other earlier
          · rw [List.mem_singleton.mp last]
            exact sent
      · constructor
        · intro safeAfter otherEvent otherRest same
          rw [open_eq] at same
          cases same
          rw [unwanted]
          constructor
          · intro other absurd
            cases absurd
          · intro _ other mem
            have moved := safeAfter other mem
            rw [Worker.cursor_track, CursorTracker.watermark_advance] at moved
            exact (le_max_right _ _).trans moved
        · intro waits other mem
          rw [Worker.cursor_track, CursorTracker.watermark_advance]
          exact max_le (safe other mem) ((waits event rest open_eq).2 unwanted other mem)
  | take count =>
      obtain ⟨_, empty, rfl⟩ := take_cases stepped
      apply iff_of_true _ trivial
      intro commit mem
      apply safe commit
      unfold pending at mem ⊢
      rw [empty]
      simpa [List.take_append_drop] using mem
  | write sqlite =>
      rcases write_cases stepped with ⟨first, rest, left, worker, _, taken, _, written, rfl⟩
      have cursor_eq := cursor_writeCommit serde sqlite first source.worker
      rw [written] at cursor_eq
      apply iff_of_true _ trivial
      intro commit mem
      rw [cursor_eq]
      apply safe commit
      rw [pending, taken]
      exact List.mem_cons_of_mem first mem
  | flush sqlite =>
      rcases flush_cases stepped with ⟨left, worker, _, _, _, written, rfl⟩
      have cursor_eq := cursor_writeBatch serde sqlite source.buffer source.worker
      rw [written] at cursor_eq
      apply iff_of_true _ trivial
      intro commit mem
      rw [cursor_eq]
      exact safe commit (List.mem_append_right _ mem)
  | track =>
      rcases track_cases stepped with ⟨timeUs, written, rfl⟩
      apply iff_of_true _ trivial
      intro commit mem
      rw [Worker.cursor_track, CursorTracker.watermark_advance]
      exact max_le (safe commit mem) (le_pending_of_written ordered written commit mem)
  | persist sqlite =>
      obtain ⟨timeUs, _, rfl⟩ := persist_cases stepped
      exact iff_of_true safe trivial

end Step

/-- Watermark safety, exactly.  In a session whose frames arrive in order, no
pending commit is ever older than the watermark, at any point of any
interleaving of the two tasks, if and only if the reader always waits: it
advances the tracker by itself only to times that no pending commit precedes,
and the frames are not older than the watermark they follow. -/
theorem always_watermarkSafe_iff (serde : SerdeJson) (config : IngesterConfig) (worker : Worker)
    (frames : List JetstreamEvent)
    (inOrder : frames.Pairwise fun first second => first.timeUs ≤ second.timeUs)
    (steps : List TaskStep) (final : System)
    (reached : run (taskStep serde config) (session worker frames) steps = some final) :
    Always (taskStep serde config) WatermarkSafe (session worker frames) steps ↔
      Along (taskStep serde config) (ReaderWaits config) (session worker frames) steps := by
  have ordered : (session worker frames).Ordered := by
    change (frames.map JetstreamEvent.timeUs).Pairwise (· ≤ ·)
    exact List.pairwise_map.mpr inOrder
  have safe : (session worker frames).WatermarkSafe := by
    intro commit mem
    cases mem
  apply Transition.always_iff_along _ _ ordered safe reached
  · intro source step target ordered stepped
    exact ordered_taskStep ordered stepped
  · intro source step target ordered safe stepped
    exact watermarkSafe_taskStep_iff ordered safe stepped

/-- A worker that is done with a commit before the reader sees the heartbeat
after it. -/
theorem always_watermarkSafe_inTurn :
    Always (taskStep .scalars ⟨[], [], none, 16, 1⟩) WatermarkSafe
      (session (newConsumer ⟨[], [], none, 16, 1⟩ RecordStore.empty)
        [.commit (aliceCommit .delete none 5), .heartbeat 10])
      [.read, .take 1, .write none, .track, .persist none, .read] := by
  apply (always_watermarkSafe_iff .scalars ⟨[], [], none, 16, 1⟩ _ _ ?_ _ _ rfl).mpr
  · constructor
    · rintro _ _ ⟨⟩
      constructor
      · rintro _ ⟨⟩
        decide
      · intro absurd
        cases absurd
    · rintro _ ⟨⟩
      refine ⟨trivial, ?_⟩
      rintro _ ⟨⟩
      refine ⟨trivial, ?_⟩
      rintro _ ⟨⟩
      refine ⟨trivial, ?_⟩
      rintro _ ⟨⟩
      refine ⟨trivial, ?_⟩
      rintro _ ⟨⟩
      constructor
      · rintro _ _ ⟨⟩
        constructor
        · intro _ absurd
          cases absurd
        · intro _ _ absurd
          cases absurd
      · intro _ _
        trivial
  · simp [aliceCommit, JetstreamEvent.timeUs]

/-- A heartbeat passes a commit that waits in the channel, and a connection at
the watermark that it leaves does not deliver the commit again. -/
theorem not_watermarkSafe_heartbeat :
    let commit := aliceCommit .delete none 5
    let frames := [JetstreamEvent.commit commit, .heartbeat 10]
    ∃ final, run (taskStep .scalars ⟨[], [], none, 16, 1⟩)
        (session (newConsumer ⟨[], [], none, 16, 1⟩ RecordStore.empty) frames)
        [.read, .read] = some final ∧
      commit ∈ final.pending ∧ ¬ final.WatermarkSafe ∧
      .commit commit ∉ replayFrom frames 0 final.worker.cursor.getOpt := by
  intro commit frames
  have waiting : ∀ worker, commit ∈ pending ⟨worker, some [], [commit], [], .idle⟩ :=
    fun _ => List.mem_singleton_self commit
  refine ⟨_, rfl, waiting _, ?_, ?_⟩
  · intro safe
    exact absurd (safe commit (waiting _)) (by decide)
  · intro mem
    exact absurd (List.mem_filter.mp mem).2 (by decide)

end System

end Skybase.Ingest
