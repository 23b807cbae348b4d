import Skybase.Ingest.Batching
import Skybase.Transition.Core

/-!
# Graceful shutdown

Reader and worker observe the cancellation independently of each other.  The
worker drains the channel until a `try_recv` finds it empty, flushes what it
has buffered, and only then drops the receiver.  The reader may still complete
a `send` in between: that commit is accepted by the channel and lost.  Nothing
else is ever lost, so a run hands every accepted commit on exactly if no `send`
completes in that window.
-/

namespace Skybase.Ingest

open Skybase.Index
open Skybase.Json
open Skybase.Transition (Step Along)

/-- Where the reader is. -/
inductive ReaderPhase where
  /-- In the select loop, or connecting. -/
  | reading
  /-- In `tx.send` with a wanted commit. -/
  | sending (commit : JetstreamCommit)
  /-- Returned; the sender is dropped. -/
  | returned

/-- Where the worker is in `run_storage_sync_worker`. -/
inductive WorkerPhase where
  /-- In the select loop. -/
  | running
  /-- In the loop over `try_recv`. -/
  | draining
  /-- Past that loop, before the last flush of the batched mode. -/
  | flushing
  /-- Out of the loop; the receiver still exists. -/
  | returning
  | exited
deriving DecidableEq

/-- A reader and a worker with the channel between them, a record of the
commits whose `tx.send` returned `Ok`, and one of those that were passed to
`apply_single_commit` or `flush_commit_batch`. -/
structure Pipeline where
  cancelled : Bool
  reader : ReaderPhase
  channel : List JetstreamCommit
  phase : WorkerPhase
  buffer : List JetstreamCommit
  worker : Worker
  sent : List JetstreamCommit
  passed : List JetstreamCommit

/-- The steps of the two tasks, and the cancellation. -/
inductive PipelineStep where
  | cancel
  /-- The reader starts to send a wanted commit. -/
  | frame (commit : JetstreamCommit)
  /-- The reader handles a frame that only advances the cursor. -/
  | advance (timeUs : U64)
  /-- `tx.send` completes. -/
  | send
  /-- The reader takes its cancel branch. -/
  | readerReturns
  /-- `rx.recv` or `rx.recv_many` delivers commits, which are synced. -/
  | recv (count : Nat)
  /-- `rx.recv` or `rx.recv_many` finds the channel closed. -/
  | closed
  /-- The worker takes its cancel branch. -/
  | drain
  | tryRecv
  | flush
  | dropReceiver

namespace Pipeline

/-- A pipeline at its start. -/
def start (worker : Worker) : Pipeline :=
  ⟨false, .reading, [], .running, [], worker, [], []⟩

/-- `apply_single_commit`. -/
def applySingle (serde : SerdeJson) (commit : JetstreamCommit) (pipeline : Pipeline) : Pipeline :=
  { pipeline with
    worker := applySingleCommit serde SingleAnswers.ok commit pipeline.worker
    passed := pipeline.passed ++ [commit] }

/-- `flush_commit_batch`. -/
def flushBuffer (serde : SerdeJson) (pipeline : Pipeline) : Pipeline :=
  { pipeline with
    buffer := []
    worker := flushCommitBatch serde BatchAnswers.ok pipeline.buffer pipeline.worker
    passed := pipeline.passed ++ pipeline.buffer }

/-- One step. -/
def next (serde : SerdeJson) (config : IngesterConfig) : Step Pipeline PipelineStep
  | pipeline, .cancel => some { pipeline with cancelled := true }
  | pipeline, .frame commit =>
      match pipeline.reader with
      | .reading =>
          if config.wants commit then some { pipeline with reader := .sending commit } else none
      | _ => none
  | pipeline, .advance timeUs =>
      match pipeline.reader with
      | .reading => some { pipeline with worker := pipeline.worker.track timeUs }
      | _ => none
  | pipeline, .send =>
      match pipeline.reader with
      | .sending commit =>
          if pipeline.phase = .exited then some { pipeline with reader := .returned }
          else if pipeline.channel.length < config.capacity then
            some
              { pipeline with
                reader := .reading
                channel := pipeline.channel ++ [commit]
                sent := pipeline.sent ++ [commit] }
          else none
      | _ => none
  | pipeline, .readerReturns =>
      match pipeline.reader with
      | .reading => if pipeline.cancelled then some { pipeline with reader := .returned } else none
      | _ => none
  | pipeline, .recv count =>
      if pipeline.phase = .running ∧ 0 < count ∧ count ≤ pipeline.channel.length then
        if config.Immediate then
          match pipeline.channel with
          | commit :: rest =>
              if count = 1 then some ({ pipeline with channel := rest }.applySingle serde commit)
              else none
          | [] => none
        else if count ≤ config.batchSize then
          some
            ({ pipeline with
                channel := pipeline.channel.drop count
                buffer := pipeline.buffer ++ pipeline.channel.take count }.flushBuffer serde)
        else none
      else none
  | pipeline, .closed =>
      match pipeline.phase, pipeline.reader, pipeline.channel with
      | .running, .returned, [] =>
          if config.Immediate then some { pipeline with phase := .returning }
          else some ({ pipeline with phase := .returning }.flushBuffer serde)
      | _, _, _ => none
  | pipeline, .drain =>
      if pipeline.phase = .running ∧ pipeline.cancelled = true then
        some { pipeline with phase := .draining }
      else none
  | pipeline, .tryRecv =>
      if pipeline.phase = .draining then
        match pipeline.channel with
        | commit :: rest =>
            if config.Immediate then
              some ({ pipeline with channel := rest }.applySingle serde commit)
            else some { pipeline with channel := rest, buffer := pipeline.buffer ++ [commit] }
        | [] =>
            if config.Immediate then some { pipeline with phase := .returning }
            else some { pipeline with phase := .flushing }
      else none
  | pipeline, .flush =>
      if pipeline.phase = .flushing then
        some ({ pipeline with phase := .returning }.flushBuffer serde)
      else none
  | pipeline, .dropReceiver =>
      if pipeline.phase = .returning then some { pipeline with phase := .exited, channel := [] }
      else none

/-! ## What a step can do -/

/-- The effect of a step, by what happens to the commits. -/
inductive Effect (serde : SerdeJson) (config : IngesterConfig) (source : Pipeline) :
    PipelineStep → Pipeline → Prop where
  /-- Nothing: steps of the reader, the cancellation, a send to a dropped
  receiver. -/
  | quiet {step : PipelineStep} {target : Pipeline} (other : step = .send → source.phase = .exited)
      (phase : target.phase = source.phase) (channel : target.channel = source.channel)
      (buffer : target.buffer = source.buffer)
      (records : target.worker.store.records = source.worker.store.records)
      (sent : target.sent = source.sent) (passed : target.passed = source.passed) :
      Effect serde config source step target
  | accept (commit : JetstreamCommit) (connected : source.phase ≠ .exited) :
      Effect serde config source .send
        { source with
          reader := .reading
          channel := source.channel ++ [commit]
          sent := source.sent ++ [commit] }
  | single {step : PipelineStep} {commit : JetstreamCommit} {rest : List JetstreamCommit}
      (other : step ≠ .send) (working : source.phase = .running ∨ source.phase = .draining)
      (first : source.channel = commit :: rest) (immediate : config.Immediate) :
      Effect serde config source step ({ source with channel := rest }.applySingle serde commit)
  | batch (count : Nat) {step : PipelineStep} (other : step ≠ .send)
      (working : source.phase = .running) :
      Effect serde config source step
        ({ source with
            channel := source.channel.drop count
            buffer := source.buffer ++ source.channel.take count }.flushBuffer serde)
  | collect {step : PipelineStep} {commit : JetstreamCommit} {rest : List JetstreamCommit}
      (other : step ≠ .send) (working : source.phase = .draining)
      (first : source.channel = commit :: rest) (batched : ¬ config.Immediate) :
      Effect serde config source step
        { source with channel := rest, buffer := source.buffer ++ [commit] }
  | drain {step : PipelineStep} (other : step ≠ .send) (working : source.phase = .running) :
      Effect serde config source step { source with phase := .draining }
  | finish {step : PipelineStep} (other : step ≠ .send)
      (working : source.phase = .running ∨ source.phase = .draining)
      (empty : source.channel = []) (immediate : config.Immediate) :
      Effect serde config source step { source with phase := .returning }
  | finishBatched {step : PipelineStep} (other : step ≠ .send)
      (working : source.phase = .draining) (empty : source.channel = []) :
      Effect serde config source step { source with phase := .flushing }
  | flush {step : PipelineStep} (other : step ≠ .send)
      (working : source.phase = .flushing ∨ source.phase = .running ∧ source.channel = []) :
      Effect serde config source step ({ source with phase := .returning }.flushBuffer serde)
  | drop {step : PipelineStep} (other : step ≠ .send) (working : source.phase = .returning) :
      Effect serde config source step { source with phase := .exited, channel := [] }

theorem effect_of_next {serde : SerdeJson} {config : IngesterConfig} {source target : Pipeline}
    {step : PipelineStep} (stepped : next serde config source step = some target) :
    Effect serde config source step target := by
  cases step with
  | cancel =>
      cases stepped
      exact .quiet (by simp) rfl rfl rfl rfl rfl rfl
  | frame commit =>
      simp only [next] at stepped
      split at stepped
      · split at stepped
        · cases stepped
          exact .quiet (by simp) rfl rfl rfl rfl rfl rfl
        · cases stepped
      · cases stepped
  | advance timeUs =>
      simp only [next] at stepped
      split at stepped
      · cases stepped
        exact .quiet (by simp) rfl rfl rfl rfl rfl rfl
      · cases stepped
  | send =>
      simp only [next] at stepped
      split at stepped
      · next commit _ =>
          split at stepped
          · next exited =>
              cases stepped
              exact .quiet (fun _ => exited) rfl rfl rfl rfl rfl rfl
          · next connected =>
              split at stepped
              · cases stepped
                exact .accept commit connected
              · cases stepped
      · cases stepped
  | readerReturns =>
      simp only [next] at stepped
      split at stepped
      · split at stepped
        · cases stepped
          exact .quiet (by simp) rfl rfl rfl rfl rfl rfl
        · cases stepped
      · cases stepped
  | recv count =>
      simp only [next] at stepped
      split at stepped
      · next ready =>
          split at stepped
          · next immediate =>
              split at stepped
              · next commit rest first =>
                  split at stepped
                  · cases stepped
                    exact .single (by simp) (Or.inl ready.1) first immediate
                  · cases stepped
              · cases stepped
          · split at stepped
            · cases stepped
              exact .batch count (by simp) ready.1
            · cases stepped
      · cases stepped
  | closed =>
      simp only [next] at stepped
      split at stepped
      · next running _ empty =>
          split at stepped
          · next immediate =>
              cases stepped
              exact .finish (by simp) (Or.inl running) empty immediate
          · cases stepped
            exact .flush (by simp) (Or.inr ⟨running, empty⟩)
      · cases stepped
  | drain =>
      simp only [next] at stepped
      split at stepped
      · next ready =>
          cases stepped
          exact .drain (by simp) ready.1
      · cases stepped
  | tryRecv =>
      simp only [next] at stepped
      split at stepped
      · next draining =>
          split at stepped
          · next commit rest first =>
              split at stepped
              · next immediate =>
                  cases stepped
                  exact .single (by simp) (Or.inr draining) first immediate
              · next batched =>
                  cases stepped
                  exact .collect (by simp) draining first batched
          · next empty =>
              split at stepped
              · next immediate =>
                  cases stepped
                  exact .finish (by simp) (Or.inr draining) empty immediate
              · cases stepped
                exact .finishBatched (by simp) draining empty
      · cases stepped
  | flush =>
      simp only [next] at stepped
      split at stepped
      · next flushing =>
          cases stepped
          exact .flush (by simp) (Or.inl flushing)
      · cases stepped
  | dropReceiver =>
      simp only [next] at stepped
      split at stepped
      · next returning =>
          cases stepped
          exact .drop (by simp) returning
      · cases stepped

/-! ## Conservation of commits -/

/-- What holds of a pipeline that started with the given records: until the
receiver is dropped, every accepted commit is passed on, buffered or in the
channel, in this order, and the commits passed on are applied. -/
structure Conserves (serde : SerdeJson) (config : IngesterConfig) (records : Records)
    (pipeline : Pipeline) : Prop where
  conserved : pipeline.phase ≠ .exited →
    pipeline.sent = pipeline.passed ++ pipeline.buffer ++ pipeline.channel
  settled : pipeline.phase = .exited → pipeline.passed <+: pipeline.sent
  unbuffered : pipeline.phase = .running ∨ pipeline.phase = .returning → pipeline.buffer = []
  immediate : config.Immediate → pipeline.buffer = []
  synced : pipeline.worker.store.records = pipeline.passed.foldl (applyCommit serde) records

theorem conserves_start (serde : SerdeJson) (config : IngesterConfig) (worker : Worker) :
    (start worker).Conserves serde config worker.store.records where
  conserved _ := rfl
  settled absurd := by cases absurd
  unbuffered _ := rfl
  immediate _ := rfl
  synced := rfl

/-- A commit that is applied singly is passed on and synced. -/
theorem synced_applySingle {serde : SerdeJson} {records : Records} {pipeline : Pipeline}
    (synced : pipeline.worker.store.records = pipeline.passed.foldl (applyCommit serde) records)
    (commit : JetstreamCommit) :
    (pipeline.applySingle serde commit).worker.store.records =
      (pipeline.applySingle serde commit).passed.foldl (applyCommit serde) records := by
  rw [applySingle, records_applySingleCommit, List.foldl_append, ← synced]
  rfl

/-- A buffer that is flushed is passed on and synced. -/
theorem synced_flushBuffer {serde : SerdeJson} {records : Records} {pipeline : Pipeline}
    (synced : pipeline.worker.store.records = pipeline.passed.foldl (applyCommit serde) records) :
    (pipeline.flushBuffer serde).worker.store.records =
      (pipeline.flushBuffer serde).passed.foldl (applyCommit serde) records := by
  rw [flushBuffer, records_flushCommitBatch, List.foldl_append, ← synced]

/-- A worker that receives has not dropped the receiver. -/
theorem connected_of_working {pipeline : Pipeline}
    (working : pipeline.phase = .running ∨ pipeline.phase = .draining) :
    pipeline.phase ≠ .exited := by
  rcases working with running | draining
  · simp [running]
  · simp [draining]

theorem conserves_next {serde : SerdeJson} {config : IngesterConfig} {records : Records}
    {source target : Pipeline} {step : PipelineStep}
    (held : source.Conserves serde config records)
    (stepped : next serde config source step = some target) :
    target.Conserves serde config records := by
  cases effect_of_next stepped with
  | quiet other phase channel buffer records_eq sent passed =>
      constructor
      · rw [phase, sent, passed, buffer, channel]
        exact held.conserved
      · rw [phase, sent, passed]
        exact held.settled
      · rw [phase, buffer]
        exact held.unbuffered
      · rw [buffer]
        exact held.immediate
      · rw [records_eq, passed]
        exact held.synced
  | accept commit connected =>
      constructor
      · intro _
        change source.sent ++ [commit] =
          source.passed ++ source.buffer ++ (source.channel ++ [commit])
        rw [held.conserved connected, List.append_assoc _ source.channel]
      · exact fun exited => absurd exited connected
      · exact held.unbuffered
      · exact held.immediate
      · exact held.synced
  | @single _ commit rest other working first immediate =>
      have connected := connected_of_working working
      have unbuffered := held.immediate immediate
      constructor
      · intro _
        change source.sent = source.passed ++ [commit] ++ source.buffer ++ rest
        rw [held.conserved connected, unbuffered, first]
        simp
      · exact fun exited => absurd exited connected
      · exact fun _ => unbuffered
      · exact held.immediate
      · exact synced_applySingle held.synced commit
  | batch count other working =>
      have connected : source.phase ≠ .exited := by simp [working]
      constructor
      · intro _
        change source.sent = source.passed ++ (source.buffer ++ source.channel.take count) ++ [] ++
          source.channel.drop count
        rw [held.conserved connected, List.append_nil, List.append_assoc, List.append_assoc,
          List.append_assoc, List.take_append_drop]
      · exact fun exited => absurd exited connected
      · exact fun _ => rfl
      · exact fun _ => rfl
      · exact synced_flushBuffer held.synced
  | @collect _ commit rest other working first batched =>
      have connected : source.phase ≠ .exited := by simp [working]
      constructor
      · intro _
        change source.sent = source.passed ++ (source.buffer ++ [commit]) ++ rest
        rw [held.conserved connected, first]
        simp
      · exact fun exited => absurd exited connected
      · intro absurd
        change source.phase = .running ∨ source.phase = .returning at absurd
        simp [working] at absurd
      · exact fun immediate => absurd immediate batched
      · exact held.synced
  | drain other working =>
      constructor
      · exact fun _ => held.conserved (by simp [working])
      · exact fun absurd => by cases absurd
      · exact fun _ => held.unbuffered (Or.inl working)
      · exact held.immediate
      · exact held.synced
  | finish other working empty immediate =>
      have connected := connected_of_working working
      constructor
      · exact fun _ => held.conserved connected
      · exact fun absurd => by cases absurd
      · exact fun _ => held.immediate immediate
      · exact held.immediate
      · exact held.synced
  | finishBatched other working empty =>
      constructor
      · exact fun _ => held.conserved (by simp [working])
      · exact fun absurd => by cases absurd
      · exact fun absurd => by rcases absurd with absurd | absurd <;> cases absurd
      · exact held.immediate
      · exact held.synced
  | flush other working =>
      have connected : source.phase ≠ .exited := by
        rcases working with flushing | ⟨running, _⟩
        · simp [flushing]
        · simp [running]
      constructor
      · intro _
        change source.sent = source.passed ++ source.buffer ++ [] ++ source.channel
        rw [held.conserved connected, List.append_nil]
      · exact fun absurd => by cases absurd
      · exact fun _ => rfl
      · exact fun _ => rfl
      · have synced : ({ source with phase := .returning } : Pipeline).worker.store.records =
            source.passed.foldl (applyCommit serde) records := held.synced
        exact synced_flushBuffer synced
  | drop other working =>
      constructor
      · exact fun connected => absurd rfl connected
      · intro _
        change source.passed <+: source.sent
        rw [held.conserved (by simp [working]), List.append_assoc]
        exact List.prefix_append _ _
      · exact fun absurd => by rcases absurd with absurd | absurd <;> cases absurd
      · exact held.immediate
      · exact held.synced

/-! ## Late sends -/

/-- The drain has ended and the receiver still exists. -/
def Closing (pipeline : Pipeline) : Prop :=
  pipeline.phase = .flushing ∨ pipeline.phase = .returning

/-- No `send` completes between the end of the drain and the drop of the
receiver. -/
def NoLateSend (pipeline : Pipeline) (step : PipelineStep) : Prop :=
  step = .send → ¬ pipeline.Closing

/-- Nothing is lost, nor bound to be: after the drain the channel is empty, and
in the end everything that was accepted has been passed on. -/
def Lossless (pipeline : Pipeline) : Prop :=
  (pipeline.Closing → pipeline.channel = []) ∧
    (pipeline.phase = .exited → pipeline.passed = pipeline.sent)

theorem lossless_of_working {pipeline : Pipeline}
    (working : pipeline.phase = .running ∨ pipeline.phase = .draining) : pipeline.Lossless := by
  rcases working with running | draining
  · simp [Lossless, Closing, running]
  · simp [Lossless, Closing, draining]

/-- A step keeps a pipeline lossless exactly if it is not a late send, and none
makes up for a loss. -/
theorem lossless_next {serde : SerdeJson} {config : IngesterConfig} {records : Records}
    {source target : Pipeline} {step : PipelineStep}
    (held : source.Conserves serde config records)
    (stepped : next serde config source step = some target) :
    target.Lossless ↔ source.Lossless ∧ source.NoLateSend step := by
  have onTime : step ≠ .send → source.NoLateSend step := fun other send => absurd send other
  cases effect_of_next stepped with
  | quiet other phase channel buffer records_eq sent passed =>
      have unsent : source.NoLateSend step := by
        intro send closing
        rw [Closing, other send] at closing
        rcases closing with absurd | absurd <;> cases absurd
      simp only [Lossless, Closing, phase, channel, sent, passed, unsent, and_true]
  | accept commit connected =>
      constructor
      · rintro ⟨empty, _⟩
        have open_ : ¬ source.Closing := by
          intro closing
          have absurd := empty closing
          simp at absurd
        exact ⟨⟨fun closing => absurd closing open_, fun exited => absurd exited connected⟩,
          fun _ => open_⟩
      · rintro ⟨_, unsent⟩
        exact ⟨fun closing => absurd closing (unsent rfl), fun exited => absurd exited connected⟩
  | single other working first immediate =>
      simp only [onTime other, lossless_of_working working, true_and, iff_true]
      exact lossless_of_working working
  | batch count other working =>
      simp only [onTime other, lossless_of_working (Or.inl working), true_and, iff_true]
      exact lossless_of_working (Or.inl working)
  | collect other working first batched =>
      simp only [onTime other, lossless_of_working (Or.inr working), true_and, iff_true]
      exact lossless_of_working (Or.inr working)
  | drain other working =>
      simp only [onTime other, lossless_of_working (Or.inl working), true_and, iff_true]
      exact lossless_of_working (Or.inr rfl)
  | finish other working empty immediate =>
      simp only [onTime other, lossless_of_working working, true_and, iff_true]
      exact ⟨fun _ => empty, fun absurd => by cases absurd⟩
  | finishBatched other working empty =>
      simp only [onTime other, lossless_of_working (Or.inr working), true_and, iff_true]
      exact ⟨fun _ => empty, fun absurd => by cases absurd⟩
  | flush other working =>
      simp only [onTime other, and_true]
      rcases working with flushing | ⟨running, empty⟩
      · constructor
        · rintro ⟨empty, _⟩
          exact ⟨fun _ => empty (Or.inr rfl),
            fun exited => by rw [flushing] at exited; cases exited⟩
        · rintro ⟨empty, _⟩
          exact ⟨fun _ => empty (Or.inl flushing), fun absurd => by cases absurd⟩
      · simp only [lossless_of_working (Or.inl running), iff_true]
        exact ⟨fun _ => empty, fun absurd => by cases absurd⟩
  | drop other working =>
      have conserved := held.conserved (by simp [working])
      rw [held.unbuffered (Or.inr working), List.append_nil] at conserved
      simp only [onTime other, and_true]
      constructor
      · rintro ⟨_, passedAll⟩
        have same : source.passed = source.sent := passedAll rfl
        rw [conserved] at same
        exact ⟨fun _ => List.self_eq_append_right.mp same,
          fun exited => by rw [working] at exited; cases exited⟩
      · rintro ⟨empty, _⟩
        rw [empty (Or.inr working), List.append_nil] at conserved
        exact ⟨fun _ => rfl, fun _ => conserved.symm⟩

/-- Graceful shutdown.  In a run of reader, worker and cancellation up to the
exit of the worker, in either mode, the commits that were passed on are the
first of those whose `tx.send` returned `Ok`, and they are applied to the
records.  They are all of them exactly if no `send` completes between the end
of the drain and the drop of the receiver. -/
theorem passed_eq_sent_iff (serde : SerdeJson) (config : IngesterConfig) {worker : Worker}
    {steps : List PipelineStep} {final : Pipeline}
    (reached : Transition.run (next serde config) (start worker) steps = some final)
    (exited : final.phase = .exited) :
    final.passed <+: final.sent ∧
      final.worker.store.records = final.passed.foldl (applyCommit serde) worker.store.records ∧
      (final.passed = final.sent ↔
        Along (next serde config) NoLateSend (start worker) steps) := by
  have started := conserves_start serde config worker
  have conserves : final.Conserves serde config worker.store.records :=
    Transition.invariant_of_run (fun _ _ _ held stepped => conserves_next held stepped) started
      reached
  have lossless : final.Lossless ↔ Along (next serde config) NoLateSend (start worker) steps := by
    apply Transition.holds_iff_along (fun _ _ _ held stepped => conserves_next held stepped) _ _
      started (lossless_of_working (Or.inl rfl)) reached
    · intro source step target held kept stepped
      rw [lossless_next held stepped]
      exact and_iff_right kept
    · intro source step target held stepped lossless
      exact ((lossless_next held stepped).mp lossless).1
  refine ⟨conserves.settled exited, conserves.synced, ?_⟩
  rw [← lossless]
  have unclosing : ¬ final.Closing := by simp [Closing, exited]
  constructor
  · exact fun same => ⟨fun closing => absurd closing unclosing, fun _ => same⟩
  · exact fun holds => holds.2 exited

/-- A consumer that wants everything, in the mode of the given batch size. -/
def plainConfig (batchSize : Nat) : IngesterConfig := ⟨[], [], none, 16, batchSize⟩

/-- The steps from the end of the drain to the exit. -/
def closingSteps : Nat → List PipelineStep
  | 0 => [.dropReceiver]
  | 1 => [.dropReceiver]
  | _ => [.flush, .dropReceiver]

/-- A shutdown during which the reader still sends loses nothing as long as the
drain goes on. -/
theorem passed_eq_sent_drained :
    let steps : List PipelineStep :=
      [.frame (aliceCommit .create (some .null) 5), .cancel, .drain, .send, .tryRecv, .tryRecv,
        .dropReceiver]
    let worker := newConsumer (plainConfig 1) RecordStore.empty
    ∃ final, Transition.run (next .scalars (plainConfig 1)) (start worker) steps = some final ∧
      final.phase = .exited ∧ final.sent.length = 1 ∧ final.passed = final.sent ∧
      Along (next .scalars (plainConfig 1)) NoLateSend (start worker) steps := by
  intro steps worker
  have reached : Transition.run (next .scalars (plainConfig 1)) (start worker) steps = some _ := rfl
  exact ⟨_, reached, rfl, rfl, rfl,
    (passed_eq_sent_iff .scalars (plainConfig 1) reached rfl).2.2.mp rfl⟩

/-- A send that completes after the drain is accepted and lost, in both
modes. -/
theorem passed_ne_sent_late :
    let commit := aliceCommit .create (some .null) 5
    ∀ batchSize ∈ [1, 50],
      let config := plainConfig batchSize
      let worker := newConsumer config RecordStore.empty
      ∃ final, Transition.run (next .scalars config) (start worker)
          ([.frame commit, .cancel, .drain, .tryRecv, .send] ++ closingSteps batchSize) =
            some final ∧
        final.phase = .exited ∧ commit ∈ final.sent ∧ commit ∉ final.passed := by
  intro commit batchSize mem
  simp only [List.mem_cons, List.not_mem_nil, or_false] at mem
  rcases mem with rfl | rfl
  · exact ⟨_, rfl, rfl, List.mem_singleton_self commit, List.not_mem_nil⟩
  · exact ⟨_, rfl, rfl, List.mem_singleton_self commit, List.not_mem_nil⟩

end Pipeline

end Skybase.Ingest
