import Skybase.Ingest.Reapplication
import Skybase.Ingest.System

/-!
# Reconnects and crashes

A consumer that reconnects starts again at the watermark, and one that crashes
starts again at the persisted cursor.  Either way commits are delivered again
to a store that may have applied them, and others behind them, already.  Once
the log is consumed, the table is nevertheless the one that a single pass over
the log leaves.  It takes that the operations on a URI have different
timestamps, or that the worker is idle whenever the reader reconnects.
-/

namespace Skybase.Ingest

open Skybase.Index
open Skybase.Json
open Skybase.Replay (Redelivery ResumesAt resumesAt_key resumesAt_append exists_filter_suffix)
open Skybase.Transition (Step Along run)

/-! ## The log from a cursor on -/

/-- The wanted commits of a log from a cursor on. -/
def wantedFrom (config : IngesterConfig) (cursor : U64) (log : List JetstreamEvent) :
    List JetstreamCommit :=
  (log.filterMap config.wanted).filter fun commit => cursor ≤ commit.timeUs

section Log

variable {config : IngesterConfig} {cursor : U64} {log : List JetstreamEvent}

theorem wantedFrom_append (first second : List JetstreamEvent) :
    wantedFrom config cursor (first ++ second) =
      wantedFrom config cursor first ++ wantedFrom config cursor second := by
  simp only [wantedFrom, List.filterMap_append, List.filter_append]

theorem mem_wantedFrom {commit : JetstreamCommit} (mem : commit ∈ wantedFrom config cursor log) :
    cursor ≤ commit.timeUs ∧ ∃ event ∈ log, event.timeUs = commit.timeUs := by
  obtain ⟨listed, bound⟩ := List.mem_filter.mp mem
  rcases List.mem_filterMap.mp listed with ⟨event, eventMem, wanted⟩
  exact ⟨of_decide_eq_true bound, event, eventMem, (IngesterConfig.timeUs_of_wanted wanted).symm⟩

theorem wantedFrom_cons_of_wanted {event : JetstreamEvent} {commit : JetstreamCommit}
    (wanted : config.wanted event = some commit) (bound : cursor ≤ event.timeUs) :
    wantedFrom config cursor (event :: log) = commit :: wantedFrom config cursor log := by
  rw [← IngesterConfig.timeUs_of_wanted wanted] at bound
  rw [wantedFrom, List.filterMap_cons_some wanted, List.filter_cons_of_pos (by simpa using bound)]
  rfl

theorem wantedFrom_cons_of_not_wanted {event : JetstreamEvent}
    (unwanted : config.wanted event = none) :
    wantedFrom config cursor (event :: log) = wantedFrom config cursor log := by
  rw [wantedFrom, List.filterMap_cons_none unwanted]
  rfl

theorem inOrder_wantedFrom
    (inOrder : log.Pairwise fun first second => first.timeUs ≤ second.timeUs) :
    InOrder (wantedFrom config cursor log) := by
  apply List.Pairwise.filter
  apply List.pairwise_filterMap.mpr
  apply inOrder.imp
  intro first second le commit wanted later laterWanted
  rw [IngesterConfig.timeUs_of_wanted wanted, IngesterConfig.timeUs_of_wanted laterWanted]
  exact le

end Log

/-! ## Recovery -/

/-- SQLite does not fail the step. -/
def TaskStep.FaultFree : TaskStep → Prop
  | .read => True
  | .take _ => True
  | .write sqlite => sqlite = none
  | .flush sqlite => sqlite = BatchAnswers.ok
  | .track => True
  | .persist sqlite => sqlite = none

namespace System

/-- SQLite does not fail the action. -/
def Action.FaultFree : Action → Prop
  | .task step => step.FaultFree
  | .connect _ => True
  | .disconnect => True
  | .restart => True

/-- The reader connects only while the worker has nothing left to do. -/
def ConnectsIdle (system : System) : Action → Prop
  | .connect _ => system.pending = [] ∧ system.phase = .idle
  | .task _ => True
  | .disconnect => True
  | .restart => True

/-- A cursor from which a connection misses none of the wanted commits after
the first `count`, and repeats none from before the initial cursor. -/
def Safe (config : IngesterConfig) (cursor : U64) (log : List JetstreamEvent) (count : Nat)
    (timeUs : U64) : Prop :=
  cursor ≤ timeUs ∧
    ResumesAt JetstreamCommit.timeUs (wantedFrom config cursor log) count timeUs

/-- What the worker still has to record is safe, and what it has tracked is
covered by the watermark. -/
def RecordsSafely (config : IngesterConfig) (cursor : U64) (log : List JetstreamEvent)
    (applied : Nat) (watermark : U64) : Phase → Prop
  | .idle => True
  | .written timeUs => Safe config cursor log applied timeUs
  | .tracked timeUs => Safe config cursor log applied timeUs ∧ timeUs ≤ watermark

/-- The invariant of a consumer that started at `cursor`: how far it has got in
applying and delivering the wanted commits, and that its cursors do not miss
any of the rest. -/
structure Recovers {serde : SerdeJson} {start : Records} (config : IngesterConfig) (cursor : U64)
    (log : List JetstreamEvent)
    (redelivery : Redelivery (applyCommit serde) start (wantedFrom config cursor log))
    (system : System) (applied delivered : Nat) : Prop where
  holds : redelivery.Holds system.worker.store.records system.pending applied delivered
  watermark : Safe config cursor log delivered system.worker.cursor.watermark
  /-- The persisted cursor; only in between a transaction and `cursor.update`
  it can be ahead of the watermark. -/
  persisted : ∃ saved, system.worker.store.getCursor = .ok (some saved) ∧
    Safe config cursor log applied saved ∧
      (saved ≤ system.worker.cursor.watermark ∨ system.phase = .written saved)
  recording : RecordsSafely config cursor log applied system.worker.cursor.watermark system.phase
  connected : ∀ frames, system.connection = some frames → ∃ before, log = before ++ frames ∧
    (wantedFrom config cursor before).length ≤ delivered ∧
    (redelivery.strict → (wantedFrom config cursor before).length = delivered) ∧
    ∀ event ∈ frames, cursor ≤ event.timeUs

section Step

variable {serde : SerdeJson} {config : IngesterConfig} {cursor : U64} {log : List JetstreamEvent}
  {start : Records}
  {redelivery : Redelivery (applyCommit serde) start (wantedFrom config cursor log)}
  {source target : System} {applied delivered : Nat}

theorem Safe.mono {count larger : Nat} {timeUs : U64} (safe : Safe config cursor log count timeUs)
    (grown : count ≤ larger) : Safe config cursor log larger timeUs :=
  ⟨safe.1, safe.2.mono grown⟩

/-- The timestamp of a commit that has been passed is a safe cursor. -/
theorem safe_timeUs (inOrder : log.Pairwise fun first second => first.timeUs ≤ second.timeUs)
    {count index : Nat} {commit : JetstreamCommit}
    (at_index : (wantedFrom config cursor log)[index]? = some commit) (passed : index < count) :
    Safe config cursor log count commit.timeUs :=
  ⟨(mem_wantedFrom (List.mem_of_getElem? at_index)).1,
    resumesAt_key (inOrder_wantedFrom inOrder) at_index passed⟩

theorem RecordsSafely.mono {count larger : Nat} {watermark later : U64} {phase : Phase}
    (recording : RecordsSafely config cursor log count watermark phase) (grown : count ≤ larger)
    (moved : watermark ≤ later) : RecordsSafely config cursor log larger later phase := by
  cases phase with
  | idle => trivial
  | written timeUs => exact Safe.mono recording grown
  | tracked timeUs => exact ⟨recording.1.mono grown, recording.2.trans moved⟩

/-- Reading a wanted commit delivers the next one, or an earlier one again. -/
theorem recovers_send (recovers : Recovers config cursor log redelivery source applied delivered)
    {event : JetstreamEvent} {rest : List JetstreamEvent} {commit : JetstreamCommit}
    (open_eq : source.connection = some (event :: rest))
    (wanted : config.wanted event = some commit) :
    ∃ after, Recovers config cursor log redelivery
      { source with connection := some rest, channel := source.channel ++ [commit] } applied
      after := by
  rcases recovers.connected _ open_eq with ⟨before, split, le, strict, bound⟩
  have at_index : (wantedFrom config cursor log)[(wantedFrom config cursor before).length]? =
      some commit := by
    rw [split, wantedFrom_append, wantedFrom_cons_of_wanted wanted (bound event List.mem_cons_self),
      List.getElem?_append_right (Nat.le_refl _), Nat.sub_self]
    rfl
  have read_eq : (wantedFrom config cursor (before ++ [event])).length =
      (wantedFrom config cursor before).length + 1 := by
    rw [wantedFrom_append, wantedFrom_cons_of_wanted wanted (bound event List.mem_cons_self),
      List.length_append]
    rfl
  exists max delivered ((wantedFrom config cursor before).length + 1)
  constructor
  case holds =>
    have sent := redelivery.delivers recovers.holds le strict at_index
    rw [pending, List.append_assoc] at sent
    exact sent
  case watermark => exact recovers.watermark.mono (le_max_left _ _)
  case persisted => exact recovers.persisted
  case recording => exact recovers.recording
  case connected =>
    rintro _ ⟨⟩
    have advanced : redelivery.strict → (wantedFrom config cursor before).length + 1 =
        max delivered ((wantedFrom config cursor before).length + 1) := by
      intro follows
      rw [strict follows, max_eq_right (Nat.le_succ _)]
    rw [List.append_cons] at split
    exact ⟨before ++ [event], split, read_eq ▸ le_max_right _ _, read_eq ▸ advanced,
      fun later mem => bound later (List.mem_cons_of_mem event mem)⟩

/-- A frame precedes everything that is delivered after it. -/
theorem resumesAt_frame (inOrder : log.Pairwise fun first second => first.timeUs ≤ second.timeUs)
    {before rest : List JetstreamEvent} {event : JetstreamEvent}
    (split : log = before ++ event :: rest)
    (passed : (wantedFrom config cursor before).length ≤ delivered) :
    ResumesAt JetstreamCommit.timeUs (wantedFrom config cursor log) delivered event.timeUs := by
  rw [split] at inOrder ⊢
  rw [wantedFrom_append]
  apply resumesAt_append _ passed
  intro commit mem
  rcases mem_wantedFrom mem with ⟨_, frame, frameMem, time_eq⟩
  rw [← time_eq]
  rcases List.mem_cons.mp frameMem with rfl | frameMem
  · exact le_refl _
  · exact (List.pairwise_cons.mp (List.pairwise_append.mp inOrder).2.1).1 frame frameMem

/-- Reading any other frame moves the watermark up to the frame. -/
theorem recovers_skip (inOrder : log.Pairwise fun first second => first.timeUs ≤ second.timeUs)
    (recovers : Recovers config cursor log redelivery source applied delivered)
    {event : JetstreamEvent} {rest : List JetstreamEvent}
    (open_eq : source.connection = some (event :: rest)) (unwanted : config.wanted event = none) :
    Recovers config cursor log redelivery
      { source with connection := some rest, worker := source.worker.track event.timeUs } applied
      delivered := by
  rcases recovers.connected _ open_eq with ⟨before, split, le, strict, bound⟩
  have watermark_eq : (source.worker.track event.timeUs).cursor.watermark =
      max source.worker.cursor.watermark event.timeUs := by
    rw [Worker.cursor_track, CursorTracker.watermark_advance]
  have moved : source.worker.cursor.watermark ≤
      (source.worker.track event.timeUs).cursor.watermark := by
    rw [watermark_eq]
    exact le_max_left _ _
  constructor
  case holds => exact recovers.holds
  case watermark =>
    rw [watermark_eq]
    exact ⟨recovers.watermark.1.trans (le_max_left _ _),
      recovers.watermark.2.max (resumesAt_frame inOrder split le)⟩
  case persisted =>
    obtain ⟨saved, stored, safe, ahead⟩ := recovers.persisted
    exact ⟨saved, stored, safe, ahead.imp_left fun le => le.trans moved⟩
  case recording => exact recovers.recording.mono (Nat.le_refl _) moved
  case connected =>
    rintro _ ⟨⟩
    have same : wantedFrom config cursor (before ++ [event]) = wantedFrom config cursor before := by
      rw [wantedFrom_append, wantedFrom_cons_of_not_wanted unwanted]
      exact List.append_nil _
    rw [List.append_cons] at split
    exact ⟨before ++ [event], split, same.symm ▸ le, same.symm ▸ strict,
      fun later mem => bound later (List.mem_cons_of_mem event mem)⟩

/-- Taking commits from the channel leaves them pending. -/
theorem recovers_take (recovers : Recovers config cursor log redelivery source applied delivered)
    (empty : source.buffer = []) (count : Nat) :
    Recovers config cursor log redelivery
      { source with
        channel := source.channel.drop count
        buffer := source.channel.take count } applied delivered := by
  constructor
  case holds =>
    have same : source.channel.take count ++ source.channel.drop count = source.pending := by
      rw [List.take_append_drop, pending, empty, List.nil_append]
    have holds := recovers.holds
    rw [← same] at holds
    exact holds
  case watermark => exact recovers.watermark
  case persisted => exact recovers.persisted
  case recording => exact recovers.recording
  case connected => exact recovers.connected

/-- Applying the commits at the head of the queue, with nothing or the time of
one of them left to record. -/
theorem recovers_apply {commits : List JetstreamCommit} {rest : List JetstreamCommit}
    {worker : Worker} {phase : Phase}
    (inOrder : log.Pairwise fun first second => first.timeUs ≤ second.timeUs)
    (recovers : Recovers config cursor log redelivery source applied delivered)
    (idle : source.phase = .idle) (taken : source.buffer = commits ++ rest)
    (records_eq : worker.store.records =
      commits.foldl (applyCommit serde) source.worker.store.records)
    (cursor_eq : worker.cursor = source.worker.cursor)
    (left : phase = .idle ∨ ∃ commit ∈ commits, phase = .written commit.timeUs)
    (stored : worker.store.getCursor = source.worker.store.getCursor ∨
      ∃ commit ∈ commits, phase = .written commit.timeUs ∧
        worker.store.getCursor = .ok (some commit.timeUs)) :
    ∃ after, Recovers config cursor log redelivery
      { source with worker, buffer := rest, phase } after delivered := by
  have holds := recovers.holds
  rw [pending, taken, List.append_assoc] at holds
  rcases redelivery.appliesAll holds with ⟨after, grown, passed, done⟩
  have safe : ∀ commit ∈ commits, Safe config cursor log after commit.timeUs := by
    intro commit mem
    rcases passed commit mem with ⟨index, below, at_index⟩
    exact safe_timeUs inOrder at_index below
  exists after
  constructor
  case holds =>
    rw [records_eq]
    exact done
  case watermark =>
    rw [cursor_eq]
    exact recovers.watermark
  case persisted =>
    rcases stored with unchanged | ⟨commit, mem, written, stored⟩
    · obtain ⟨saved, savedStored, savedSafe, behind | written⟩ := recovers.persisted
      · rw [← cursor_eq] at behind
        exact ⟨saved, unchanged.trans savedStored, savedSafe.mono grown, Or.inl behind⟩
      · rw [idle] at written
        cases written
    · exact ⟨commit.timeUs, stored, safe commit mem, Or.inr written⟩
  case recording =>
    rcases left with rfl | ⟨commit, mem, rfl⟩
    · trivial
    · exact safe commit mem
  case connected => exact recovers.connected

/-- A single store call applies its commit, or leaves it out because it is not
usable. -/
theorem recovers_write (inOrder : log.Pairwise fun first second => first.timeUs ≤ second.timeUs)
    (recovers : Recovers config cursor log redelivery source applied delivered)
    (idle : source.phase = .idle) {commit : JetstreamCommit} {rest : List JetstreamCommit}
    (taken : source.buffer = commit :: rest) {left : Option U64} {worker : Worker}
    (written : writeCommit serde none commit source.worker = (left, worker)) :
    ∃ after, Recovers config cursor log redelivery
      { source with worker, buffer := rest, phase := phaseAfter left } after delivered := by
  rcases writeCommit_cases serde none commit source.worker with
    ⟨failed, other, other_eq, store_eq, cursor_eq⟩ |
      ⟨_, _, other, other_eq, records_eq, meta_eq, cursor_eq⟩
  · rw [other_eq] at written
    cases written
    have unusable : ¬ commit.Usable := fun usable => failed ⟨usable, rfl⟩
    have records_eq : worker.store.records =
        [commit].foldl (applyCommit serde) source.worker.store.records := by
      rw [store_eq]
      exact (applyCommit_of_not_usable serde _ unusable).symm
    have unchanged : worker.store.getCursor = source.worker.store.getCursor := by rw [store_eq]
    exact recovers_apply inOrder recovers idle taken records_eq cursor_eq (Or.inl rfl)
      (Or.inl unchanged)
  · rw [other_eq] at written
    cases written
    change worker.store.records =
      [commit].foldl (applyCommit serde) source.worker.store.records at records_eq
    exact recovers_apply inOrder recovers idle taken records_eq cursor_eq
      (Or.inr ⟨commit, List.mem_singleton_self commit, rfl⟩) (Or.inl (getCursor_congr meta_eq))

/-- A transaction applies the buffer and persists its latest timestamp. -/
theorem recovers_flush (inOrder : log.Pairwise fun first second => first.timeUs ≤ second.timeUs)
    (recovers : Recovers config cursor log redelivery source applied delivered)
    (idle : source.phase = .idle) (taken : source.buffer ≠ []) {left : Option U64} {worker : Worker}
    (written : writeBatch serde BatchAnswers.ok source.buffer source.worker = (left, worker)) :
    ∃ after, Recovers config cursor log redelivery
      { source with worker, buffer := [], phase := phaseAfter left } after delivered := by
  rcases writeBatch_ok serde source.buffer source.worker with ⟨other, other_eq, store_eq, cursor_eq⟩
  rcases exists_latestTime taken with ⟨latest, latest_eq, ⟨newest, mem, rfl⟩, _⟩
  rw [other_eq, latest_eq] at written
  cases written
  rw [latest_eq] at store_eq
  have records_eq : worker.store.records =
      source.buffer.foldl (applyCommit serde) source.worker.store.records := by
    rw [store_eq, foldl_applyCommit]
    rfl
  have stored : worker.store.getCursor = .ok (some newest.timeUs) := by
    rw [store_eq]
    exact getCursor_afterBatch serde _ _ _
  exact recovers_apply inOrder recovers idle (List.append_nil _).symm records_eq cursor_eq
    (Or.inr ⟨newest, mem, rfl⟩) (Or.inr ⟨newest, mem, rfl, stored⟩)

/-- `cursor.update` moves the watermark to a commit that has been applied. -/
theorem recovers_track (recovers : Recovers config cursor log redelivery source applied delivered)
    {timeUs : U64} (written : source.phase = .written timeUs) :
    Recovers config cursor log redelivery
      { source with
        worker := source.worker.track timeUs
        phase := if config.Immediate then .tracked timeUs else .idle } applied delivered := by
  have safe : Safe config cursor log applied timeUs := by
    have recording := recovers.recording
    rw [written] at recording
    exact recording
  have watermark_eq : (source.worker.track timeUs).cursor.watermark =
      max source.worker.cursor.watermark timeUs := by
    rw [Worker.cursor_track, CursorTracker.watermark_advance]
  constructor
  case holds => exact recovers.holds
  case watermark =>
    rw [watermark_eq]
    exact ⟨recovers.watermark.1.trans (le_max_left _ _),
      recovers.watermark.2.max (safe.mono (redelivery.le recovers.holds)).2⟩
  case persisted =>
    obtain ⟨saved, stored, savedSafe, behind | same⟩ := recovers.persisted
    · exact ⟨saved, stored, savedSafe, Or.inl (watermark_eq ▸ behind.trans (le_max_left _ _))⟩
    · have same_eq : timeUs = saved := Phase.written.inj (written.symm.trans same)
      rw [same_eq] at watermark_eq ⊢
      exact ⟨saved, stored, savedSafe, Or.inl (watermark_eq ▸ le_max_right _ _)⟩
  case recording =>
    dsimp only
    split
    · exact ⟨safe, watermark_eq ▸ le_max_right _ _⟩
    · trivial
  case connected => exact recovers.connected

/-- `set_cursor` persists what the worker has tracked. -/
theorem recovers_persist (recovers : Recovers config cursor log redelivery source applied delivered)
    {timeUs : U64} (tracked : source.phase = .tracked timeUs) :
    Recovers config cursor log redelivery
      { source with worker := source.worker.persist none timeUs, phase := .idle } applied
      delivered := by
  have recording := recovers.recording
  rw [tracked] at recording
  constructor
  case holds =>
    have holds := recovers.holds
    rw [← Worker.records_persist none source.worker timeUs] at holds
    exact holds
  case watermark => exact recovers.watermark
  case persisted =>
    exact ⟨timeUs, getCursor_persist_ok source.worker timeUs, recording.1, Or.inl recording.2⟩
  case recording => trivial
  case connected => exact recovers.connected

/-- Every step of a task that SQLite does not fail keeps the invariant. -/
theorem recovers_taskStep (inOrder : log.Pairwise fun first second => first.timeUs ≤ second.timeUs)
    (recovers : Recovers config cursor log redelivery source applied delivered) {step : TaskStep}
    (faultFree : step.FaultFree) (stepped : source.taskStep serde config step = some target) :
    ∃ after afterDelivered, Recovers config cursor log redelivery target after afterDelivered := by
  cases step with
  | read =>
      rcases read_cases stepped with
        ⟨event, rest, open_eq, ⟨commit, wanted, _, rfl⟩ | ⟨unwanted, rfl⟩⟩
      · exact ⟨applied, recovers_send recovers open_eq wanted⟩
      · exact ⟨applied, delivered, recovers_skip inOrder recovers open_eq unwanted⟩
  | take count =>
      rcases take_cases stepped with ⟨_, empty, rfl⟩
      exact ⟨applied, delivered, recovers_take recovers empty count⟩
  | write sqlite =>
      rcases write_cases stepped with ⟨commit, rest, left, worker, idle, taken, _, written, rfl⟩
      cases faultFree
      rcases recovers_write inOrder recovers idle taken written with ⟨after, kept⟩
      exact ⟨after, delivered, kept⟩
  | flush sqlite =>
      rcases flush_cases stepped with ⟨left, worker, idle, taken, _, written, rfl⟩
      cases faultFree
      rcases recovers_flush inOrder recovers idle taken written with ⟨after, kept⟩
      exact ⟨after, delivered, kept⟩
  | track =>
      rcases track_cases stepped with ⟨timeUs, written, rfl⟩
      exact ⟨applied, delivered, recovers_track recovers written⟩
  | persist sqlite =>
      rcases persist_cases stepped with ⟨timeUs, tracked, rfl⟩
      cases faultFree
      exact ⟨applied, delivered, recovers_persist recovers tracked⟩

/-- A connection at the watermark delivers the rest of the log from a point on
that the reader has reached before. -/
theorem replayFrom_watermark
    (inOrder : log.Pairwise fun first second => first.timeUs ≤ second.timeUs)
    {watermark : U64} (safe : Safe config cursor log delivered watermark) (live : Nat) :
    ∃ before, log = before ++ replayFrom log live (some watermark) ∧
      (wantedFrom config cursor before).length ≤ delivered ∧
      (∀ event ∈ replayFrom log live (some watermark), cursor ≤ event.timeUs) ∧
      ResumesAt JetstreamCommit.timeUs (wantedFrom config cursor log)
        (wantedFrom config cursor before).length watermark := by
  rcases exists_filter_suffix inOrder watermark with ⟨before, split, older⟩
  change log = before ++ replayFrom log live (some watermark) at split
  have reached : ∀ event ∈ replayFrom log live (some watermark), watermark ≤ event.timeUs :=
    fun event mem => of_decide_eq_true (List.mem_filter.mp mem).2
  have wanted_eq : wantedFrom config cursor log = wantedFrom config cursor before ++
      wantedFrom config cursor (replayFrom log live (some watermark)) := by
    rw [← wantedFrom_append]
    exact congrArg _ split
  have passed : (wantedFrom config cursor before).length ≤ delivered := by
    have resumes := safe.2
    rw [wanted_eq] at resumes
    apply resumes.length_le
    intro commit mem
    rcases mem_wantedFrom mem with ⟨_, event, eventMem, time_eq⟩
    rw [← time_eq]
    exact older event eventMem
  have resumes : ResumesAt JetstreamCommit.timeUs (wantedFrom config cursor log)
      (wantedFrom config cursor before).length watermark := by
    rw [wanted_eq]
    apply resumesAt_append _ (Nat.le_refl _)
    intro commit mem
    rcases mem_wantedFrom mem with ⟨_, event, eventMem, time_eq⟩
    rw [← time_eq]
    exact reached event eventMem
  exact ⟨before, split, passed, fun event mem => safe.1.trans (reached event mem), resumes⟩

/-- A connection at the watermark sets delivery back, but not past anything
that is still to be delivered. -/
theorem recovers_connect
    (inOrder : log.Pairwise fun first second => first.timeUs ≤ second.timeUs)
    (positive : 0 < cursor)
    (recovers : Recovers config cursor log redelivery source applied delivered)
    (idle : redelivery.strict → source.pending = [] ∧ source.phase = .idle) (live : Nat) :
    ∃ after afterDelivered, Recovers config cursor log redelivery
      { source with connection := some (replayFrom log live source.worker.cursor.getOpt) } after
      afterDelivered := by
  have opened : source.worker.cursor.getOpt = some source.worker.cursor.watermark :=
    if_neg (positive.trans_le recovers.watermark.1).ne'
  rw [opened]
  rcases replayFrom_watermark inOrder recovers.watermark live with
    ⟨before, split, le, bound, resumes⟩
  by_cases strict : redelivery.strict
  · rcases idle strict with ⟨empty, resting⟩
    exists (wantedFrom config cursor before).length, (wantedFrom config cursor before).length
    constructor
    case holds =>
      have holds := recovers.holds
      rw [empty] at holds
      have back := redelivery.resumes strict holds le
      rw [← empty] at back
      exact back
    case watermark => exact ⟨recovers.watermark.1, resumes⟩
    case persisted =>
      obtain ⟨saved, stored, safe, behind | written⟩ := recovers.persisted
      · exact ⟨saved, stored, ⟨safe.1, resumes.of_le behind⟩, Or.inl behind⟩
      · rw [resting] at written
        cases written
    case recording =>
      dsimp only
      rw [resting]
      trivial
    case connected =>
      rintro _ ⟨⟩
      exact ⟨before, split, Nat.le_refl _, fun _ => rfl, bound⟩
  · exists applied, delivered
    constructor
    case holds => exact recovers.holds
    case watermark => exact recovers.watermark
    case persisted => exact recovers.persisted
    case recording => exact recovers.recording
    case connected =>
      rintro _ ⟨⟩
      exact ⟨before, split, le, fun absurd => (strict absurd).elim, bound⟩

/-- Without a connection everything else stays as it is. -/
theorem recovers_disconnect
    (recovers : Recovers config cursor log redelivery source applied delivered) :
    Recovers config cursor log redelivery { source with connection := none } applied delivered := by
  constructor
  case holds => exact recovers.holds
  case watermark => exact recovers.watermark
  case persisted => exact recovers.persisted
  case recording => exact recovers.recording
  case connected => rintro _ ⟨⟩

/-- A consumer that starts on a store with a persisted cursor resumes from
it. -/
theorem worker_booted (unset : config.initialCursor = none) {store : RecordStore} {saved : U64}
    (stored : store.getCursor = .ok (some saved)) :
    (booted config store).worker.store = store ∧
      (booted config store).worker.cursor.watermark = saved := by
  have resumed : (newConsumer config store).resume config =
      { newConsumer config store with cursor := ⟨saved⟩ } := by
    simp [Worker.resume, newConsumer, unset, stored, CursorTracker.get, CursorTracker.new,
      CursorTracker.forceRewind]
  rw [booted, resumed]
  exact ⟨rfl, rfl⟩

/-- A start from a safe persisted cursor, with nothing pending. -/
theorem recovers_booted (unset : config.initialCursor = none) {store : RecordStore} {saved : U64}
    (stored : store.getCursor = .ok (some saved))
    (holds : redelivery.Holds store.records [] applied applied)
    (safe : Safe config cursor log applied saved) :
    Recovers config cursor log redelivery (booted config store) applied applied := by
  rcases worker_booted unset stored with ⟨store_eq, watermark_eq⟩
  rw [← store_eq] at holds stored
  rw [← watermark_eq] at safe stored
  constructor
  case holds => exact holds
  case watermark => exact safe
  case persisted => exact ⟨_, stored, safe, Or.inl (le_refl _)⟩
  case recording => trivial
  case connected => rintro _ ⟨⟩

/-- Every action that SQLite does not fail keeps the invariant. -/
theorem recovers_next (unset : config.initialCursor = none) (positive : 0 < cursor)
    (inOrder : log.Pairwise fun first second => first.timeUs ≤ second.timeUs) {action : Action}
    (recovers : Recovers config cursor log redelivery source applied delivered)
    (faultFree : action.FaultFree) (idle : redelivery.strict → source.ConnectsIdle action)
    (step : next serde config log source action = some target) :
    ∃ after afterDelivered, Recovers config cursor log redelivery target after afterDelivered := by
  cases action with
  | task taskStep => exact recovers_taskStep inOrder recovers faultFree step
  | connect live =>
      simp only [next] at step
      split at step
      · cases step
        exact recovers_connect inOrder positive recovers idle live
      · cases step
  | disconnect =>
      simp only [next] at step
      split at step
      · cases step
        exact ⟨applied, delivered, recovers_disconnect recovers⟩
      · cases step
  | restart =>
      cases step
      obtain ⟨saved, stored, safe, _⟩ := recovers.persisted
      exact ⟨applied, applied, recovers_booted unset stored (redelivery.loses recovers.holds) safe⟩

end Step

section Run

variable {serde : SerdeJson} {config : IngesterConfig} {cursor : U64} {log : List JetstreamEvent}
  {store : RecordStore}

/-- A run that SQLite does not fail, on a log that is redelivered properly,
leaves the table of one pass over the log as soon as it has consumed it. -/
theorem records_of_consumed
    (redelivery : Redelivery (applyCommit serde) store.records (wantedFrom config cursor log))
    (unset : config.initialCursor = none) (stored : store.getCursor = .ok (some cursor))
    (positive : 0 < cursor)
    (inOrder : log.Pairwise fun first second => first.timeUs ≤ second.timeUs)
    {actions : List Action} {final : System} (faultFree : ∀ action ∈ actions, action.FaultFree)
    (idle : redelivery.strict →
      Along (next serde config log) ConnectsIdle (booted config store) actions)
    (reached : run (next serde config log) (booted config store) actions = some final)
    (consumed : final.connection = some []) (empty : final.pending = []) :
    final.worker.store.records =
      (wantedFrom config cursor log).foldl (applyCommit serde) store.records := by
  have start : Recovers config cursor log redelivery (booted config store) 0 0 := by
    apply recovers_booted unset stored redelivery.begins
    exact ⟨le_refl _, fun commit mem => (mem_wantedFrom (List.mem_of_mem_drop mem)).1⟩
  have guarded := (Transition.along_of_forall_mem faultFree).and (Transition.along_imp idle)
  obtain ⟨applied, delivered, recovers⟩ : ∃ applied delivered,
      Recovers config cursor log redelivery final applied delivered := by
    apply Transition.invariant_of_along _ ⟨0, 0, start⟩ guarded reached
    rintro source action target ⟨applied, delivered, recovers⟩ ⟨free, idleHere⟩ step
    exact recovers_next unset positive inOrder recovers free idleHere step
  rcases recovers.connected [] consumed with ⟨before, split, passed, _⟩
  rw [List.append_nil] at split
  have holds := recovers.holds
  rw [empty] at holds
  apply redelivery.finishes holds
  rw [split]
  exact passed

/-- Crash and restart refinement.  Without failures of SQLite, and from a
persisted cursor on, every run of a consumer, with any reconnects and crashes,
that has consumed the log leaves the table of one uninterrupted pass over the
wanted commits, if usable commits on one URI with one timestamp are one
operation, or if the reader connects only while the worker is idle. -/
theorem records_eq_syncSingly (serde : SerdeJson) (unset : config.initialCursor = none)
    (stored : store.getCursor = .ok (some cursor)) (positive : 0 < cursor)
    (inOrder : log.Pairwise fun first second => first.timeUs ≤ second.timeUs)
    {actions : List Action} {final : System} (faultFree : ∀ action ∈ actions, action.FaultFree)
    (orderly : Unambiguous (wantedFrom config cursor log) ∨
      Along (next serde config log) ConnectsIdle (booted config store) actions)
    (reached : run (next serde config log) (booted config store) actions = some final)
    (consumed : final.connection = some []) (empty : final.pending = []) :
    final.worker.store.records =
      (syncSingly serde (newConsumer config store)
        (wantedFrom config cursor log)).store.records := by
  have wantedInOrder : InOrder (wantedFrom config cursor log) := inOrder_wantedFrom inOrder
  rw [records_syncSingly]
  rcases orderly with unambiguous | idle
  · let redelivery := Redelivery.settled (settles_applyCommit serde store.records wantedInOrder
      unambiguous)
    apply records_of_consumed redelivery unset stored positive inOrder faultFree _ reached consumed
      empty
    intro absurd
    cases absurd
  · let redelivery := Redelivery.retraced (retraces_applyCommit serde store.records wantedInOrder)
    exact records_of_consumed redelivery unset stored positive inOrder faultFree (fun _ => idle)
      reached consumed empty

end Run

/-- A store that has persisted a cursor and nothing else. -/
def storeAt (cursor : U64) : RecordStore := (RecordStore.empty.setCursor none cursor).2

theorem getCursor_storeAt (cursor : U64) : (storeAt cursor).getCursor = .ok (some cursor) := by
  have written : (storeAt cursor).skybaseMeta =
      RecordStore.empty.skybaseMeta.insert "cursor" cursor.text := rfl
  exact getCursor_of_insert written

/-- A crash between the store call and `set_cursor`. -/
theorem records_eq_syncSingly_crash :
    let config : IngesterConfig := ⟨[], [], none, 16, 1⟩
    let log := [JetstreamEvent.commit (aliceCommit .create (some (.bool true)) 5)]
    let actions : List Action := [.connect 0, .task .read, .task (.take 1), .task (.write none),
      .restart, .connect 0, .task .read, .task (.take 1), .task (.write none)]
    ∃ final, run (next .scalars config log) (booted config (storeAt 1)) actions = some final ∧
      final.worker.store.records =
        (syncSingly .scalars (newConsumer config (storeAt 1))
          (wantedFrom config 1 log)).store.records := by
  intro config log actions
  have faultFree : ∀ action ∈ actions, action.FaultFree := by
    simp [actions, Action.FaultFree, TaskStep.FaultFree]
  have unambiguous : Unambiguous (wantedFrom config 1 log) := by
    have once : wantedFrom config 1 log = [aliceCommit .create (some (.bool true)) 5] := rfl
    intro first firstMem second secondMem _ _
    rw [once] at firstMem secondMem
    rw [List.mem_singleton.mp (List.mem_filter.mp firstMem).1,
      List.mem_singleton.mp (List.mem_filter.mp secondMem).1]
  exact ⟨_, rfl, records_eq_syncSingly .scalars rfl (getCursor_storeAt 1) (by decide)
    (by simp [log]) faultFree (Or.inl unambiguous) rfl rfl rfl⟩

/-- Two updates with one timestamp, delivered together with a later commit,
and the first of them again before the connection drops: the batch of all four
leaves the first update, and the connection at the watermark delivers neither
of them again. -/
theorem records_ne_syncSingly_reconnect :
    let config : IngesterConfig := ⟨[], [], none, 16, 8⟩
    let later := { aliceCommit .create (some (.bool true)) 9 with rkey := "r2" }
    let log := [JetstreamEvent.commit (aliceCommit .update (some (.bool true)) 5),
      .commit (aliceCommit .update (some (.bool false)) 5), .commit later]
    let actions : List Action := [.connect 0, .task .read, .task .read, .task .read, .disconnect,
      .connect 0, .task .read, .disconnect, .task (.take 4), .task (.flush .ok), .task .track,
      .connect 0, .task .read, .task (.take 1), .task (.flush .ok), .task .track]
    (log.Pairwise fun first second => first.timeUs ≤ second.timeUs) ∧
      (storeAt 1).getCursor = .ok (some 1) ∧ (∀ action ∈ actions, action.FaultFree) ∧
      ∃ final, run (next .scalars config log) (booted config (storeAt 1)) actions = some final ∧
        final.connection = some [] ∧ final.pending = [] ∧
        final.worker.store.records ≠
          (syncSingly .scalars (newConsumer config (storeAt 1))
            (wantedFrom config 1 log)).store.records := by
  intro config later log actions
  refine ⟨by simp [log, later, aliceCommit, JetstreamEvent.timeUs], getCursor_storeAt 1, ?_, _, rfl,
    rfl, rfl, ?_⟩
  · simp [actions, Action.FaultFree, TaskStep.FaultFree]
  · intro same
    have sameText := congrArg (fun records =>
      (records.lookup "at://did:plc:alice/app.bsky.feed.post/r1").map Row.recordJson) same
    exact absurd sameText (by decide)

end System

end Skybase.Ingest
