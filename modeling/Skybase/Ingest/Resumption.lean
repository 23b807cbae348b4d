import Skybase.Ingest.Delivery
import Skybase.Ingest.Persistence

/-!
# Resuming a subscription

A subscriber keeps a store behind the streamer, saves the time of the commit
that it applied last as the cursor of the store, and may end at any moment.  The
next process asks `resolve_resume_cursor` where to continue, which is before the
saved cursor by the overlap, so that it receives again what the last one had
applied already.  As long as it starts within the replay window after the saved
cursor, no commit is lost, and the store never falls back.
-/

namespace Skybase.Ingest

open Skybase.Index
open Skybase.Json
open Skybase.Replay (Covers ResumesAt)
open Skybase.Transition

/-! ## The resume cursor -/

/-- A cursor that stays beyond the overlap when it is rewound. -/
def BeyondOverlap (cursor : U64) : Prop :=
  cursorRewindOverlapUs < cursor.saturatingSub cursorRewindOverlapUs

theorem pos_of_beyondOverlap {cursor : U64} (beyond : BeyondOverlap cursor) : 0 < cursor := by
  apply lt_of_le_of_lt (Fin.zero_le cursorRewindOverlapUs)
  exact lt_of_lt_of_le beyond (Nat.sub_le _ _)

@[simp]
theorem resolveResumeCursor_zero (nowUs : U64) : resolveResumeCursor 0 nowUs = none :=
  if_pos rfl

/-- Within the replay window, a subscription resumes at the saved cursor or
before it. -/
theorem exists_resolveResumeCursor {saved nowUs : U64} (beyond : BeyondOverlap saved)
    (timely : nowUs.saturatingSub maxJetstreamReplayWindowUs ≤ saved) :
    ∃ cursor, resolveResumeCursor saved nowUs = some cursor ∧ cursorRewindOverlapUs < cursor ∧
      cursor ≤ saved := by
  have late := lt_of_lt_of_le beyond
    (le_max_left _ (nowUs.saturatingSub maxJetstreamReplayWindowUs))
  have positive := lt_of_le_of_lt (Fin.zero_le cursorRewindOverlapUs) late
  refine ⟨_, ?_, late, max_le (Nat.sub_le _ _) timely⟩
  rw [resolveResumeCursor, if_neg (pos_of_beyondOverlap beyond).ne']
  exact (Option.filter_some).trans (if_pos (decide_eq_true positive))

/-! ## The subscriber -/

variable {decode : String → Except String RawJetstreamMessage}

/-- A subscriber: the configuration of its process, the session of the listener,
how many of the commits that this sent are applied, and the store. -/
structure Subscriber (decode : String → Except String RawJetstreamMessage) where
  active : StreamConfig
  session : StreamRun decode
  applied : Nat
  store : RecordStore

/-- The steps of a subscriber. -/
inductive SubscriberStep where
  /-- A step of the listener, the server or the network. -/
  | stream (step : StreamStep)
  /-- The next commit goes through `sync_commit_to_store`. -/
  | apply
  /-- The time of the commit applied last goes through `set_cursor`. -/
  | save
  /-- The process ends, and another one starts. -/
  | restart (nowUs : U64)

/-- The configuration of a process: it continues from the cursor of the store. -/
def resumedConfig (config : StreamConfig) (store : RecordStore) (nowUs : U64) : StreamConfig :=
  match resolveResumeCursor ((persistedCursor store).getD 0) nowUs with
  | some cursor => config.withCursor cursor
  | none => config

namespace Subscriber

/-- A process that starts. -/
def boot (config : StreamConfig) (store : RecordStore) (nowUs : U64) : Subscriber decode where
  active := resumedConfig config store nowUs
  session := .start (resumedConfig config store nowUs)
  applied := 0
  store := store

/-- The commits applied by the process. -/
def handled (state : Subscriber decode) : List JetstreamCommit :=
  state.session.received.take state.applied

/-- The steps of a subscriber against a server.  SQLite does not fail. -/
def next (form : Form.Encoder) (serde : SerdeJson) (config : StreamConfig)
    (log : ServerLog decode) (state : Subscriber decode) :
    SubscriberStep → Option (Subscriber decode)
  | .stream step =>
      (state.session.next form state.active log step).map fun session =>
        { state with session }
  | .apply =>
      state.session.received[state.applied]?.map fun commit =>
        { state with
          applied := state.applied + 1
          store := (syncCommitToStore serde none state.store commit).2 }
  | .save =>
      state.handled.getLast?.map fun commit =>
        { state with store := (state.store.setCursor none commit.timeUs).2 }
  | .restart nowUs => some (boot config state.store nowUs)

/-- A process starts within the replay window after the saved cursor. -/
def Timely (state : Subscriber decode) : SubscriberStep → Prop
  | .restart nowUs => ∀ cursor, persistedCursor state.store = some cursor →
      nowUs.saturatingSub maxJetstreamReplayWindowUs ≤ cursor
  | _ => True

end Subscriber

/-! ## Cursors and the log -/

/-- The commits before a cursor that misses none are applied. -/
theorem ServerLog.length_le_of_resumesAt {log : ServerLog decode} {cursor : U64} {frontier : Nat}
    (resumes : ResumesAt JetstreamCommit.timeUs log.commits frontier cursor) :
    (log.commitsBefore cursor).length ≤ frontier := by
  rcases log.exists_commits_eq cursor with ⟨after, cut, older, _⟩
  rw [cut] at resumes
  exact resumes.length_le older

/-! ## The metadata of a store -/

theorem persistedCursor_congr {first second : RecordStore}
    (same : first.skybaseMeta = second.skybaseMeta) :
    persistedCursor first = persistedCursor second :=
  congrArg (fun cursor => cursor.toOption.join) (getCursor_congr same)

theorem skybaseMeta_syncCommitToStore (serde : SerdeJson) (store : RecordStore)
    (commit : JetstreamCommit) :
    (syncCommitToStore serde none store commit).2.skybaseMeta = store.skybaseMeta := by
  rw [store_syncCommitToStore]
  cases commit.toOperation with
  | none => rfl
  | some op =>
      rw [Option.elim_some, RecordStore.execute_eq]

theorem persistedCursor_setCursor (store : RecordStore) (cursor : U64) :
    persistedCursor (store.setCursor none cursor).2 = some cursor := by
  have written : (store.setCursor none cursor).2.skybaseMeta =
      store.skybaseMeta.insert "cursor" cursor.text := rfl
  exact (getCursor_eq_iff _ _).mp (getCursor_of_insert written)

/-! ## The invariant -/

namespace Subscriber

/-- The store has followed the log up to a frontier; the configured cursor and
the saved one miss nothing from there on; and what is sent but not yet applied
continues the log without a gap. -/
structure Sound (serde : SerdeJson) (config : StreamConfig) (log : ServerLog decode)
    (records : Records) (first : U64) (state : Subscriber decode) (frontier : Nat) : Prop where
  endpoint : state.active.endpoint = config.endpoint
  follows : StreamRun.Follows serde log records state.store frontier
  configured : ResumesAt JetstreamCommit.timeUs log.commits frontier first
  saved : ∀ cursor, persistedCursor state.store = some cursor →
    BeyondOverlap cursor ∧ ResumesAt JetstreamCommit.timeUs log.commits frontier cursor
  within : state.applied ≤ state.session.received.length
  passed : ∀ commit ∈ state.handled, ∃ index, index < frontier ∧ log.commits[index]? = some commit
  queued : ∃ initial sent further, cursorRewindOverlapUs < initial ∧
    state.session.Forwards log initial sent ∧ sent ≤ further ∧
      Covers log.commits frontier (state.session.received.drop state.applied) further

variable {form : Form.Encoder} {serde : SerdeJson} {config : StreamConfig}
  {log : ServerLog decode} {records : Records} {first : U64} {state : Subscriber decode}
  {frontier : Nat}

theorem endpoint_resumedConfig (config : StreamConfig) (store : RecordStore) (nowUs : U64) :
    (resumedConfig config store nowUs).endpoint = config.endpoint := by
  unfold resumedConfig
  split <;> rfl

/-- A process continues at a cursor that misses nothing. -/
theorem exists_cursor_resumedConfig (configured : config.cursor = some first)
    (late : cursorRewindOverlapUs < first) {store : RecordStore} {nowUs : U64}
    (resumes : ResumesAt JetstreamCommit.timeUs log.commits frontier first)
    (saved : ∀ cursor, persistedCursor store = some cursor →
      BeyondOverlap cursor ∧ ResumesAt JetstreamCommit.timeUs log.commits frontier cursor)
    (timely : ∀ cursor, persistedCursor store = some cursor →
      nowUs.saturatingSub maxJetstreamReplayWindowUs ≤ cursor) :
    ∃ initial, (resumedConfig config store nowUs).cursor = some initial ∧
      cursorRewindOverlapUs < initial ∧
        ResumesAt JetstreamCommit.timeUs log.commits frontier initial := by
  unfold resumedConfig
  cases stored : persistedCursor store with
  | none =>
      rw [Option.getD_none, resolveResumeCursor_zero]
      exact ⟨first, configured, late, resumes⟩
  | some cursor =>
      rcases saved cursor stored with ⟨beyond, resumesSaved⟩
      rcases exists_resolveResumeCursor beyond (timely cursor stored) with
        ⟨initial, resolved, lateInitial, le⟩
      have positive : initial > 0 := lt_of_le_of_lt (Fin.zero_le cursorRewindOverlapUs) lateInitial
      rw [Option.getD_some, resolved]
      exact ⟨initial, if_pos positive, lateInitial, resumesSaved.of_le le⟩

theorem sound_boot (configured : config.cursor = some first)
    (late : cursorRewindOverlapUs < first) {store : RecordStore} {nowUs : U64}
    (follows : StreamRun.Follows serde log records store frontier)
    (resumes : ResumesAt JetstreamCommit.timeUs log.commits frontier first)
    (saved : ∀ cursor, persistedCursor store = some cursor →
      BeyondOverlap cursor ∧ ResumesAt JetstreamCommit.timeUs log.commits frontier cursor)
    (timely : ∀ cursor, persistedCursor store = some cursor →
      nowUs.saturatingSub maxJetstreamReplayWindowUs ≤ cursor) :
    Sound serde config log records first (boot config store nowUs) frontier := by
  rcases exists_cursor_resumedConfig configured late resumes saved timely with
    ⟨initial, active, lateInitial, resumesInitial⟩
  exact
    { endpoint := endpoint_resumedConfig config store nowUs
      follows := follows
      configured := resumes
      saved := saved
      within := Nat.le_refl 0
      passed := List.forall_mem_nil _
      queued := ⟨initial, _, frontier, lateInitial, StreamRun.forwards_start active,
        ServerLog.length_le_of_resumesAt resumesInitial, rfl⟩ }

/-- What the listener sends meanwhile joins the queue. -/
theorem Sound.stream (fresh : Text.containsText config.endpoint "cursor=" = false)
    (sound : Sound serde config log records first state frontier) {step : StreamStep}
    {session : StreamRun decode}
    (stepped : state.session.next form state.active log step = some session) :
    Sound serde config log records first { state with session } frontier := by
  rcases sound.queued with ⟨initial, sent, further, late, forwards, le, covers⟩
  rw [← sound.endpoint] at fresh
  rcases StreamRun.forwards_next fresh late forwards stepped with
    ⟨sentAfter, commits, kept, received_eq, advanced⟩
  have handled_eq : ({ state with session } : Subscriber decode).handled = state.handled := by
    rw [handled, handled]
    dsimp only
    rw [received_eq, List.take_append_of_le_length sound.within]
  refine
    { endpoint := sound.endpoint
      follows := sound.follows
      configured := sound.configured
      saved := sound.saved
      within := ?_
      passed := ?_
      queued := ⟨initial, sentAfter, _, late, kept, Nat.le_max_right further sentAfter, ?_⟩ }
  · dsimp only
    rw [received_eq, List.length_append]
    exact sound.within.trans (Nat.le_add_right _ _)
  · rw [handled_eq]
    exact sound.passed
  · dsimp only
    rw [received_eq, List.drop_append_of_le_length sound.within]
    exact (Replay.covers_append_iff _ _ _ _ _).mpr ⟨further, covers, advanced.raise le⟩

/-- The store follows the log through the next commit. -/
theorem Sound.apply (unambiguous : Unambiguous log.commits)
    (sound : Sound serde config log records first state frontier) {commit : JetstreamCommit}
    (head : state.session.received[state.applied]? = some commit) :
    ∃ after, frontier ≤ after ∧ Sound serde config log records first
      { state with
        applied := state.applied + 1
        store := (syncCommitToStore serde none state.store commit).2 } after := by
  rcases sound.queued with ⟨initial, sent, further, late, forwards, le, covers⟩
  rcases List.getElem?_eq_some_iff.mp head with ⟨bound, at_applied⟩
  rw [List.drop_eq_getElem_cons bound, at_applied] at covers
  rcases covers with ⟨index, passed, at_index, rest⟩
  have grown : frontier ≤ max frontier (index + 1) := Nat.le_max_left _ _
  have advanced : Covers log.commits frontier [commit] (max frontier (index + 1)) :=
    ⟨index, passed, at_index, rfl⟩
  have handled_eq : state.session.received.take (state.applied + 1) =
      state.handled ++ [commit] := by
    rw [handled, List.take_add_one, head]
    rfl
  refine ⟨_, grown, ?_⟩
  exact
    { endpoint := sound.endpoint
      follows := StreamRun.follows_syncThrough unambiguous sound.follows advanced
      configured := sound.configured.mono grown
      saved := by
        intro cursor stored
        rw [persistedCursor_congr (skybaseMeta_syncCommitToStore serde state.store commit)]
          at stored
        rcases sound.saved cursor stored with ⟨beyond, resumes⟩
        exact ⟨beyond, resumes.mono grown⟩
      within := bound
      passed := by
        intro other mem
        rw [handled] at mem
        dsimp only at mem
        rw [handled_eq] at mem
        rcases List.mem_append.mp mem with earlier | last
        · rcases sound.passed other earlier with ⟨place, below, at_place⟩
          exact ⟨place, Nat.lt_of_lt_of_le below grown, at_place⟩
        · exact advanced.exists_index last
      queued := ⟨initial, sent, further, late, forwards, le, rest⟩ }

/-- The time of an applied commit is a cursor that misses nothing. -/
theorem Sound.save (beyond : ∀ commit ∈ log.commits, BeyondOverlap commit.timeUs)
    (sound : Sound serde config log records first state frontier) {commit : JetstreamCommit}
    (mem : commit ∈ state.handled) :
    Sound serde config log records first
      { state with store := (state.store.setCursor none commit.timeUs).2 } frontier := by
  rcases sound.passed commit mem with ⟨index, passed, at_index⟩
  exact
    { endpoint := sound.endpoint
      follows := sound.follows
      configured := sound.configured
      saved := by
        intro cursor stored
        rw [persistedCursor_setCursor] at stored
        cases stored
        exact ⟨beyond commit (List.mem_of_getElem? at_index),
          Replay.resumesAt_key log.inOrder_commits at_index passed⟩
      within := sound.within
      passed := sound.passed
      queued := sound.queued }

/-- Every step keeps the invariant, and the frontier does not fall back. -/
theorem sound_next (fresh : Text.containsText config.endpoint "cursor=" = false)
    (configured : config.cursor = some first) (late : cursorRewindOverlapUs < first)
    (beyond : ∀ commit ∈ log.commits, BeyondOverlap commit.timeUs)
    (unambiguous : Unambiguous log.commits)
    (sound : Sound serde config log records first state frontier) {step : SubscriberStep}
    (timely : state.Timely step) {after : Subscriber decode}
    (stepped : next form serde config log state step = some after) :
    ∃ further, frontier ≤ further ∧ Sound serde config log records first after further := by
  cases step with
  | stream step =>
      rcases Option.map_eq_some_iff.mp stepped with ⟨session, moved, rfl⟩
      exact ⟨frontier, Nat.le_refl _, sound.stream fresh moved⟩
  | apply =>
      rcases Option.map_eq_some_iff.mp stepped with ⟨commit, head, rfl⟩
      exact sound.apply unambiguous head
  | save =>
      rcases Option.map_eq_some_iff.mp stepped with ⟨commit, last, rfl⟩
      exact ⟨frontier, Nat.le_refl _, sound.save beyond (List.mem_of_getLast? last)⟩
  | restart nowUs =>
      cases stepped
      exact ⟨frontier, Nat.le_refl _, sound_boot configured late sound.follows sound.configured
        sound.saved timely⟩

/-- The invariant over runs. -/
theorem sound_run (fresh : Text.containsText config.endpoint "cursor=" = false)
    (configured : config.cursor = some first) (late : cursorRewindOverlapUs < first)
    (beyond : ∀ commit ∈ log.commits, BeyondOverlap commit.timeUs)
    (unambiguous : Unambiguous log.commits)
    (sound : Sound serde config log records first state frontier) {steps : List SubscriberStep}
    (timely : Along (next form serde config log) Timely state steps) {after : Subscriber decode}
    (reached : Transition.run (next form serde config log) state steps = some after) :
    ∃ further, frontier ≤ further ∧ Sound serde config log records first after further := by
  apply invariant_of_along _ ⟨frontier, Nat.le_refl _, sound⟩ timely reached
  rintro source step target ⟨passed, grown, kept⟩ timelyStep stepped
  rcases sound_next fresh configured late beyond unambiguous kept timelyStep stepped with
    ⟨further, le, keptAfter⟩
  exact ⟨further, grown.trans le, keptAfter⟩

/-- When all that a connection delivers is sent and applied, the store has
followed the whole log. -/
theorem Sound.whole (sound : Sound serde config log records first state frontier)
    {connection : Connection decode} (connected : state.session.connection = some connection)
    (exhausted : connection.remaining = [])
    (resting : state.session.phase = .idle ∨ state.session.phase = .reading)
    (drained : state.applied = state.session.received.length) :
    state.store.records = log.commits.foldl (applyCommit serde) records := by
  rcases sound.queued with ⟨initial, sent, further, _, forwards, le, covers⟩
  rcases forwards.settled resting connected with ⟨before, cut, passed⟩
  rw [exhausted, List.append_nil] at cut
  rw [drained, List.drop_length, Replay.covers_nil_iff] at covers
  have all : log.commits.length ≤ frontier := by
    rw [covers, ServerLog.commits, cut]
    exact passed.trans le
  have followed := sound.follows
  rw [StreamRun.Follows, List.take_of_length_le all] at followed
  exact followed

end Subscriber

end Skybase.Ingest
