import Skybase.Ingest.Reapplication
import Skybase.Ingest.Streamer
import Skybase.Transition.Simulation

/-!
# A store behind the streamer

The streamer knows no store: it sends commits to a channel, and after every
reconnect it sends some of them again.  A subscriber that applies what it
receives through `sync_commit_to_store` follows the log of the server all the
same.  At every moment its store is what one pass over the beginning of the log
leaves, and it never falls back.
-/

namespace Skybase.Ingest

open Skybase.Index
open Skybase.Json
open Skybase.Replay (Covers)
open Skybase.Transition

variable {decode : String → Except String RawJetstreamMessage}

/-- `JetstreamEvent::as_commit`. -/
def JetstreamEvent.asCommit : JetstreamEvent → Option JetstreamCommit
  | .commit payload => some payload
  | _ => none

/-! ## The commits of a log -/

/-- The event of a frame is the commit that it carries, if it carries one. -/
theorem exists_event_carried {nowUs : U64} {frame : LogFrame decode} (late : 0 < frame.timeUs)
    (timely : isValidTimeUs nowUs frame.timeUs = true) (binary : Bool) :
    ∃ event, react decode nowUs (frame.message binary) = .event event ∧
      event.timeUs = frame.timeUs ∧ event.asCommit = frame.msg.carried := by
  rcases exists_event_of_frame late timely binary with ⟨event, reaction, time_eq, commits⟩
  refine ⟨event, reaction, time_eq, ?_⟩
  cases carried : frame.msg.carried with
  | some commit =>
      rw [commits commit carried]
      rfl
  | none =>
      cases event with
      | heartbeat timeUs => rfl
      | other kind did timeUs => rfl
      | commit commit =>
          rw [react_message, reactToText,
            parseJetstreamFrame_of_decoded frame.nonempty frame.decoded] at reaction
          split at reaction
          · next event event_eq =>
              rw [Reaction.event.inj reaction] at event_eq
              rw [carried_of_eventOf event_eq] at carried
              cases carried
          · cases reaction

/-- The commits that entries of a log carry. -/
def carriedBy (entries : List (LogFrame decode × Nat)) : List JetstreamCommit :=
  entries.filterMap fun entry => entry.1.msg.carried

@[simp]
theorem carriedBy_append (first second : List (LogFrame decode × Nat)) :
    carriedBy (first ++ second) = carriedBy first ++ carriedBy second :=
  List.filterMap_append

theorem carriedBy_cons_of_some {entry : LogFrame decode × Nat} {commit : JetstreamCommit}
    (carried : entry.1.msg.carried = some commit) (rest : List (LogFrame decode × Nat)) :
    carriedBy (entry :: rest) = commit :: carriedBy rest :=
  List.filterMap_cons_some carried

theorem carriedBy_cons_of_none {entry : LogFrame decode × Nat}
    (carried : entry.1.msg.carried = none) (rest : List (LogFrame decode × Nat)) :
    carriedBy (entry :: rest) = carriedBy rest :=
  List.filterMap_cons_none carried

theorem timeUs_of_carried {msg : RawJetstreamMessage} {commit : JetstreamCommit}
    (carried : msg.carried = some commit) : commit.timeUs = msg.time := by
  rcases (msg.carried_eq_some_iff commit).mp carried with ⟨did, raw, operation, _, rfl⟩
  rfl

namespace ServerLog

/-- The commits of a log. -/
def commits (log : ServerLog decode) : List JetstreamCommit := carriedBy log.entries

/-- The commits of a log before a cursor. -/
def commitsBefore (log : ServerLog decode) (cursor : U64) : List JetstreamCommit :=
  carriedBy (log.entries.filter fun entry => entry.1.timeUs < cursor)

variable {log : ServerLog decode}

theorem inOrder_commits (log : ServerLog decode) : InOrder log.commits := by
  apply List.pairwise_filterMap.mpr
  apply log.ordered_entries.imp
  intro first second le commit carried later laterCarried
  rw [timeUs_of_carried carried, timeUs_of_carried laterCarried]
  exact le

/-- The entries below a cursor are the leading ones. -/
theorem filter_entries_eq {before after : List (LogFrame decode × Nat)} {cursor : U64}
    (cut : log.entries = before ++ after) (older : ∀ entry ∈ before, entry.1.timeUs < cursor)
    (newer : ∀ entry ∈ after, cursor ≤ entry.1.timeUs) :
    log.entries.filter (fun entry => entry.1.timeUs < cursor) = before := by
  rw [cut, List.filter_append, List.filter_eq_self.mpr, List.filter_eq_nil_iff.mpr,
    List.append_nil]
  · intro entry mem
    simpa using newer entry mem
  · intro entry mem
    simpa using older entry mem

/-- The commits of a log before a cursor lead it. -/
theorem exists_commits_eq (log : ServerLog decode) (cursor : U64) :
    ∃ after, log.commits = log.commitsBefore cursor ++ after ∧
      (∀ commit ∈ log.commitsBefore cursor, commit.timeUs < cursor) ∧
        ∀ commit ∈ after, cursor ≤ commit.timeUs := by
  rcases Replay.exists_filter_suffix log.ordered_entries cursor with ⟨before, cut, older⟩
  have below : log.commitsBefore cursor = carriedBy before := by
    rw [commitsBefore, filter_entries_eq cut older]
    intro entry mem
    simpa using (List.mem_filter.mp mem).2
  refine ⟨carriedBy (log.entries.filter fun entry => cursor ≤ entry.1.timeUs), ?_, ?_, ?_⟩
  · rw [below, commits]
    conv_lhs => rw [cut, carriedBy_append]
  · intro commit mem
    rw [below] at mem
    rcases List.mem_filterMap.mp mem with ⟨entry, inBefore, carried⟩
    rw [timeUs_of_carried carried]
    exact older entry inBefore
  · intro commit mem
    rcases List.mem_filterMap.mp mem with ⟨entry, inAfter, carried⟩
    rw [timeUs_of_carried carried]
    exact of_decide_eq_true (List.mem_filter.mp inAfter).2

/-- Entries of which none stands below a cursor come after the commits before it. -/
theorem length_commitsBefore_le {before after : List (LogFrame decode × Nat)} {cursor : U64}
    (cut : log.entries = before ++ after) (newer : ∀ entry ∈ after, cursor ≤ entry.1.timeUs) :
    (log.commitsBefore cursor).length ≤ (carriedBy before).length := by
  have below : log.commitsBefore cursor =
      carriedBy (before.filter fun entry => entry.1.timeUs < cursor) := by
    rw [commitsBefore, cut, List.filter_append, List.append_right_eq_self.mpr]
    apply List.filter_eq_nil_iff.mpr
    intro entry mem
    simpa using newer entry mem
  rw [below]
  exact (List.filter_sublist.filterMap _).length_le

/-- Leading entries that stand below a cursor carry commits before it. -/
theorem length_carriedBy_le {before after : List (LogFrame decode × Nat)} {cursor : U64}
    (cut : log.entries = before ++ after) (older : ∀ entry ∈ before, entry.1.timeUs < cursor) :
    (carriedBy before).length ≤ (log.commitsBefore cursor).length := by
  have within : before.Sublist (log.entries.filter fun entry => entry.1.timeUs < cursor) := by
    rw [cut, List.filter_append, List.filter_eq_self.mpr]
    · exact List.sublist_append_left _ _
    · intro entry mem
      simpa using older entry mem
  exact (within.filterMap _).length_le

/-- The commit of an entry stands after those of the entries before it. -/
theorem getElem?_commits {before after : List (LogFrame decode × Nat)}
    {entry : LogFrame decode × Nat} {commit : JetstreamCommit}
    (cut : log.entries = before ++ entry :: after) (carried : entry.1.msg.carried = some commit) :
    log.commits[(carriedBy before).length]? = some commit := by
  rw [commits, cut, carriedBy_append, carriedBy_cons_of_some carried,
    List.getElem?_append_right (Nat.le_refl _), Nat.sub_self, List.getElem?_cons_zero]

end ServerLog

/-! ## The invariant -/

namespace StreamRun

variable {form : Form.Encoder} {config : StreamConfig} {log : ServerLog decode} {initial : U64}
  {run : StreamRun decode}

/-- The commits sent, the earliest first. -/
def received (run : StreamRun decode) : List JetstreamCommit := run.sent.map Prod.snd

/-- Where a connection stands in the log while the frontier is what it is: the
commits that it has passed are within the frontier, but for the one in flight. -/
def Within (log : ServerLog decode) (frontier : Nat) (remaining : List (LogFrame decode × Nat)) :
    StreamPhase → Prop
  | .sending _ commit => ∃ before entry, log.entries = before ++ entry :: remaining ∧
      entry.1.msg.carried = some commit ∧ (carriedBy before).length ≤ frontier
  | .stopped => True
  | _ => ∃ before, log.entries = before ++ remaining ∧ (carriedBy before).length ≤ frontier

/-- The commits sent are a replay of the log up to a frontier, which holds all
commits below the watermark. -/
structure Forwards (log : ServerLog decode) (initial : U64) (run : StreamRun decode)
    (frontier : Nat) : Prop where
  from_initial : initial ≤ run.streamer.cursorTracker.watermark
  covers : Covers log.commits (log.commitsBefore initial).length run.received frontier
  older : (log.commitsBefore run.streamer.cursorTracker.watermark).length ≤ frontier
  connected : ∀ connection, run.connection = some connection →
    Within log frontier connection.remaining run.phase
  sends : ∀ position commit, run.phase = .sending position commit → run.connection ≠ none

theorem forwards_start (configured : config.cursor = some initial) :
    Forwards log initial (start config) (log.commitsBefore initial).length where
  from_initial := by
    rw [start, Streamer.new, configured]
    exact le_refl _
  covers := rfl
  older := by
    rw [start, Streamer.new, configured]
    exact le_refl _
  connected := by
    intro connection connected
    cases connected
  sends := by
    intro position commit sending
    cases sending

/-- At rest, a connection has passed leading entries within the frontier. -/
theorem Forwards.settled {frontier : Nat} (forwards : Forwards log initial run frontier)
    (resting : run.phase = .idle ∨ run.phase = .reading) {connection : Connection decode}
    (connected : run.connection = some connection) :
    ∃ before, log.entries = before ++ connection.remaining ∧
      (carriedBy before).length ≤ frontier := by
  have within := forwards.connected connection connected
  rcases resting with phase | phase <;> rw [phase] at within <;> exact within

/-- A listener at rest may give its connection up. -/
theorem Forwards.toIdle {frontier : Nat} (forwards : Forwards log initial run frontier)
    (resting : run.phase = .idle ∨ run.phase = .reading) :
    Forwards log initial { run with phase := .idle } frontier where
  from_initial := forwards.from_initial
  covers := forwards.covers
  older := forwards.older
  connected := by
    intro connection connected
    exact forwards.settled resting connected
  sends := by
    intro position commit absurd
    cases absurd

/-- A connection begins at the cursor of the attempt. -/
theorem next_connect (form : Form.Encoder) (config : StreamConfig) (log : ServerLog decode)
    (fresh : Text.containsText config.endpoint "cursor=" = false)
    (late : cursorRewindOverlapUs < run.streamer.cursorTracker.watermark)
    (idle : run.phase = .idle) :
    next form config log run .connect =
      some
        { run with
          streamer := run.streamer.attempt
          phase := .reading
          connection := some ⟨log.replay (some run.streamer.cursor), none⟩ } := by
  simp only [next, idle, run.streamer.cursorOf_url form fresh late]

/-- What the server skips is below the watermark. -/
theorem forwards_connect {frontier : Nat} (forwards : Forwards log initial run frontier) :
    Forwards log initial
      { run with
        streamer := run.streamer.attempt
        phase := .reading
        connection := some ⟨log.replay (some run.streamer.cursor), none⟩ } frontier where
  from_initial := forwards.from_initial
  covers := forwards.covers
  older := forwards.older
  connected := by
    intro connection connected
    cases connected
    rcases Replay.exists_filter_suffix log.ordered_entries run.streamer.cursor with
      ⟨before, cut, older⟩
    refine ⟨before, cut, le_trans ?_ forwards.older⟩
    apply ServerLog.length_carriedBy_le cut
    intro entry mem
    exact lt_of_lt_of_le (older entry mem) run.streamer.cursor_le_watermark
  sends := by
    intro position commit absurd
    cases absurd

theorem forwards_failConnect {frontier : Nat} (forwards : Forwards log initial run frontier) :
    Forwards log initial { run with streamer := run.streamer.attempt } frontier where
  from_initial := forwards.from_initial
  covers := forwards.covers
  older := forwards.older
  connected := forwards.connected
  sends := forwards.sends

/-- A frame received raises the watermark to its time; its commit is in flight. -/
theorem forwards_handle {frontier : Nat} (forwards : Forwards log initial run frontier)
    (reading : run.phase = .reading) {frame : LogFrame decode} {position : Nat}
    {remaining : List (LogFrame decode × Nat)} {lastReceived : Option Nat}
    (connected : run.connection = some ⟨(frame, position) :: remaining, lastReceived⟩)
    {event : JetstreamEvent} (time_eq : event.timeUs = frame.timeUs)
    (carries : event.asCommit = frame.msg.carried) :
    Forwards log initial
      (({ run with connection := some ⟨remaining, some position⟩ } : StreamRun decode).handle
        position event) frontier := by
  rcases forwards.settled (Or.inr reading) connected with ⟨before, cut, passed⟩
  refine
    { from_initial := ?_
      covers := forwards.covers
      older := ?_
      connected := ?_
      sends := ?_ }
  · rw [handle, Streamer.watermark_track]
    exact forwards.from_initial.trans (le_max_left _ _)
  · rw [handle, Streamer.watermark_track, time_eq]
    rcases max_choice run.streamer.cursorTracker.watermark frame.timeUs with old | new
    · rw [old]
      exact forwards.older
    · rw [new]
      have ordered := log.ordered_entries
      rw [cut, List.pairwise_append, List.pairwise_cons] at ordered
      apply le_trans (ServerLog.length_commitsBefore_le cut _) passed
      exact List.forall_mem_cons.mpr ⟨le_refl _, ordered.2.1.1⟩
  · intro connection current
    cases current
    cases event with
    | commit commit => exact ⟨before, (frame, position), cut, carries.symm, passed⟩
    | heartbeat timeUs =>
        refine ⟨before ++ [(frame, position)], ?_, ?_⟩
        · rw [cut, List.append_assoc, List.singleton_append]
        · rw [carriedBy_append, carriedBy_cons_of_none carries.symm]
          exact (congrArg List.length (List.append_nil _)).trans_le passed
    | other kind did timeUs =>
        refine ⟨before ++ [(frame, position)], ?_, ?_⟩
        · rw [cut, List.append_assoc, List.singleton_append]
        · rw [carriedBy_append, carriedBy_cons_of_none carries.symm]
          exact (congrArg List.length (List.append_nil _)).trans_le passed
  · intro _ _ _ absurd
    cases absurd

/-- The commit in flight is sent: the frontier moves past it. -/
theorem forwards_send {frontier : Nat} (forwards : Forwards log initial run frontier)
    {position : Nat} {commit : JetstreamCommit} (sending : run.phase = .sending position commit) :
    ∃ further, Forwards log initial
      { run with phase := .reading, sent := run.sent ++ [(position, commit)] } further ∧
        Covers log.commits frontier [commit] further := by
  rcases Option.ne_none_iff_exists'.mp (forwards.sends position commit sending) with
    ⟨connection, connected⟩
  have within := forwards.connected connection connected
  rw [sending] at within
  rcases within with ⟨before, entry, cut, carried, passed⟩
  have at_index := ServerLog.getElem?_commits cut carried
  refine ⟨max frontier ((carriedBy before).length + 1), ?_, _, passed, at_index, rfl⟩
  refine
    { from_initial := forwards.from_initial
      covers := ?_
      older := forwards.older.trans (Nat.le_max_left _ _)
      connected := ?_
      sends := ?_ }
  · have extended := forwards.covers.concat passed at_index
    rw [received, List.map_append]
    exact extended
  · intro other current
    obtain rfl : connection = other := Option.some.inj (connected.symm.trans current)
    refine ⟨before ++ [entry], ?_, ?_⟩
    · rw [cut, List.append_assoc, List.singleton_append]
    · rw [carriedBy_append, List.length_append, carriedBy_cons_of_some carried]
      exact Nat.le_max_right _ _
  · intro _ _ absurd
    cases absurd

/-- The listener returns before it has sent the commit in flight. -/
theorem Forwards.stop {frontier : Nat} (forwards : Forwards log initial run frontier) :
    Forwards log initial { run with phase := .stopped } frontier where
  from_initial := forwards.from_initial
  covers := forwards.covers
  older := forwards.older
  connected := fun _ _ => trivial
  sends := by
    intro _ _ absurd
    cases absurd

/-- A frame that arrives is handled as the commit that it carries. -/
theorem next_receive (form : Form.Encoder) (config : StreamConfig) (log : ServerLog decode)
    {frame : LogFrame decode} {position : Nat} {remaining : List (LogFrame decode × Nat)}
    {lastReceived : Option Nat}
    (reading : run.phase = .reading)
    (connected : run.connection = some ⟨(frame, position) :: remaining, lastReceived⟩)
    (late : 0 < frame.timeUs) {nowUs : U64} (timely : isValidTimeUs nowUs frame.timeUs = true)
    (binary : Bool) :
    ∃ event, event.timeUs = frame.timeUs ∧ event.asCommit = frame.msg.carried ∧
      next form config log run (.receive binary nowUs) =
        some (({ run with connection := some ⟨remaining, some position⟩ } :
          StreamRun decode).handle position event) := by
  rcases exists_event_carried late timely binary with ⟨event, reaction, time_eq, carries⟩
  refine ⟨event, time_eq, carries, ?_⟩
  simp only [next, reading, connected, timely, if_true, reaction]

/-- Every step keeps the invariant, and what it sends moves the frontier. -/
theorem forwards_next (fresh : Text.containsText config.endpoint "cursor=" = false)
    (late : cursorRewindOverlapUs < initial) {step : StreamStep} {after : StreamRun decode}
    {frontier : Nat} (forwards : Forwards log initial run frontier)
    (stepped : next form config log run step = some after) :
    ∃ further sent, Forwards log initial after further ∧
      after.received = run.received ++ sent ∧ Covers log.commits frontier sent further := by
  have unsent : ∀ {target : StreamRun decode}, target.received = run.received →
      Forwards log initial target frontier →
        ∃ further sent, Forwards log initial target further ∧
          target.received = run.received ++ sent ∧ Covers log.commits frontier sent further :=
    fun same kept => ⟨frontier, [], kept, by rw [same, List.append_nil], rfl⟩
  cases step with
  | connect =>
      have attempted := stepped
      simp only [next] at attempted
      split at attempted
      · next idle =>
          have connects := next_connect form config log fresh
            (lt_of_lt_of_le late forwards.from_initial) idle
          obtain rfl := Option.some.inj (stepped.symm.trans connects)
          exact unsent rfl (forwards_connect forwards)
      · cases attempted
  | failConnect =>
      simp only [next] at stepped
      split at stepped
      · cases stepped
        exact unsent rfl (forwards_failConnect forwards)
      · cases stepped
  | receive binary nowUs =>
      have arrived := stepped
      simp only [next] at arrived
      split at arrived
      · next frame position remaining lastReceived reading connected =>
          split at arrived
          · next timely =>
              rcases forwards.settled (Or.inr reading) connected with ⟨before, cut, _⟩
              have logged : (frame, position) ∈ log.entries :=
                cut ▸ List.mem_append_right _ List.mem_cons_self
              have positive : 0 < frame.timeUs :=
                lt_of_le_of_lt (Fin.zero_le _) (log.late_of_mem logged)
              rcases next_receive form config log reading connected positive timely binary
                with ⟨event, time_eq, carries, handled⟩
              obtain rfl := Option.some.inj (stepped.symm.trans handled)
              exact unsent rfl (forwards_handle forwards reading connected time_eq carries)
          · cases arrived
      · cases arrived
  | other message nowUs =>
      simp only [next] at stepped
      split at stepped
      · next reading =>
          split at stepped
          · cases stepped
          · cases stepped
            exact unsent rfl forwards
          · cases stepped
            exact unsent rfl (forwards.toIdle (Or.inr reading))
      · cases stepped
  | send =>
      simp only [next] at stepped
      split at stepped
      · next position commit sending =>
          cases stepped
          rcases forwards_send forwards sending with ⟨further, kept, covers⟩
          refine ⟨further, [commit], kept, ?_, covers⟩
          rw [received, received, List.map_append]
          rfl
      · cases stepped
  | dropReceiver =>
      simp only [next] at stepped
      split at stepped
      · cases stepped
        exact unsent rfl forwards.stop
      · cases stepped
  | disconnect =>
      simp only [next] at stepped
      split at stepped
      · next reading =>
          cases stepped
          exact unsent rfl (forwards.toIdle (Or.inr reading))
      · cases stepped
  | cancel =>
      simp only [next] at stepped
      split at stepped
      · cases stepped
        exact unsent rfl forwards.stop
      · cases stepped
        exact unsent rfl forwards.stop
      · cases stepped

/-- The store of a subscriber is that of one pass over the beginning of a log. -/
def Follows (serde : SerdeJson) (log : ServerLog decode) (records : Records) (store : RecordStore)
    (frontier : Nat) : Prop :=
  store.records = (log.commits.take frontier).foldl (applyCommit serde) records

/-- A replay takes a store that follows the log to one that follows it. -/
theorem follows_syncThrough {serde : SerdeJson} {records : Records} {store : RecordStore}
    (unambiguous : Unambiguous log.commits) {low high : Nat}
    (follows : Follows serde log records store low) {commits : List JetstreamCommit}
    (covers : Covers log.commits low commits high) :
    Follows serde log records (syncThrough serde store commits) high := by
  rw [Follows, records_syncThrough, follows]
  exact covers.foldl_eq (settles_applyCommit serde records log.inOrder_commits unambiguous)

end StreamRun

end Skybase.Ingest
