import Skybase.Ingest.Cursor
import Skybase.Ingest.Frames
import Skybase.Ingest.Subscription
import Skybase.Replay.Redelivery
import Skybase.Transition.Core

/-!
# The streamer

The storage-agnostic listener rewinds its cursor on every attempt to connect
but the first, and sends the commits it receives to a channel.  Against a server
that replays its log from the cursor of the URL, every commit below the
watermark has been sent, so that a rewound connection continues without a gap.
-/

namespace Skybase.Ingest

open Skybase.Transition

/-! ## The listener -/

/-- `CURSOR_REWIND_OVERLAP_US`. -/
def cursorRewindOverlapUs : U64 := 5000000

/-- `MAX_JETSTREAM_REPLAY_WINDOW_US`. -/
def maxJetstreamReplayWindowUs : U64 := 259200000000

/-- `resolve_resume_cursor`. -/
def resolveResumeCursor (persistedCursorUs nowUs : U64) : Option U64 :=
  if persistedCursorUs = 0 then none
  else
    let rewound := persistedCursorUs.saturatingSub cursorRewindOverlapUs
    let minAllowed := nowUs.saturatingSub maxJetstreamReplayWindowUs
    (some (max rewound minAllowed)).filter fun c => c > 0

/-- The fields of `StreamConfig` that decide what is subscribed to. -/
structure StreamConfig where
  endpoint : String
  collections : List String
  wantedDids : List String
  cursor : Option U64

/-- `StreamConfig::with_cursor`. -/
def StreamConfig.withCursor (config : StreamConfig) (cursor : U64) : StreamConfig :=
  { config with cursor := if cursor > 0 then some cursor else none }

/-- `StreamConfig::build_url`. -/
def StreamConfig.buildUrl (form : Form.Encoder) (config : StreamConfig) : String :=
  buildSubscriptionUrlFull form config.endpoint config.collections config.wantedDids
    (config.cursor.filter fun c => c > 0)

/-- The messages of `tungstenite`. -/
inductive Message where
  | text (text : String)
  | binary (bytes : ByteArray)
  | ping
  | pong
  | close
  | frame

/-- What the loop does about a message. -/
inductive Reaction where
  | event (event : JetstreamEvent)
  | skip
  | reconnect

/-- The reaction to a text. -/
def reactToText (decode : String → Except String RawJetstreamMessage) (nowUs : U64)
    (text : String) : Reaction :=
  match parseJetstreamFrame decode nowUs text with
  | some event => .event event
  | none => .skip

/-- The reaction to a message. -/
def react (decode : String → Except String RawJetstreamMessage) (nowUs : U64) :
    Message → Reaction
  | .text text => reactToText decode nowUs text
  | .binary bytes =>
      match String.fromUTF8? bytes with
      | some text => reactToText decode nowUs text
      | none => .skip
  | .ping => .skip
  | .pong => .skip
  | .close => .reconnect
  | .frame => .skip

/-- The variables of `run_jetstream_streamer`. -/
structure Streamer where
  cursorTracker : CursorTracker
  hasConnectedOnce : Bool

namespace Streamer

/-- The variables before the loop. -/
def new (config : StreamConfig) : Streamer where
  cursorTracker := CursorTracker.fromOption config.cursor
  hasConnectedOnce := false

/-- The configuration of an attempt to connect. -/
def activeConfig (config : StreamConfig) (streamer : Streamer) : StreamConfig :=
  match streamer.cursorTracker.getOpt with
  | some cursor =>
      { config with
        cursor :=
          if streamer.hasConnectedOnce then some (cursor.saturatingSub cursorRewindOverlapUs)
          else some cursor }
  | none => config

/-- The URL of an attempt to connect. -/
def url (form : Form.Encoder) (config : StreamConfig) (streamer : Streamer) : String :=
  (streamer.activeConfig config).buildUrl form

/-- `has_connected_once = true`, which precedes the attempt. -/
def attempt (streamer : Streamer) : Streamer := { streamer with hasConnectedOnce := true }

/-- `cursor_tracker.update`. -/
def track (streamer : Streamer) (timeUs : U64) : Streamer :=
  { streamer with cursorTracker := streamer.cursorTracker.advance timeUs }

end Streamer

/-! ## The server -/

variable {decode : String → Except String RawJetstreamMessage}

/-- A frame of the log of the server, with the message it decodes to. -/
structure LogFrame (decode : String → Except String RawJetstreamMessage) where
  text : String
  msg : RawJetstreamMessage
  nonempty : (Text.trim text).isEmpty = false
  decoded : decode (Text.trim text) = .ok msg

namespace LogFrame

/-- The timestamp of a frame. -/
def timeUs (frame : LogFrame decode) : U64 := frame.msg.time

/-- A frame is sent as a text or as its bytes. -/
def message (frame : LogFrame decode) (binary : Bool) : Message :=
  if binary then .binary frame.text.toUTF8 else .text frame.text

end LogFrame

/-- The log of the server: in order, with timestamps beyond the overlap. -/
structure ServerLog (decode : String → Except String RawJetstreamMessage) where
  frames : List (LogFrame decode)
  ordered : frames.Pairwise fun first second => first.timeUs ≤ second.timeUs
  late : ∀ frame ∈ frames, cursorRewindOverlapUs < frame.timeUs

namespace ServerLog

/-- The frames with their positions. -/
def entries (log : ServerLog decode) : List (LogFrame decode × Nat) := log.frames.zipIdx

/-- What the server sends on a connection: the frames from the cursor on. -/
def replay (log : ServerLog decode) (cursor : Option U64) : List (LogFrame decode × Nat) :=
  match cursor with
  | some c => log.entries.filter fun entry => c ≤ entry.1.timeUs
  | none => []

end ServerLog

/-! ## Runs -/

/-- A connection: the frames still to be sent, and the position of the last one
received. -/
structure Connection (decode : String → Except String RawJetstreamMessage) where
  remaining : List (LogFrame decode × Nat)
  lastReceived : Option Nat

/-- Where the listener stands: before an attempt to connect, in the loop over
the messages, in the send of a commit, or returned. -/
inductive StreamPhase where
  | idle
  | reading
  | sending (position : Nat) (commit : JetstreamCommit)
  | stopped

/-- Where the listener stands after an event at a position of the log. -/
def StreamPhase.after (position : Nat) : JetstreamEvent → StreamPhase
  | .commit commit => .sending position commit
  | _ => .reading

/-- Listener and server, with the event times seen and the commits sent. -/
structure StreamRun (decode : String → Except String RawJetstreamMessage) where
  streamer : Streamer
  phase : StreamPhase
  connection : Option (Connection decode)
  seen : List U64
  sent : List (Nat × JetstreamCommit)

/-- The steps of listener, server and network. -/
inductive StreamStep where
  /-- An attempt to connect succeeds. -/
  | connect
  | failConnect
  /-- The next frame of the log arrives, as text or binary. -/
  | receive (binary : Bool) (nowUs : U64)
  /-- A message arrives that is not from the log. -/
  | other (message : Message) (nowUs : U64)
  | send
  | dropReceiver
  /-- A ping fails, the read fails or times out, or the stream ends. -/
  | disconnect
  | cancel

namespace StreamRun

/-- Before the loop. -/
def start (config : StreamConfig) : StreamRun decode where
  streamer := Streamer.new config
  phase := .idle
  connection := none
  seen := []
  sent := []

/-- The reaction to an event, at a position of the log. -/
def handle (run : StreamRun decode) (position : Nat) (event : JetstreamEvent) : StreamRun decode :=
  { run with
    streamer := run.streamer.track event.timeUs
    seen := run.seen ++ [event.timeUs]
    phase := .after position event }

/-- The steps of `run_jetstream_streamer` against the server.  The frames of
the log pass the timestamp check when they arrive; other messages have no
event. -/
def next (form : Form.Encoder) (config : StreamConfig) (log : ServerLog decode)
    (run : StreamRun decode) : StreamStep → Option (StreamRun decode)
  | .connect =>
      match run.phase with
      | .idle =>
          some
            { run with
              streamer := run.streamer.attempt
              phase := .reading
              connection := some ⟨log.replay (cursorOf (run.streamer.url form config)), none⟩ }
      | _ => none
  | .failConnect =>
      match run.phase with
      | .idle => some { run with streamer := run.streamer.attempt }
      | _ => none
  | .receive binary nowUs =>
      match run.phase, run.connection with
      | .reading, some ⟨(frame, position) :: remaining, _⟩ =>
          if isValidTimeUs nowUs frame.timeUs then
            let received := { run with connection := some ⟨remaining, some position⟩ }
            match react decode nowUs (frame.message binary) with
            | .event event => some (received.handle position event)
            | .skip => some received
            | .reconnect => some { received with phase := .idle }
          else none
      | _, _ => none
  | .other message nowUs =>
      match run.phase with
      | .reading =>
          match react decode nowUs message with
          | .event _ => none
          | .skip => some run
          | .reconnect => some { run with phase := .idle }
      | _ => none
  | .send =>
      match run.phase with
      | .sending position commit =>
          some { run with phase := .reading, sent := run.sent ++ [(position, commit)] }
      | _ => none
  | .dropReceiver =>
      match run.phase with
      | .sending _ _ => some { run with phase := .stopped }
      | _ => none
  | .disconnect =>
      match run.phase with
      | .reading => some { run with phase := .idle }
      | _ => none
  | .cancel =>
      match run.phase with
      | .idle => some { run with phase := .stopped }
      | .reading => some { run with phase := .stopped }
      | _ => none

end StreamRun

/-! ## Frames and cursors -/

theorem fromUTF8_toUTF8 (text : String) : String.fromUTF8? text.toUTF8 = some text := by
  rw [String.fromUTF8?, String.toUTF8_eq_toByteArray, dif_pos text.isValidUTF8]
  rfl

/-- Texts and their bytes are handled alike. -/
theorem react_message (nowUs : U64) (frame : LogFrame decode) (binary : Bool) :
    react decode nowUs (frame.message binary) = reactToText decode nowUs frame.text := by
  cases binary with
  | false => rfl
  | true =>
      rw [LogFrame.message, if_pos rfl, react, fromUTF8_toUTF8]

/-- A frame of the log gives an event at its time, which is its commit if it
carries one. -/
theorem exists_event_of_frame {nowUs : U64} {frame : LogFrame decode} (late : 0 < frame.timeUs)
    (timely : isValidTimeUs nowUs frame.timeUs = true) (binary : Bool) :
    ∃ event, react decode nowUs (frame.message binary) = .event event ∧
      event.timeUs = frame.timeUs ∧
      ∀ commit, frame.msg.carried = some commit → event = .commit commit := by
  rcases exists_eventOf late timely with ⟨event, event_eq, time_eq⟩
  refine ⟨event, ?_, time_eq, ?_⟩
  · rw [react_message, reactToText, parseJetstreamFrame_of_decoded frame.nonempty frame.decoded,
      event_eq]
  · intro commit carried
    rw [eventOf_of_timely timely, carried, Option.elim_some] at event_eq
    exact (Option.some.inj event_eq).symm

namespace Streamer

@[simp]
theorem watermark_track (streamer : Streamer) (timeUs : U64) :
    (streamer.track timeUs).cursorTracker.watermark =
      max streamer.cursorTracker.watermark timeUs :=
  CursorTracker.watermark_advance _ _

/-- The cursor of an attempt: the watermark, rewound after the first attempt. -/
def cursor (streamer : Streamer) : U64 :=
  if streamer.hasConnectedOnce then
    streamer.cursorTracker.watermark.saturatingSub cursorRewindOverlapUs
  else streamer.cursorTracker.watermark

theorem cursor_le_watermark (streamer : Streamer) :
    streamer.cursor ≤ streamer.cursorTracker.watermark := by
  unfold cursor
  split
  · exact Nat.sub_le _ _
  · exact le_refl _

/-- The URL of an attempt carries its cursor. -/
theorem cursorOf_url (form : Form.Encoder) {config : StreamConfig}
    (fresh : Text.containsText config.endpoint "cursor=" = false) {streamer : Streamer}
    (late : cursorRewindOverlapUs < streamer.cursorTracker.watermark) :
    cursorOf (streamer.url form config) = some streamer.cursor := by
  have positive : 0 < streamer.cursor := by
    rw [Fin.lt_def] at late ⊢
    unfold cursor
    split
    · exact Nat.sub_pos_of_lt late
    · exact Nat.zero_lt_of_lt late
  have tracked : streamer.cursorTracker.getOpt = some streamer.cursorTracker.watermark :=
    if_neg (Fin.pos_iff_ne_zero.mp (lt_of_le_of_lt (Fin.zero_le _) late))
  have active : streamer.activeConfig config = { config with cursor := some streamer.cursor } := by
    rw [activeConfig, tracked, cursor]
    dsimp only
    split <;> rfl
  have kept : (some streamer.cursor).filter (fun c => decide (c > 0)) = some streamer.cursor := by
    rw [Option.filter_some, if_pos (decide_eq_true positive)]
  rw [url, active, StreamConfig.buildUrl]
  dsimp only
  rw [kept]
  exact cursorOf_buildSubscriptionUrlFull form fresh _ _ positive

end Streamer

namespace ServerLog

theorem ordered_entries (log : ServerLog decode) :
    log.entries.Pairwise fun first second => first.1.timeUs ≤ second.1.timeUs := by
  have frames_eq : log.entries.map Prod.fst = log.frames := List.zipIdx_map_fst 0 log.frames
  have ordered := log.ordered
  rw [← frames_eq, List.pairwise_map] at ordered
  exact ordered

theorem mem_entries_iff (log : ServerLog decode) (entry : LogFrame decode × Nat) :
    entry ∈ log.entries ↔ log.frames[entry.2]? = some entry.1 :=
  List.mem_zipIdx_iff_getElem?

/-- An entry stands at its position. -/
theorem position_eq (log : ServerLog decode) {before after : List (LogFrame decode × Nat)}
    {entry : LogFrame decode × Nat} (cut : log.entries = before ++ entry :: after) :
    entry.2 = before.length := by
  have at_position : log.entries[before.length]? = some entry := by
    rw [cut, List.getElem?_append_right (le_refl _), Nat.sub_self, List.getElem?_cons_zero]
  rw [entries, List.getElem?_zipIdx, Option.map_eq_some_iff] at at_position
  rcases at_position with ⟨frame, _, rfl⟩
  exact Nat.zero_add _

theorem late_of_mem (log : ServerLog decode) {entry : LogFrame decode × Nat}
    (mem : entry ∈ log.entries) : cursorRewindOverlapUs < entry.1.timeUs :=
  log.late _ (List.mem_of_getElem? ((log.mem_entries_iff entry).mp mem))

end ServerLog

/-! ## The invariant -/

namespace StreamRun

/-- The commit of an entry from the configured cursor on has been sent. -/
def HasSent (run : StreamRun decode) (initial : U64) (entry : LogFrame decode × Nat) : Prop :=
  initial ≤ entry.1.timeUs →
    ∀ commit, entry.1.msg.carried = some commit → (entry.2, commit) ∈ run.sent

/-- The entry was received last, and its commit is being sent, or the listener
has returned. -/
def InFlight (run : StreamRun decode) (connection : Connection decode)
    (entry : LogFrame decode × Nat) : Prop :=
  connection.lastReceived = some entry.2 ∧
    match run.phase with
    | .sending position commit => position = entry.2 ∧ entry.1.msg.carried = some commit
    | .stopped => True
    | _ => False

/-- The connection continues the log without a gap: what the server no longer
sends on it has been sent on, but for the entry in flight. -/
structure Continues (log : ServerLog decode) (initial : U64) (run : StreamRun decode)
    (connection : Connection decode) : Prop where
  passed : ∃ before, log.entries = before ++ connection.remaining ∧
    (∀ entry ∈ before, run.HasSent initial entry ∨ run.InFlight connection entry) ∧
      ∀ position, connection.lastReceived = some position → before.length = position + 1
  recent : ∀ entry ∈ connection.remaining,
    initial.saturatingSub cursorRewindOverlapUs ≤ entry.1.timeUs

/-- The invariant of the streamer. -/
structure Delivers (log : ServerLog decode) (initial : U64) (run : StreamRun decode) : Prop where
  from_initial : initial ≤ run.streamer.cursorTracker.watermark
  watermark_seen : run.streamer.cursorTracker.watermark = initial ∨
    run.streamer.cursorTracker.watermark ∈ run.seen
  unattempted : run.streamer.hasConnectedOnce = false → run.connection = none ∧ run.seen = []
  seen_recent : ∀ time ∈ run.seen, initial.saturatingSub cursorRewindOverlapUs ≤ time
  /-- Everything below the watermark has been sent. -/
  older : ∀ entry ∈ log.entries,
    entry.1.timeUs < run.streamer.cursorTracker.watermark → run.HasSent initial entry
  connected : ∀ connection, run.connection = some connection → Continues log initial run connection

variable {form : Form.Encoder} {config : StreamConfig} {log : ServerLog decode} {initial : U64}
  {run : StreamRun decode}

/-- Where nothing is in flight, the entries passed on a connection are sent. -/
theorem Continues.settled {connection : Connection decode}
    (continues : Continues log initial run connection)
    (resting : run.phase = .idle ∨ run.phase = .reading) :
    ∃ before, log.entries = before ++ connection.remaining ∧
      (∀ entry ∈ before, run.HasSent initial entry) ∧
        ∀ position, connection.lastReceived = some position → before.length = position + 1 := by
  rcases continues.passed with ⟨before, cut, passed, count⟩
  refine ⟨before, cut, ?_, count⟩
  intro entry mem
  rcases passed entry mem with sent | ⟨_, inFlight⟩
  · exact sent
  · rcases resting with phase | phase <;> rw [phase] at inFlight <;> exact inFlight.elim

section Receive

variable {frame : LogFrame decode} {position : Nat} {remaining : List (LogFrame decode × Nat)}
  {lastReceived : Option Nat} {event : JetstreamEvent}

/-- Everything that stands below the time of the next frame has been sent. -/
theorem Continues.older
    (continues : Continues log initial run ⟨(frame, position) :: remaining, lastReceived⟩)
    (reading : run.phase = .reading) :
    ∀ entry ∈ log.entries, entry.1.timeUs < frame.timeUs → run.HasSent initial entry := by
  rcases continues.settled (Or.inr reading) with ⟨before, cut, sent, _⟩
  have ordered := log.ordered_entries
  rw [cut, List.pairwise_append, List.pairwise_cons] at ordered
  intro entry mem below
  rw [cut, List.mem_append, List.mem_cons] at mem
  rcases mem with inBefore | rfl | inRemaining
  · exact sent entry inBefore
  · exact absurd below (lt_irrefl _)
  · exact absurd below (not_lt_of_ge (ordered.2.1.1 entry inRemaining))

/-- With the next frame received, its commit is in flight. -/
theorem Continues.handle
    (continues : Continues log initial run ⟨(frame, position) :: remaining, lastReceived⟩)
    (reading : run.phase = .reading)
    (commits : ∀ commit, frame.msg.carried = some commit → event = .commit commit) :
    Continues log initial
      (({ run with connection := some ⟨remaining, some position⟩ } : StreamRun decode).handle
        position event) ⟨remaining, some position⟩ := by
  rcases continues.settled (Or.inr reading) with ⟨before, cut, sent, _⟩
  have count : position = before.length := log.position_eq cut
  refine ⟨⟨before ++ [(frame, position)], ?_, ?_, ?_⟩, ?_⟩
  · rw [cut, List.append_assoc, List.singleton_append]
  · intro entry mem
    rcases List.mem_append.mp mem with inBefore | last
    · exact Or.inl (sent entry inBefore)
    · rw [List.mem_singleton.mp last]
      cases carried : frame.msg.carried with
      | none =>
          left
          intro _ commit carries
          rw [carried] at carries
          cases carries
      | some commit =>
          right
          rw [commits commit carried]
          exact ⟨rfl, rfl, carried⟩
  · intro last last_eq
    cases last_eq
    rw [List.length_append, List.length_singleton, count]
  · exact fun entry mem => continues.recent entry (List.mem_cons_of_mem _ mem)

end Receive

theorem HasSent.append {entry : LogFrame decode × Nat} (sent : run.HasSent initial entry)
    (phase : StreamPhase) (more : List (Nat × JetstreamCommit)) :
    ({ run with phase, sent := run.sent ++ more } : StreamRun decode).HasSent initial entry :=
  fun reached commit carried => List.mem_append_left _ (sent reached commit carried)

/-- A listener that returns keeps what was sent before. -/
theorem Delivers.stop (held : Delivers log initial run) :
    Delivers log initial { run with phase := .stopped } where
  from_initial := held.from_initial
  watermark_seen := held.watermark_seen
  unattempted := held.unattempted
  seen_recent := held.seen_recent
  older := held.older
  connected := by
    intro connection connected
    have continues := held.connected connection connected
    rcases continues.passed with ⟨before, cut, passed, count⟩
    exact ⟨⟨before, cut, fun entry mem => (passed entry mem).imp_right fun inFlight =>
      ⟨inFlight.1, trivial⟩, count⟩, continues.recent⟩

/-- What stands before the last frame received has been sent. -/
theorem Delivers.sent (held : Delivers log initial run) {connection : Connection decode}
    (connected : run.connection = some connection) {last position : Nat}
    (received : connection.lastReceived = some last) (earlier : position < last)
    {frame : LogFrame decode} (logged : log.frames[position]? = some frame) :
    run.HasSent initial (frame, position) := by
  rcases (held.connected connection connected).passed with ⟨before, cut, passed, count⟩
  have bound : position < before.length := by
    rw [count last received]
    exact Nat.lt_succ_of_lt earlier
  have inBefore : (frame, position) ∈ before := by
    have at_position : log.entries[position]? = some (frame, position) := by
      rw [ServerLog.entries, List.getElem?_zipIdx, logged, Nat.zero_add]
      rfl
    rw [cut, List.getElem?_append_left bound] at at_position
    exact List.mem_of_getElem? at_position
  rcases passed _ inBefore with sent | inFlight
  · exact sent
  · have same := received.symm.trans inFlight.1
    exact absurd (Option.some.inj same) (Nat.ne_of_gt earlier)

end StreamRun

end Skybase.Ingest
