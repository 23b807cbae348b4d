import Skybase.Ingest.Backoff
import Skybase.Ingest.System

/-!
# The reader loop

The reader task connects, handles the messages of the socket, gives a
connection up and waits before it connects again; every wait but that for room
in the channel ends when the consumer is cancelled.  Here it runs statement by
statement beside the storage worker, with one step for each arm of its
`select!`s.
-/

namespace Skybase.Lexicon.Duration

instance neZeroNanos : NeZero 1000000000 := ⟨by decide⟩

/-- The nanoseconds of a duration. -/
def asNanos (duration : Duration) : Nat := duration.secs.val * 1000000000 + duration.nanos.val

end Skybase.Lexicon.Duration

namespace Skybase.Ingest

open Skybase.Index
open Skybase.Json
open Skybase.Lexicon (Duration SystemTime)
open Skybase.Transition (Step)

/-- The fields of `IngesterConfig` that the reader loop reads. -/
structure ReaderConfig where
  ingester : IngesterConfig
  inactivityTimeout : Duration
  pingInterval : Option Duration
  initialBackoff : Duration
  maxBackoff : Duration

namespace ReaderConfig

/-- `inactivity_timeout.min(Duration::from_secs(86400 * 365))`. -/
def timeoutDuration (config : ReaderConfig) : Duration :=
  config.inactivityTimeout.min ⟨86400 * 365, 0⟩

/-- `config.ping_interval.filter(|d| *d > Duration::ZERO)`. -/
def pings (config : ReaderConfig) : Bool :=
  config.pingInterval.any fun interval => 0 < interval.asNanos

end ReaderConfig

/-- The default settings, for concrete runs. -/
def plainReader : ReaderConfig where
  ingester := ⟨[], [], none, 1024, 1⟩
  inactivityTimeout := ⟨30, 0⟩
  pingInterval := some ⟨15, 0⟩
  initialBackoff := ⟨0, 500000000⟩
  maxBackoff := ⟨30, 0⟩

/-- A message of the socket: its text, or the length of its data. -/
inductive WsMessage where
  | text (text : String)
  | binary (length : Nat)
  | ping
  | pong
  | close
  | frame
deriving DecidableEq

/-- Where the reader loop is. -/
inductive Place where
  /-- At the head of the `while` loop. -/
  | top
  /-- Connecting, with the cursor that the URL was built from. -/
  | connecting (cursor : Option U64)
  /-- At the head of the inner loop. -/
  | connected
  /-- In `tx.send(commit).await`. -/
  | sending (commit : JetstreamCommit)
  /-- Behind the inner loop. -/
  | dropped
  /-- In the sleep before the next attempt. -/
  | waiting (delay : Duration)
  | finished

/-- The local variables of the reader loop, and the counters of `ConsumerStats`
that it advances.  The source keeps them in `AtomicU64`s, which wrap at `2^64`;
they start from zero with the process, which does not live to receive as many
frames or bytes. -/
structure Reader where
  place : Place
  backoff : BackoffManager
  lastActivity : Instant
  lastActivityTimestamp : U64
  framesReceived : Nat
  bytesReceived : Nat
  reconnectCount : Nat

namespace Reader

/-- The reader before its loop. -/
def start (config : ReaderConfig) : Reader where
  place := .top
  backoff := .new config.initialBackoff config.maxBackoff
  lastActivity := 0
  lastActivityTimestamp := 0
  framesReceived := 0
  bytesReceived := 0
  reconnectCount := 0

/-- Be at another place. -/
def goTo (reader : Reader) (place : Place) : Reader := { reader with place }

/-- Count a reconnect and leave the inner loop. -/
def drop (reader : Reader) : Reader :=
  { reader with place := .dropped, reconnectCount := reader.reconnectCount + 1 }

/-- Note the time of a message. -/
def note (reader : Reader) (now : Instant) (time : SystemTime) : Reader :=
  { reader with lastActivity := now, lastActivityTimestamp := time.durationSinceEpoch.secs }

/-- Count a frame of so many bytes. -/
def count (reader : Reader) (bytes : Nat) : Reader :=
  { reader with
    framesReceived := reader.framesReceived + 1
    bytesReceived := reader.bytesReceived + bytes }

/-- Draw a delay and sleep. -/
def sleep (reader : Reader) (now : Instant) (time : SystemTime) : Option Reader :=
  (reader.backoff.nextBackoff now time).map fun (delay, backoff) =>
    { reader with place := .waiting delay, backoff }

/-- `last_activity.checked_add(timeout_duration)`, in unbounded time. -/
def deadline (config : ReaderConfig) (reader : Reader) : Instant :=
  reader.lastActivity + config.timeoutDuration.asNanos

end Reader

/-- A consumer with its reader loop: the socket still delivers the inbox. -/
structure Live where
  worker : Worker
  channel : List JetstreamCommit
  buffer : List JetstreamCommit
  phase : Phase
  reader : Reader
  inbox : List WsMessage
  cancelled : Bool
  receiverDropped : Bool

/-- The steps of the reader loop, named by the arms of its `select!`s. -/
inductive ReaderStep where
  | attempt
  | leave
  | established (inbox : List WsMessage) (now : Instant)
  | refused (now : Instant) (time : SystemTime)
  | abandonConnect
  | shutDown
  | watchdog (now : Instant)
  | ping (delivered : Bool)
  | receive (message : WsMessage) (now : Instant) (time : SystemTime) (nowUs : U64)
  | failed
  | ended
  | send
  | sendRefused
  | backOff (now : Instant) (time : SystemTime)
  | skipBackOff
  | wake
  | abandonSleep

/-- The steps of a consumer with its reader loop. -/
inductive LiveStep where
  | reader (step : ReaderStep)
  | worker (step : TaskStep)
  | cancel
  /-- The worker ends and drops its end of the channel; commits can have been
  sent since it drained the channel. -/
  | dropReceiver
  | restart

namespace Live

/-- A consumer that has just been started on a store. -/
def boot (config : ReaderConfig) (store : RecordStore) : Live where
  worker := (newConsumer config.ingester store).resume config.ingester
  channel := []
  buffer := []
  phase := .idle
  reader := .start config
  inbox := []
  cancelled := false
  receiverDropped := false

/-- What the storage worker sees. -/
def system (live : Live) (connection : Option (List JetstreamEvent)) : System where
  worker := live.worker
  connection := connection
  channel := live.channel
  buffer := live.buffer
  phase := live.phase

/-- The reader handles an event. -/
def handleEvent (config : ReaderConfig) (live : Live) : JetstreamEvent → Live
  | .commit commit =>
      if config.ingester.wants commit then
        { live with reader := live.reader.goTo (.sending commit) }
      else { live with worker := live.worker.track commit.timeUs }
  | .heartbeat timeUs => { live with worker := live.worker.track timeUs }
  | .other _ _ timeUs => { live with worker := live.worker.track timeUs }

/-- The reader handles a message. -/
def handleMessage (decode : String → Except String RawJetstreamMessage) (config : ReaderConfig)
    (live : Live) (nowUs : U64) : WsMessage → Live
  | .text text =>
      let counted := { live with reader := live.reader.count text.utf8ByteSize }
      match parseJetstreamFrame decode nowUs text with
      | some event =>
          handleEvent config
            { counted with
              reader := { counted.reader with backoff := counted.reader.backoff.reset } } event
      | none => counted
  | .binary length => { live with reader := live.reader.count length }
  | .ping => live
  | .pong => live
  | .close => { live with reader := live.reader.drop }
  | .frame => live

/-- One step of the reader loop. -/
def readerStep (decode : String → Except String RawJetstreamMessage) (config : ReaderConfig)
    (live : Live) (step : ReaderStep) : Option Live :=
  match live.reader.place, step with
  | .top, .attempt =>
      if live.cancelled then none
      else some { live with reader := live.reader.goTo (.connecting live.worker.cursor.getOpt) }
  | .top, .leave =>
      if live.cancelled then some { live with reader := live.reader.goTo .finished } else none
  | .connecting _, .established inbox now =>
      some
        { live with
          reader := { live.reader with place := .connected, lastActivity := now }
          inbox }
  | .connecting _, .refused now time =>
      ({ live.reader with reconnectCount := live.reader.reconnectCount + 1 }.sleep now time).map
        fun reader => { live with reader }
  | .connecting _, .abandonConnect =>
      if live.cancelled then some { live with reader := live.reader.goTo .finished } else none
  | .connected, .shutDown =>
      if live.cancelled then some { live with reader := live.reader.goTo .finished } else none
  | .connected, .watchdog now =>
      if live.reader.deadline config ≤ now then some { live with reader := live.reader.drop }
      else none
  | .connected, .ping delivered =>
      if config.pings then
        some (if delivered then live else { live with reader := live.reader.drop })
      else none
  | .connected, .receive message now time nowUs =>
      match live.inbox with
      | [] => none
      | next :: rest =>
          if next = message then
            some (handleMessage decode config
              { live with inbox := rest, reader := live.reader.note now time } nowUs message)
          else none
  | .connected, .failed => some { live with reader := live.reader.drop }
  | .connected, .ended => some { live with reader := live.reader.drop }
  | .sending commit, .send =>
      if live.channel.length < config.ingester.capacity ∧ live.receiverDropped = false then
        some
          { live with
            channel := live.channel ++ [commit]
            reader := live.reader.goTo .connected }
      else none
  | .sending _, .sendRefused =>
      if live.receiverDropped then some { live with reader := live.reader.goTo .finished }
      else none
  | .dropped, .backOff now time =>
      if live.cancelled then none
      else (live.reader.sleep now time).map fun reader => { live with reader }
  | .dropped, .skipBackOff =>
      if live.cancelled then some { live with reader := live.reader.goTo .top } else none
  | .waiting _, .wake => some { live with reader := live.reader.goTo .top }
  | .waiting _, .abandonSleep =>
      if live.cancelled then some { live with reader := live.reader.goTo .finished } else none
  | _, _ => none

/-- One step of the storage worker; reading is the reader's. -/
def workerStep (serde : SerdeJson) (config : ReaderConfig) (live : Live) (step : TaskStep) :
    Option Live :=
  if live.receiverDropped then none
  else
    ((live.system none).taskStep serde config.ingester step).map fun target =>
      { live with
        worker := target.worker
        channel := target.channel
        buffer := target.buffer
        phase := target.phase }

/-- One step of the consumer. -/
def next (serde : SerdeJson) (decode : String → Except String RawJetstreamMessage)
    (config : ReaderConfig) : Step Live LiveStep
  | live, .reader step => live.readerStep decode config step
  | live, .worker step => live.workerStep serde config step
  | live, .cancel => some { live with cancelled := true }
  | live, .dropReceiver =>
      if live.cancelled ∧ live.phase = .idle ∧ live.buffer = [] then
        some { live with receiverDropped := true }
      else none
  | live, .restart => some (boot config live.worker.store)

/-! ## What a step can do -/

theorem sleep_eq_some {reader target : Reader} {now : Instant} {time : SystemTime}
    (slept : reader.sleep now time = some target) :
    ∃ delay backoff, reader.backoff.nextBackoff now time = some (delay, backoff) ∧
      target = { reader with place := .waiting delay, backoff } := by
  rcases Option.map_eq_some_iff.mp slept with ⟨⟨delay, backoff⟩, drawn, rfl⟩
  exact ⟨delay, backoff, drawn, rfl⟩

/-- The steps of the reader loop, one constructor for each arm. -/
inductive Moves (decode : String → Except String RawJetstreamMessage) (config : ReaderConfig)
    (live : Live) : ReaderStep → Live → Prop
  | attempt (place : live.reader.place = .top) (running : live.cancelled = false) :
      Moves decode config live .attempt
        { live with reader := live.reader.goTo (.connecting live.worker.cursor.getOpt) }
  | leave (place : live.reader.place = .top) (cancelled : live.cancelled = true) :
      Moves decode config live .leave { live with reader := live.reader.goTo .finished }
  | established {cursor : Option U64} (place : live.reader.place = .connecting cursor)
      (inbox : List WsMessage) (now : Instant) :
      Moves decode config live (.established inbox now)
        { live with
          reader := { live.reader with place := .connected, lastActivity := now }
          inbox }
  | refused {cursor : Option U64} {delay : Duration} {backoff : BackoffManager} {now : Instant}
      {time : SystemTime} (place : live.reader.place = .connecting cursor)
      (drawn : live.reader.backoff.nextBackoff now time = some (delay, backoff)) :
      Moves decode config live (.refused now time)
        { live with
          reader :=
            { live.reader with
              place := .waiting delay
              backoff
              reconnectCount := live.reader.reconnectCount + 1 } }
  | abandonConnect {cursor : Option U64} (place : live.reader.place = .connecting cursor)
      (cancelled : live.cancelled = true) :
      Moves decode config live .abandonConnect
        { live with reader := live.reader.goTo .finished }
  | shutDown (place : live.reader.place = .connected) (cancelled : live.cancelled = true) :
      Moves decode config live .shutDown { live with reader := live.reader.goTo .finished }
  | watchdog {now : Instant} (place : live.reader.place = .connected)
      (late : live.reader.deadline config ≤ now) :
      Moves decode config live (.watchdog now) { live with reader := live.reader.drop }
  | ping (place : live.reader.place = .connected) (pings : config.pings = true)
      (delivered : Bool) :
      Moves decode config live (.ping delivered)
        (if delivered then live else { live with reader := live.reader.drop })
  | receive {message : WsMessage} {rest : List WsMessage}
      (place : live.reader.place = .connected) (delivered : live.inbox = message :: rest)
      (now : Instant) (time : SystemTime) (nowUs : U64) :
      Moves decode config live (.receive message now time nowUs)
        (handleMessage decode config
          { live with inbox := rest, reader := live.reader.note now time } nowUs message)
  | failed (place : live.reader.place = .connected) :
      Moves decode config live .failed { live with reader := live.reader.drop }
  | ended (place : live.reader.place = .connected) :
      Moves decode config live .ended { live with reader := live.reader.drop }
  | send {commit : JetstreamCommit} (place : live.reader.place = .sending commit)
      (room : live.channel.length < config.ingester.capacity)
      (open_ : live.receiverDropped = false) :
      Moves decode config live .send
        { live with channel := live.channel ++ [commit], reader := live.reader.goTo .connected }
  | sendRefused {commit : JetstreamCommit} (place : live.reader.place = .sending commit)
      (closed : live.receiverDropped = true) :
      Moves decode config live .sendRefused { live with reader := live.reader.goTo .finished }
  | backOff {delay : Duration} {backoff : BackoffManager} {now : Instant} {time : SystemTime}
      (place : live.reader.place = .dropped) (running : live.cancelled = false)
      (drawn : live.reader.backoff.nextBackoff now time = some (delay, backoff)) :
      Moves decode config live (.backOff now time)
        { live with reader := { live.reader with place := .waiting delay, backoff } }
  | skipBackOff (place : live.reader.place = .dropped) (cancelled : live.cancelled = true) :
      Moves decode config live .skipBackOff { live with reader := live.reader.goTo .top }
  | wake {delay : Duration} (place : live.reader.place = .waiting delay) :
      Moves decode config live .wake { live with reader := live.reader.goTo .top }
  | abandonSleep {delay : Duration} (place : live.reader.place = .waiting delay)
      (cancelled : live.cancelled = true) :
      Moves decode config live .abandonSleep { live with reader := live.reader.goTo .finished }

theorem moves_of_readerStep {decode : String → Except String RawJetstreamMessage}
    {config : ReaderConfig} {source target : Live} {step : ReaderStep}
    (stepped : source.readerStep decode config step = some target) :
    Moves decode config source step target := by
  unfold readerStep at stepped
  split at stepped
  · next place =>
      split at stepped
      · cases stepped
      · next running =>
          cases stepped
          exact .attempt place (Bool.not_eq_true _ ▸ running)
  · next place =>
      split at stepped
      · next cancelled =>
          cases stepped
          exact .leave place cancelled
      · cases stepped
  · next cursor inbox now place =>
      cases stepped
      exact .established place inbox now
  · next cursor now time place =>
      rcases Option.map_eq_some_iff.mp stepped with ⟨reader, slept, rfl⟩
      rcases sleep_eq_some slept with ⟨delay, backoff, drawn, rfl⟩
      exact .refused place drawn
  · next cursor place =>
      split at stepped
      · next cancelled =>
          cases stepped
          exact .abandonConnect place cancelled
      · cases stepped
  · next place =>
      split at stepped
      · next cancelled =>
          cases stepped
          exact .shutDown place cancelled
      · cases stepped
  · next now place =>
      split at stepped
      · next late =>
          cases stepped
          exact .watchdog place late
      · cases stepped
  · next delivered place =>
      split at stepped
      · next pings =>
          cases stepped
          exact .ping place pings delivered
      · cases stepped
  · next message now time nowUs place =>
      split at stepped
      · cases stepped
      · next rest delivered =>
          split at stepped
          · next same =>
              cases stepped
              subst same
              exact .receive place delivered now time nowUs
          · cases stepped
  · next place =>
      cases stepped
      exact .failed place
  · next place =>
      cases stepped
      exact .ended place
  · next commit place =>
      split at stepped
      · next ready =>
          cases stepped
          exact .send place ready.1 ready.2
      · cases stepped
  · next commit place =>
      split at stepped
      · next closed =>
          cases stepped
          exact .sendRefused place closed
      · cases stepped
  · next now time place =>
      split at stepped
      · cases stepped
      · next running =>
          rcases Option.map_eq_some_iff.mp stepped with ⟨reader, slept, rfl⟩
          rcases sleep_eq_some slept with ⟨delay, backoff, drawn, rfl⟩
          exact .backOff place (Bool.not_eq_true _ ▸ running) drawn
  · next place =>
      split at stepped
      · next cancelled =>
          cases stepped
          exact .skipBackOff place cancelled
      · cases stepped
  · next delay place =>
      cases stepped
      exact .wake place
  · next delay place =>
      split at stepped
      · next cancelled =>
          cases stepped
          exact .abandonSleep place cancelled
      · cases stepped
  · cases stepped

end Live

end Skybase.Ingest
