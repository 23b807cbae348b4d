import Skybase.Ingest.Reader

/-!
# What the reader loop counts

The counters of the reader and its delays are functions of what has happened
since the consumer was started: how often it attempted to connect, which frames
it received, and how often it has drawn a delay since the last valid frame.
-/

namespace Skybase.Ingest

open Skybase.Index
open Skybase.Json
open Skybase.Lexicon (Duration SystemTime)

/-- What has happened since the consumer was started. -/
structure Account where
  attempts : Nat
  frames : Nat
  bytes : Nat
  /-- The delays drawn since the last valid frame. -/
  delays : Nat

namespace Account

/-- Nothing has happened. -/
def empty : Account := ⟨0, 0, 0, 0⟩

/-- A frame of so many bytes was received. -/
def addFrame (account : Account) (length : Nat) : Account :=
  { account with frames := account.frames + 1, bytes := account.bytes + length }

/-- The account after a step. -/
def record (decode : String → Except String RawJetstreamMessage) (account : Account) :
    LiveStep → Account
  | .reader .attempt => { account with attempts := account.attempts + 1 }
  | .reader (.refused _ _) => { account with delays := account.delays + 1 }
  | .reader (.backOff _ _) => { account with delays := account.delays + 1 }
  | .reader (.receive (.text text) _ _ nowUs) =>
      let received := account.addFrame text.utf8ByteSize
      if (parseJetstreamFrame decode nowUs text).isSome then { received with delays := 0 }
      else received
  | .reader (.receive (.binary length) _ _ _) => account.addFrame length
  | .restart => empty
  | _ => account

/-- The account of a run. -/
def ofSteps (decode : String → Except String RawJetstreamMessage) (steps : List LiveStep) :
    Account :=
  steps.foldl (record decode) empty

end Account

/-- The attempts of the reader that are not given up yet. -/
def Place.pending : Place → Nat
  | .connecting _ => 1
  | .connected => 1
  | .sending _ => 1
  | _ => 0

namespace ReaderConfig

/-- The first delay in milliseconds, before its jitter. -/
def initialMillis (config : ReaderConfig) : Nat := max config.initialBackoff.asMillis 50

/-- The largest delay in milliseconds, before its jitter. -/
def mostMillis (config : ReaderConfig) : Nat :=
  max config.maxBackoff.asMillis config.initialMillis

/-- The delay after so many others, before its jitter. -/
def baseMillis (config : ReaderConfig) (delays : Nat) : Nat :=
  min (config.initialMillis * 2 ^ delays) config.mostMillis

/-- The delay is jittered by at most a fifth, and not below the floor. -/
def Jittered (config : ReaderConfig) (delays : Nat) (delay : Duration) : Prop :=
  ∃ millis : U64, delay = .fromMillis millis ∧
    max 50 (config.baseMillis delays - config.baseMillis delays * 20 / 100) ≤ millis.val ∧
    millis.val ≤ max 50 (config.baseMillis delays + config.baseMillis delays * 20 / 100)

end ReaderConfig

/-- The reader agrees with an account. -/
structure Accounted (config : ReaderConfig) (account : Account) (reader : Reader) : Prop where
  frames : reader.framesReceived = account.frames
  bytes : reader.bytesReceived = account.bytes
  attempts : reader.place ≠ .finished →
    account.attempts = reader.reconnectCount + reader.place.pending
  attemptsAtEnd : reader.reconnectCount ≤ account.attempts ∧
    account.attempts ≤ reader.reconnectCount + 1
  backoff : BackoffManager.After config.initialMillis config.mostMillis
    defaultJitterPercent account.delays reader.backoff
  waiting : ∀ delay, reader.place = .waiting delay →
    ∃ earlier, account.delays = earlier + 1 ∧ config.Jittered earlier delay

namespace Accounted

variable {config : ReaderConfig} {account : Account} {reader : Reader}

theorem start (config : ReaderConfig) : Accounted config Account.empty (.start config) where
  frames := rfl
  bytes := rfl
  attempts := fun _ => rfl
  attemptsAtEnd := by
    constructor
    · exact Nat.le_refl 0
    · exact Nat.zero_le 1
  backoff := BackoffManager.after_configured config.initialBackoff config.maxBackoff none
  waiting := nofun

/-- Moving on without counting anything. -/
theorem goTo (accounted : Accounted config account reader) {place : Place}
    (same : account.attempts = reader.reconnectCount + place.pending)
    (awake : ∀ delay, place ≠ .waiting delay) : Accounted config account (reader.goTo place) where
  frames := accounted.frames
  bytes := accounted.bytes
  attempts := fun _ => same
  attemptsAtEnd := accounted.attemptsAtEnd
  backoff := accounted.backoff
  waiting := by
    intro delay sleeping
    exact absurd sleeping (awake delay)

/-- Leaving the loop, with an attempt or without one. -/
theorem leave (accounted : Accounted config account reader) :
    Accounted config account (reader.goTo .finished) where
  frames := accounted.frames
  bytes := accounted.bytes
  attempts := fun unfinished => absurd rfl unfinished
  attemptsAtEnd := accounted.attemptsAtEnd
  backoff := accounted.backoff
  waiting := nofun

/-- Giving a connection up counts its attempt as a reconnect. -/
theorem drop (accounted : Accounted config account reader) (pending : reader.place.pending = 1)
    (unfinished : reader.place ≠ .finished) : Accounted config account reader.drop := by
  have attempts := accounted.attempts unfinished
  rw [pending] at attempts
  constructor
  case frames => exact accounted.frames
  case bytes => exact accounted.bytes
  case attempts => exact fun _ => attempts
  case attemptsAtEnd =>
      rw [attempts]
      exact ⟨Nat.le_refl _, Nat.le_succ _⟩
  case backoff => exact accounted.backoff
  case waiting => nofun

/-- Drawing a delay. -/
theorem sleep (accounted : Accounted config account reader) (bounded : config.mostMillis < 2 ^ 64)
    {now : Instant} {time : SystemTime} {delay : Duration} {backoff : BackoffManager}
    (drawn : reader.backoff.nextBackoff now time = some (delay, backoff)) {reconnectCount : Nat}
    (attempts : account.attempts = reconnectCount) :
    Accounted config { account with delays := account.delays + 1 }
      { reader with place := .waiting delay, backoff, reconnectCount } := by
  have clamped : defaultJitterPercent.val ≤ 100 := by decide
  rcases accounted.backoff.exists_nextBackoff bounded clamped now time with
    ⟨millis, called, above, below⟩
  rw [called] at drawn
  cases drawn
  constructor
  case frames => exact accounted.frames
  case bytes => exact accounted.bytes
  case attempts => exact fun _ => attempts
  case attemptsAtEnd =>
      rw [attempts]
      exact ⟨Nat.le_refl _, Nat.le_succ _⟩
  case backoff => exact accounted.backoff.advanced bounded now
  case waiting =>
      rintro _ ⟨⟩
      exact ⟨account.delays, rfl, millis, rfl, above, below⟩

/-- Handling an event counts nothing. -/
theorem handleEvent {live : Live} (accounted : Accounted config account live.reader)
    (place : live.reader.place = .connected) (event : JetstreamEvent) :
    Accounted config account (live.handleEvent config event).reader := by
  cases event with
  | commit commit =>
      rw [Live.handleEvent]
      split
      · have attempts := accounted.attempts (by rw [place]; nofun)
        rw [place] at attempts
        have before : account.attempts =
            live.reader.reconnectCount + (Place.sending commit).pending := attempts
        exact accounted.goTo before nofun
      · exact accounted
  | heartbeat timeUs => exact accounted
  | other kind did timeUs => exact accounted

/-- Receiving a message counts its frame, and a valid one resets the delays. -/
theorem handleMessage {decode : String → Except String RawJetstreamMessage} {live : Live}
    (accounted : Accounted config account live.reader) (place : live.reader.place = .connected)
    (message : WsMessage) (now : Instant) (time : SystemTime) (nowUs : U64) :
    Accounted config
      (account.record decode (.reader (.receive message now time nowUs)))
      (live.handleMessage decode config nowUs message).reader := by
  have unfinished : live.reader.place ≠ .finished := by
    rw [place]
    nofun
  have pending : live.reader.place.pending = 1 := by rw [place]; rfl
  have attempts := accounted.attempts unfinished
  have counted (length : Nat) : Accounted config (account.addFrame length)
      (live.reader.count length) := by
    constructor
    case frames => exact congrArg (· + 1) accounted.frames
    case bytes => exact congrArg (· + length) accounted.bytes
    case attempts => exact fun _ => attempts
    case attemptsAtEnd => exact accounted.attemptsAtEnd
    case backoff => exact accounted.backoff
    case waiting => exact accounted.waiting
  cases message with
  | text text =>
      have le : config.initialMillis ≤ config.mostMillis := le_max_right _ _
      have received := counted text.utf8ByteSize
      rw [Live.handleMessage, Account.record]
      dsimp only
      cases parsed : parseJetstreamFrame decode nowUs text with
      | none => exact received
      | some event =>
          have reset : Accounted config { account.addFrame text.utf8ByteSize with delays := 0 }
              { live.reader.count text.utf8ByteSize with
                backoff := (live.reader.count text.utf8ByteSize).backoff.reset } := by
            constructor
            case frames => exact received.frames
            case bytes => exact received.bytes
            case attempts => exact received.attempts
            case attemptsAtEnd => exact received.attemptsAtEnd
            case backoff => exact received.backoff.reset le
            case waiting =>
                intro delay sleeping
                exact absurd (place.symm.trans sleeping) nofun
          let handling : Live :=
            { live with
              reader :=
                { live.reader.count text.utf8ByteSize with
                  backoff := (live.reader.count text.utf8ByteSize).backoff.reset } }
          have handled : Accounted config
              { account.addFrame text.utf8ByteSize with delays := 0 } handling.reader := reset
          exact handled.handleEvent place event
  | binary length => exact counted length
  | ping => exact accounted
  | pong => exact accounted
  | close => exact accounted.drop pending unfinished
  | frame => exact accounted

/-- Every step of the reader loop keeps the account. -/
theorem moves {decode : String → Except String RawJetstreamMessage} {source target : Live}
    {step : ReaderStep} (accounted : Accounted config account source.reader)
    (bounded : config.mostMillis < 2 ^ 64) (moves : Live.Moves decode config source step target) :
    Accounted config (account.record decode (.reader step)) target.reader := by
  have attempts {place : Place} (here : source.reader.place = place) (running : place ≠ .finished) :
      account.attempts = source.reader.reconnectCount + place.pending := by
    rw [← here] at running ⊢
    exact accounted.attempts running
  cases moves with
  | attempt place running =>
      have before := attempts place nofun
      constructor
      case frames => exact accounted.frames
      case bytes => exact accounted.bytes
      case attempts => exact fun _ => congrArg (· + 1) before
      case attemptsAtEnd =>
          have after : account.attempts + 1 = source.reader.reconnectCount + 1 :=
            congrArg (· + 1) before
          exact ⟨(Nat.le_succ _).trans after.ge, after.le⟩
      case backoff => exact accounted.backoff
      case waiting => nofun
  | leave place cancelled => exact accounted.leave
  | established place inbox now =>
      have before := attempts place nofun
      constructor
      case frames => exact accounted.frames
      case bytes => exact accounted.bytes
      case attempts => exact fun _ => before
      case attemptsAtEnd => exact accounted.attemptsAtEnd
      case backoff => exact accounted.backoff
      case waiting => nofun
  | refused place drawn => exact accounted.sleep bounded drawn (attempts place nofun)
  | abandonConnect place cancelled => exact accounted.leave
  | shutDown place cancelled => exact accounted.leave
  | watchdog place late => exact accounted.drop (by rw [place]; rfl) (by rw [place]; nofun)
  | ping place pings delivered =>
      cases delivered
      · exact accounted.drop (by rw [place]; rfl) (by rw [place]; nofun)
      · exact accounted
  | @receive message rest place delivered now time nowUs =>
      have noted : Accounted config account (source.reader.note now time) :=
        ⟨accounted.frames, accounted.bytes, accounted.attempts, accounted.attemptsAtEnd,
          accounted.backoff, accounted.waiting⟩
      let handling : Live := { source with inbox := rest, reader := source.reader.note now time }
      have noted' : Accounted config account handling.reader := noted
      exact noted'.handleMessage place message now time nowUs
  | failed place => exact accounted.drop (by rw [place]; rfl) (by rw [place]; nofun)
  | ended place => exact accounted.drop (by rw [place]; rfl) (by rw [place]; nofun)
  | send place room open_ =>
      have before := attempts place nofun
      exact accounted.goTo before nofun
  | sendRefused place closed => exact accounted.leave
  | backOff place running drawn => exact accounted.sleep bounded drawn (attempts place nofun)
  | skipBackOff place cancelled =>
      have before := attempts place nofun
      exact accounted.goTo before nofun
  | wake place =>
      have before := attempts place nofun
      exact accounted.goTo before nofun
  | abandonSleep place cancelled => exact accounted.leave

end Accounted

namespace Live

variable {serde : SerdeJson} {decode : String → Except String RawJetstreamMessage}
  {config : ReaderConfig}

/-- Every step of the consumer keeps the account. -/
theorem accounted_next (bounded : config.mostMillis < 2 ^ 64) {account : Account}
    {source target : Live} {step : LiveStep} (accounted : Accounted config account source.reader)
    (stepped : next serde decode config source step = some target) :
    Accounted config (account.record decode step) target.reader := by
  cases step with
  | reader step => exact accounted.moves bounded (moves_of_readerStep stepped)
  | worker step =>
      rw [next, workerStep] at stepped
      split at stepped
      · cases stepped
      · rcases Option.map_eq_some_iff.mp stepped with ⟨_, _, rfl⟩
        exact accounted
  | cancel =>
      cases stepped
      exact accounted
  | dropReceiver =>
      rw [next] at stepped
      split at stepped
      · cases stepped
        exact accounted
      · cases stepped
  | restart =>
      cases stepped
      exact Accounted.start config

theorem accounted_run (bounded : config.mostMillis < 2 ^ 64) {account : Account}
    {source target : Live} {steps : List LiveStep}
    (accounted : Accounted config account source.reader)
    (reached : Transition.run (next serde decode config) source steps = some target) :
    Accounted config (steps.foldl (Account.record decode) account) target.reader := by
  induction steps generalizing source account with
  | nil =>
      cases reached
      exact accounted
  | cons step steps ih =>
      rcases (Transition.run_cons_eq_some_iff _ _ _ _).mp reached with ⟨middle, stepped, rest⟩
      exact ih (accounted_next bounded accounted stepped) rest

/-- The counters and delays of the reader loop.  After every run, since the last
start: the frame counters count the text and binary messages and their bytes;
the reconnects are the attempts that were given up, which are all but the one
that is under way; a sleep lasts the initial delay, doubled for every delay drawn
since the last valid frame up to the maximum, and jittered by at most a fifth;
and the next delay can be drawn without a panic. -/
theorem account_run (serde : SerdeJson) (decode : String → Except String RawJetstreamMessage)
    (config : ReaderConfig) (initialBounded : config.initialBackoff.asMillis < 2 ^ 64)
    (maxBounded : config.maxBackoff.asMillis < 2 ^ 64) (store : RecordStore)
    (steps : List LiveStep) (live : Live)
    (reached : Transition.run (next serde decode config) (boot config store) steps = some live) :
    let account := Account.ofSteps decode steps
    live.reader.framesReceived = account.frames ∧
      live.reader.bytesReceived = account.bytes ∧
      (live.reader.place ≠ .finished →
        account.attempts = live.reader.reconnectCount + live.reader.place.pending) ∧
      (live.reader.reconnectCount ≤ account.attempts ∧
        account.attempts ≤ live.reader.reconnectCount + 1) ∧
      (∀ delay, live.reader.place = .waiting delay →
        ∃ earlier, account.delays = earlier + 1 ∧ config.Jittered earlier delay) ∧
      ∀ now time, (live.reader.backoff.nextBackoff now time).isSome = true := by
  intro account
  have bounded : config.mostMillis < 2 ^ 64 := by
    rw [ReaderConfig.mostMillis, ReaderConfig.initialMillis]
    omega
  have accounted := accounted_run bounded (Accounted.start config) reached
  refine ⟨accounted.frames, accounted.bytes, accounted.attempts, accounted.attemptsAtEnd,
    accounted.waiting, ?_⟩
  intro now time
  have clamped : defaultJitterPercent.val ≤ 100 := by decide
  rcases accounted.backoff.exists_nextBackoff bounded clamped now time with ⟨_, called, _⟩
  rw [called]
  rfl

/-- The connection fails after a ping and a binary message. -/
def lostSteps : List LiveStep :=
  [.reader .attempt, .reader (.established [.ping, .binary 7] 0),
    .reader (.receive .ping 1 (.sinceEpoch .zero) 0),
    .reader (.receive (.binary 7) 2 (.sinceEpoch .zero) 0), .reader .failed]

theorem account_run_lostSteps :
    ∃ live, Transition.run (next .scalars (fun _ => .error "expected value") plainReader)
        (boot plainReader RecordStore.empty) lostSteps = some live ∧
      live.reader.framesReceived = 1 ∧ live.reader.bytesReceived = 7 ∧
      live.reader.reconnectCount = 1 ∧
      (live.reader.backoff.nextBackoff 3 (.sinceEpoch .zero)).isSome = true := by
  have initial : Duration.asMillis ⟨0, 500000000⟩ < 2 ^ 64 := by decide
  have most : Duration.asMillis ⟨30, 0⟩ < 2 ^ 64 := by decide
  obtain ⟨frames, bytes, attempts, _, _, draws⟩ := account_run .scalars
    (fun _ => .error "expected value") plainReader initial most RecordStore.empty lostSteps _ rfl
  exact ⟨_, rfl, frames, bytes, (attempts nofun).symm, draws 3 (.sinceEpoch .zero)⟩

end Live

end Skybase.Ingest
