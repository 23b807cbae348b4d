import Skybase.Ingest.Filing
import Skybase.Ingest.Reader
import Skybase.Ingest.Restart
import Skybase.Transition.Simulation

/-!
# The reader loop refines the running consumer

The running consumer of the other modules reads, connects and disconnects in
one step each.  Every run of the detailed consumer, with all its ways to lose a
connection, is one of its runs: a connection is its own from the moment the URL
is built, and what the server will deliver on it is settled backwards.
-/

namespace Skybase.Ingest

open Skybase.Index
open Skybase.Json
open Skybase.Lexicon (Duration SystemTime)
open Skybase.Transition (Along BackwardStep Matches)

/-- The event that a message carries, for a clock that rules no timestamp out. -/
def WsMessage.event (decode : String → Except String RawJetstreamMessage) :
    WsMessage → Option JetstreamEvent
  | .text body => parseJetstreamFrame decode 0 body
  | _ => none

/-- The observed actions of the simpler consumer: those of its worker, and the
restarts. -/
def System.Action.byWorker : System.Action → List System.Action
  | .task .read => []
  | .task step => [.task step]
  | .connect _ => []
  | .disconnect => []
  | .restart => [.restart]

/-- The observed actions of the detailed consumer. -/
def LiveStep.byWorker : LiveStep → List System.Action
  | .worker step => [.task step]
  | .restart => [.restart]
  | _ => []

namespace Live

variable {serde : SerdeJson} {decode : String → Except String RawJetstreamMessage}
  {config : ReaderConfig} {log : List JetstreamEvent}

/-- The server delivers on a connection the log from its cursor on, perhaps
between other messages.  The parser discards a frame whose timestamp is too far
ahead of the clock; no frame of this run is, so that each is parsed at its receipt
as it is without a reading of the clock. -/
def Serves (decode : String → Except String RawJetstreamMessage) (log : List JetstreamEvent)
    (live : Live) : LiveStep → Prop
  | .reader (.established inbox _) =>
      ∀ cursor, live.reader.place = .connecting cursor →
        ∃ position, inbox.filterMap (WsMessage.event decode) =
          System.replayFrom log position cursor
  | .reader (.receive (.text text) _ _ nowUs) =>
      parseJetstreamFrame decode nowUs text = parseJetstreamFrame decode 0 text
  | _ => True

/-- The connections of the simpler consumer that a detailed state stands for.
While the reader is connecting they are none, and one from every position that
the server can still choose. -/
def Connects (decode : String → Except String RawJetstreamMessage) (config : ReaderConfig)
    (log : List JetstreamEvent) (live : Live) (connection : Option (List JetstreamEvent)) : Prop :=
  match live.reader.place with
  | .connecting cursor =>
      connection = none ∨ ∃ position, connection = some (System.replayFrom log position cursor)
  | .connected => connection = some (live.inbox.filterMap (WsMessage.event decode))
  | .sending commit =>
      config.ingester.wants commit = true ∧
        connection = some (.commit commit :: live.inbox.filterMap (WsMessage.event decode))
  | _ => connection = none

/-- The state of the simpler consumer stands for the detailed one. -/
def Stands (decode : String → Except String RawJetstreamMessage) (config : ReaderConfig)
    (log : List JetstreamEvent) (live : Live) (system : System) : Prop :=
  ∃ connection, live.Connects decode config log connection ∧ system = live.system connection

/-- The commit that the reader is sending is one that it ingests. -/
def SendsWanted (config : ReaderConfig) (live : Live) : Prop :=
  ∀ commit, live.reader.place = .sending commit → config.ingester.wants commit = true

theorem sendsWanted_of_place {live : Live} {place : Place} (here : live.reader.place = place)
    (other : ∀ commit, place ≠ .sending commit) : live.SendsWanted config := by
  intro commit sending
  exact absurd (here.symm.trans sending) (other commit)

theorem sendsWanted_handleEvent (live : Live) (here : live.reader.place = .connected)
    (event : JetstreamEvent) : (live.handleEvent config event).SendsWanted config := by
  cases event with
  | commit commit =>
      rw [handleEvent]
      split
      · next wants =>
          intro other sending
          cases sending
          exact wants
      · exact sendsWanted_of_place here nofun
  | heartbeat timeUs => exact sendsWanted_of_place here nofun
  | other kind did timeUs => exact sendsWanted_of_place here nofun

theorem sendsWanted_handleMessage (live : Live) (here : live.reader.place = .connected)
    (nowUs : U64) (message : WsMessage) :
    (live.handleMessage decode config nowUs message).SendsWanted config := by
  cases message with
  | text text =>
      rw [handleMessage]
      dsimp only
      split
      · apply sendsWanted_handleEvent
        exact here
      · exact sendsWanted_of_place here nofun
  | binary length => exact sendsWanted_of_place here nofun
  | ping => exact sendsWanted_of_place here nofun
  | pong => exact sendsWanted_of_place here nofun
  | close => exact sendsWanted_of_place (rfl : _ = Place.dropped) nofun
  | frame => exact sendsWanted_of_place here nofun

theorem sendsWanted_moves {source target : Live} {step : ReaderStep}
    (moves : Moves decode config source step target) : target.SendsWanted config := by
  cases moves with
  | attempt place running => exact sendsWanted_of_place rfl nofun
  | leave place cancelled => exact sendsWanted_of_place rfl nofun
  | established place inbox now => exact sendsWanted_of_place rfl nofun
  | refused place drawn => exact sendsWanted_of_place rfl nofun
  | abandonConnect place cancelled => exact sendsWanted_of_place rfl nofun
  | shutDown place cancelled => exact sendsWanted_of_place rfl nofun
  | watchdog place late => exact sendsWanted_of_place (rfl : _ = Place.dropped) nofun
  | ping place pings delivered =>
      cases delivered
      · exact sendsWanted_of_place (rfl : _ = Place.dropped) nofun
      · exact sendsWanted_of_place place nofun
  | receive place delivered now time nowUs =>
      apply sendsWanted_handleMessage
      exact place
  | failed place => exact sendsWanted_of_place (rfl : _ = Place.dropped) nofun
  | ended place => exact sendsWanted_of_place (rfl : _ = Place.dropped) nofun
  | send place room open_ => exact sendsWanted_of_place rfl nofun
  | sendRefused place closed => exact sendsWanted_of_place rfl nofun
  | backOff place running drawn => exact sendsWanted_of_place rfl nofun
  | skipBackOff place cancelled => exact sendsWanted_of_place rfl nofun
  | wake place => exact sendsWanted_of_place rfl nofun
  | abandonSleep place cancelled => exact sendsWanted_of_place rfl nofun

theorem sendsWanted_next (serde : SerdeJson)
    (decode : String → Except String RawJetstreamMessage) (config : ReaderConfig)
    (source : Live) (step : LiveStep) (target : Live) (wanted : source.SendsWanted config)
    (stepped : next serde decode config source step = some target) :
    target.SendsWanted config := by
  cases step with
  | reader step => exact sendsWanted_moves (moves_of_readerStep stepped)
  | worker step =>
      rw [next, workerStep] at stepped
      split at stepped
      · cases stepped
      · rcases Option.map_eq_some_iff.mp stepped with ⟨_, _, rfl⟩
        exact wanted
  | cancel =>
      cases stepped
      exact wanted
  | dropReceiver =>
      rw [next] at stepped
      split at stepped
      · cases stepped
        exact wanted
      · cases stepped
  | restart =>
      cases stepped
      exact sendsWanted_of_place (rfl : _ = Place.top) nofun

/-- Every state stands for some connection. -/
theorem exists_connects (decode : String → Except String RawJetstreamMessage)
    (log : List JetstreamEvent) {live : Live} (wanted : live.SendsWanted config) :
    ∃ connection, live.Connects decode config log connection := by
  unfold Connects
  cases place : live.reader.place with
  | top => exact ⟨none, rfl⟩
  | connecting cursor => exact ⟨none, Or.inl rfl⟩
  | connected => exact ⟨_, rfl⟩
  | sending commit => exact ⟨_, wanted commit place, rfl⟩
  | dropped => exact ⟨none, rfl⟩
  | waiting delay => exact ⟨none, rfl⟩
  | finished => exact ⟨none, rfl⟩

/-! ### The steps of the reader -/

theorem handleEvent_of_unwanted {event : JetstreamEvent}
    (unwanted : config.ingester.wanted event = none) (live : Live) :
    live.handleEvent config event =
      { live with worker := live.worker.track event.timeUs } := by
  cases event with
  | commit commit =>
      have skips : ¬ config.ingester.wants commit = true := by
        intro wants
        rw [IngesterConfig.wanted, if_pos wants] at unwanted
        cases unwanted
      exact if_neg skips
  | heartbeat timeUs => rfl
  | other kind did timeUs => rfl

theorem run_read_of_unwanted {event : JetstreamEvent}
    (unwanted : config.ingester.wanted event = none) (live : Live) (rest : List JetstreamEvent) :
    Transition.run (System.next serde config.ingester log) (live.system (some (event :: rest)))
        [.task .read] =
      some (({ live with worker := live.worker.track event.timeUs } : Live).system
        (some rest)) := by
  rw [Transition.run_singleton]
  cases event with
  | commit commit =>
      have skips : ¬ config.ingester.wants commit = true := by
        intro wants
        rw [IngesterConfig.wanted, if_pos wants] at unwanted
        cases unwanted
      exact if_neg skips
  | heartbeat timeUs => rfl
  | other kind did timeUs => rfl

/-- The reader starts an attempt only while the worker has nothing left to do. -/
def AttemptsIdle (live : Live) : LiveStep → Prop
  | .reader .attempt => live.buffer ++ live.channel = [] ∧ live.phase = .idle
  | _ => True

/-- What matches a step of the reader: a run of the simpler reader that shows
nothing, and connects only while the worker is idle where `idle` holds and the
step does. -/
def Matched (serde : SerdeJson) (decode : String → Except String RawJetstreamMessage)
    (config : ReaderConfig) (log : List JetstreamEvent) (idle : Prop) (source target : Live)
    (connection : Option (List JetstreamEvent)) : Prop :=
  ∃ before actions, source.Connects decode config log before ∧
    Transition.run (System.next serde config.ingester log) (source.system before) actions =
      some (target.system connection) ∧
    Along (System.next serde config.ingester log)
      (fun system action => idle → system.ConnectsIdle action) (source.system before) actions ∧
    actions.flatMap System.Action.byWorker = []

variable {idle : Prop}

/-- Matched by no step of the simpler consumer. -/
theorem matched_of_same {source target : Live} {connection : Option (List JetstreamEvent)}
    (connects : source.Connects decode config log connection)
    (same : source.system none = target.system none) :
    Matched serde decode config log idle source target connection := by
  refine ⟨connection, [], connects, ?_, trivial, rfl⟩
  have moved := congrArg (fun system : System => { system with connection }) same
  exact congrArg some moved

/-- A single action that does not connect. -/
theorem along_of_harmless {system : System} {action : System.Action}
    (harmless : system.ConnectsIdle action) :
    Along (System.next serde config.ingester log)
      (fun system action => idle → system.ConnectsIdle action) system [action] :=
  ⟨fun _ => harmless, fun _ _ => trivial⟩

/-- Matched by giving the connection up. -/
theorem matched_of_disconnect {source target : Live} {frames : List JetstreamEvent}
    {connection : Option (List JetstreamEvent)}
    (connects : source.Connects decode config log (some frames))
    (same : source.system none = target.system none) (none_eq : connection = none) :
    Matched serde decode config log idle source target connection := by
  refine ⟨some frames, [.disconnect], connects, ?_, along_of_harmless trivial, rfl⟩
  rw [Transition.run_singleton, none_eq]
  exact congrArg some same

/-- Handling an event is reading it, or starting to. -/
theorem matched_handleEvent {source handling : Live} {event : JetstreamEvent}
    {connection : Option (List JetstreamEvent)} (place : source.reader.place = .connected)
    (still : handling.reader.place = .connected)
    (same : source.system none = handling.system none)
    (delivered : source.inbox.filterMap (WsMessage.event decode) =
      event :: handling.inbox.filterMap (WsMessage.event decode))
    (connects : (handling.handleEvent config event).Connects decode config log connection) :
    Matched serde decode config log idle source (handling.handleEvent config event) connection := by
  have connected : source.Connects decode config log
      (some (event :: handling.inbox.filterMap (WsMessage.event decode))) := by
    rw [Connects, place, delivered]
  cases wanted : config.ingester.wanted event with
  | none =>
      rw [handleEvent_of_unwanted wanted] at connects ⊢
      have connection_eq : connection =
          some (handling.inbox.filterMap (WsMessage.event decode)) := by
        rw [Connects, still] at connects
        exact connects
      refine ⟨_, [.task .read], connected, ?_, along_of_harmless trivial, rfl⟩
      have worker_eq : source.worker = handling.worker := congrArg System.worker same
      have moved := congrArg (fun system : System =>
        { system with
          connection := connection
          worker := system.worker.track event.timeUs }) same
      rw [run_read_of_unwanted wanted, connection_eq]
      rw [connection_eq] at moved
      exact congrArg some moved
  | some commit =>
      cases event with
      | commit received =>
          have wants : config.ingester.wants received = true := by
            by_contra skips
            rw [IngesterConfig.wanted, if_neg skips] at wanted
            cases wanted
          have sending : handling.handleEvent config (.commit received) =
              { handling with reader := handling.reader.goTo (.sending received) } :=
            if_pos wants
          rw [sending] at connects ⊢
          cases connects.2
          exact matched_of_same connected same
      | heartbeat timeUs => cases wanted
      | other kind did timeUs => cases wanted

/-- Handling a message is reading the event it carries, or nothing. -/
theorem matched_handleMessage {source handling : Live} {message : WsMessage} {nowUs : U64}
    {connection : Option (List JetstreamEvent)} (place : source.reader.place = .connected)
    (still : handling.reader.place = .connected)
    (same : source.system none = handling.system none)
    (delivered : source.inbox = message :: handling.inbox)
    (timely : ∀ text, message = .text text →
      parseJetstreamFrame decode nowUs text = parseJetstreamFrame decode 0 text)
    (connects : (handling.handleMessage decode config nowUs message).Connects decode config log
      connection) :
    Matched serde decode config log idle source (handling.handleMessage decode config nowUs message)
      connection := by
  -- a message without an event leaves the connection as it is
  have silent : message.event decode = none → ∀ reader : Reader, reader.place = .connected →
      ({ handling with reader } : Live).Connects decode config log connection →
        Matched serde decode config log idle source { handling with reader } connection := by
    intro nothing reader stays held
    apply matched_of_same _ same
    rw [Connects, place]
    rw [Connects, show ({ handling with reader } : Live).reader.place = .connected from stays]
      at held
    rw [delivered, List.filterMap_cons_none nothing]
    exact held
  cases message with
  | text text =>
      have parsed := timely text rfl
      rw [handleMessage] at connects ⊢
      dsimp only at connects ⊢
      cases event_eq : parseJetstreamFrame decode nowUs text with
      | none =>
          rw [event_eq] at connects
          exact silent (parsed.symm.trans event_eq) _ still connects
      | some event =>
          rw [event_eq] at connects
          dsimp only at connects ⊢
          refine matched_handleEvent place still same ?_ connects
          rw [delivered]
          exact List.filterMap_cons_some (parsed.symm.trans event_eq)
  | binary length => exact silent rfl (handling.reader.count length) still connects
  | ping => exact silent rfl handling.reader still connects
  | pong => exact silent rfl handling.reader still connects
  | close =>
      have connected : source.Connects decode config log
          (some (source.inbox.filterMap (WsMessage.event decode))) := by
        rw [Connects, place]
      exact matched_of_disconnect connected same connects
  | frame => exact silent rfl handling.reader still connects

/-- Every step of the reader loop is matched by steps of the simpler reader. -/
theorem matched_moves {source target : Live} {step : ReaderStep}
    {connection : Option (List JetstreamEvent)}
    (moves : Moves decode config source step target)
    (wanted : source.SendsWanted config) (serves : source.Serves decode log (.reader step))
    (quiet : idle → source.AttemptsIdle (.reader step))
    (connects : target.Connects decode config log connection) :
    Matched serde decode config log idle source target connection := by
  have connected (place : source.reader.place = .connected) : source.Connects decode config log
      (some (source.inbox.filterMap (WsMessage.event decode))) := by
    rw [Connects, place]
  have off {place : Place} (here : source.reader.place = place)
      (unconnected : ({ source with reader := source.reader.goTo place } : Live).Connects decode
        config log none) : source.Connects decode config log none := by
    rw [Connects] at unconnected ⊢
    rw [here]
    exact unconnected
  cases moves with
  | attempt place running =>
      rcases connects with rfl | ⟨position, rfl⟩
      · exact matched_of_same (off place rfl) rfl
      · exact ⟨none, [.connect position], off place rfl, rfl, ⟨quiet, fun _ _ => trivial⟩, rfl⟩
  | leave place cancelled =>
      cases connects
      exact matched_of_same (off place rfl) rfl
  | @established cursor place inbox now =>
      rcases serves cursor place with ⟨position, served⟩
      apply matched_of_same _ rfl
      rw [Connects, place]
      exact Or.inr ⟨position, connects.trans (congrArg some served)⟩
  | refused place drawn =>
      cases connects
      exact matched_of_same (off place (Or.inl rfl)) rfl
  | abandonConnect place cancelled =>
      cases connects
      exact matched_of_same (off place (Or.inl rfl)) rfl
  | shutDown place cancelled => exact matched_of_disconnect (connected place) rfl connects
  | watchdog place late => exact matched_of_disconnect (connected place) rfl connects
  | ping place pings delivered =>
      cases delivered
      · exact matched_of_disconnect (connected place) rfl connects
      · exact matched_of_same connects rfl
  | @receive message rest place delivered now time nowUs =>
      have timely : ∀ text, message = .text text →
          parseJetstreamFrame decode nowUs text = parseJetstreamFrame decode 0 text := by
        rintro text rfl
        exact serves
      let handling : Live := { source with inbox := rest, reader := source.reader.note now time }
      have still : handling.reader.place = .connected := place
      have same : source.system none = handling.system none := rfl
      exact matched_handleMessage place still same delivered timely connects
  | failed place => exact matched_of_disconnect (connected place) rfl connects
  | ended place => exact matched_of_disconnect (connected place) rfl connects
  | @send commit place room open_ =>
      have wants := wanted commit place
      refine ⟨some (.commit commit :: source.inbox.filterMap (WsMessage.event decode)),
        [.task .read], ?_, ?_, along_of_harmless trivial, rfl⟩
      · rw [Connects, place]
        exact ⟨wants, rfl⟩
      · rw [Transition.run_singleton, show connection =
          some (source.inbox.filterMap (WsMessage.event decode)) from connects]
        simp only [System.next, System.taskStep, system, System.handleFrame, wants, room, if_true]
  | @sendRefused commit place closed =>
      have sending : source.Connects decode config log
          (some (.commit commit :: source.inbox.filterMap (WsMessage.event decode))) := by
        rw [Connects, place]
        exact ⟨wanted commit place, rfl⟩
      exact matched_of_disconnect sending rfl connects
  | backOff place running drawn =>
      cases connects
      exact matched_of_same (off place rfl) rfl
  | skipBackOff place cancelled =>
      cases connects
      exact matched_of_same (off place rfl) rfl
  | wake place =>
      cases connects
      exact matched_of_same (off place rfl) rfl
  | abandonSleep place cancelled =>
      cases connects
      exact matched_of_same (off place rfl) rfl

/-- The worker does not look at the connection. -/
theorem taskStep_connection (serde : SerdeJson) (config : ReaderConfig) {step : TaskStep}
    (working : step ≠ .read) (system : System) (connection : Option (List JetstreamEvent)) :
    ({ system with connection } : System).taskStep serde config.ingester step =
      (system.taskStep serde config.ingester step).map fun target =>
        { target with connection } := by
  cases step with
  | read => exact absurd rfl working
  | take count =>
      simp only [System.taskStep]
      split <;> rfl
  | write sqlite =>
      simp only [System.taskStep]
      split
      · split <;> rfl
      · rfl
  | flush sqlite =>
      simp only [System.taskStep]
      split <;> rfl
  | track =>
      simp only [System.taskStep]
      cases system.phase <;> rfl
  | persist sqlite =>
      simp only [System.taskStep]
      cases system.phase <;> rfl

/-- Every step of the detailed consumer is matched backwards. -/
theorem backwardStep (serde : SerdeJson) (decode : String → Except String RawJetstreamMessage)
    (config : ReaderConfig) (log : List JetstreamEvent) (idle : Prop) :
    BackwardStep (next serde decode config) (System.next serde config.ingester log)
      (fun live step => (live.SendsWanted config ∧ live.Serves decode log step) ∧
        (idle → live.AttemptsIdle step))
      (fun system action => idle → system.ConnectsIdle action)
      (Stands decode config log) LiveStep.byWorker System.Action.byWorker := by
  rintro source step target ⟨⟨wanted, serves⟩, quiet⟩ stepped _ ⟨connection, connects, rfl⟩
  cases step with
  | reader step =>
      rcases matched_moves (moves_of_readerStep stepped) wanted serves quiet connects with
        ⟨before, actions, connectsBefore, ran, guarded, silent⟩
      exact ⟨_, actions, ⟨before, connectsBefore, rfl⟩, ran, guarded, silent⟩
  | worker step =>
      rw [next, workerStep] at stepped
      split at stepped
      · cases stepped
      · rcases Option.map_eq_some_iff.mp stepped with ⟨moved, taken, rfl⟩
        have working : step ≠ .read := by
          rintro rfl
          cases taken
        refine ⟨source.system connection, [.task step], ⟨connection, connects, rfl⟩, ?_,
          along_of_harmless trivial, ?_⟩
        · have carried := taskStep_connection serde config working (source.system none) connection
          rw [taken] at carried
          rw [Transition.run_singleton]
          exact carried
        · cases step with
          | read => exact absurd rfl working
          | take count => rfl
          | write sqlite => rfl
          | flush sqlite => rfl
          | track => rfl
          | persist sqlite => rfl
  | cancel =>
      cases stepped
      exact ⟨_, [], ⟨connection, connects, rfl⟩, rfl, trivial, rfl⟩
  | dropReceiver =>
      rw [next] at stepped
      split at stepped
      · cases stepped
        exact ⟨_, [], ⟨connection, connects, rfl⟩, rfl, trivial, rfl⟩
      · cases stepped
  | restart =>
      cases stepped
      rcases exists_connects decode log wanted with ⟨before, connectsBefore⟩
      cases connects
      exact ⟨_, [.restart], ⟨before, connectsBefore, rfl⟩, rfl, along_of_harmless trivial, rfl⟩

/-- A run of the detailed consumer is matched by one of the simpler consumer. -/
theorem exists_run {serde : SerdeJson} {store : RecordStore} {idle : Prop} {steps : List LiveStep}
    {live : Live}
    (reached : Transition.run (next serde decode config) (boot config store) steps = some live)
    (served : Along (next serde decode config) (Serves decode log) (boot config store) steps)
    (quiet : idle → Along (next serde decode config) AttemptsIdle (boot config store) steps)
    {connection : Option (List JetstreamEvent)}
    (connects : live.Connects decode config log connection) :
    ∃ actions, Transition.run (System.next serde config.ingester log)
        (System.booted config.ingester store) actions = some (live.system connection) ∧
      actions.flatMap System.Action.byWorker = steps.flatMap LiveStep.byWorker ∧
      (idle → Along (System.next serde config.ingester log) System.ConnectsIdle
        (System.booted config.ingester store) actions) := by
  have start : (boot config store).SendsWanted config :=
    sendsWanted_of_place (rfl : _ = Place.top) nofun
  have wanted := Transition.along_of_preserved
    (sendsWanted_next serde decode config) start steps
  have guarded := (wanted.and served).and (Transition.along_imp quiet)
  rcases Transition.run_of_backwardStep (backwardStep serde decode config log idle) guarded
    reached ⟨connection, connects, rfl⟩ with
    ⟨_, actions, ⟨before, connectsBefore, rfl⟩, ran, idly, observed⟩
  cases connectsBefore
  refine ⟨actions, ran, observed, ?_⟩
  intro holds
  exact idly.mono fun _ _ connectsIdle => connectsIdle holds

/-- The detailed consumer refines the simpler one.  Every run against a server
that delivers the log from the cursor of the request on ends in a state that
stands for some connection, and for each connection that it stands for, the
simpler consumer has a run with the same steps of the worker and the same
restarts that ends in the same store, tracker, channel and buffer. -/
theorem run_refines (serde : SerdeJson) (decode : String → Except String RawJetstreamMessage)
    (config : ReaderConfig) (log : List JetstreamEvent) (store : RecordStore)
    (steps : List LiveStep) (live : Live)
    (reached : Transition.run (next serde decode config) (boot config store) steps = some live)
    (served : Along (next serde decode config) (Serves decode log) (boot config store) steps) :
    (∃ connection, live.Connects decode config log connection) ∧
      ∀ connection, live.Connects decode config log connection → ∃ actions,
        Transition.run (System.next serde config.ingester log)
            (System.booted config.ingester store) actions = some (live.system connection) ∧
          actions.flatMap System.Action.byWorker = steps.flatMap LiveStep.byWorker := by
  constructor
  · have start : (boot config store).SendsWanted config :=
      sendsWanted_of_place (rfl : _ = Place.top) nofun
    exact exists_connects decode log
      (Transition.invariant_of_run (sendsWanted_next serde decode config) start reached)
  · intro connection connects
    have unguarded : False →
        Along (next serde decode config) AttemptsIdle (boot config store) steps := nofun
    rcases exists_run reached served unguarded connects with ⟨actions, ran, observed, _⟩
    exact ⟨actions, ran, observed⟩

end Live

/-- SQLite does not fail the step. -/
def LiveStep.FaultFree : LiveStep → Prop
  | .worker step => step.FaultFree
  | _ => True

namespace Live

variable {decode : String → Except String RawJetstreamMessage} {config : ReaderConfig}
  {log : List JetstreamEvent}

theorem faultFree_of_byWorker {actions : List System.Action} {steps : List LiveStep}
    (observed : actions.flatMap System.Action.byWorker = steps.flatMap LiveStep.byWorker)
    (faultFree : ∀ step ∈ steps, step.FaultFree) : ∀ action ∈ actions, action.FaultFree := by
  intro action mem
  have shown : ∀ visible ∈ action.byWorker, visible.FaultFree := by
    intro visible visibleMem
    have inSteps : visible ∈ steps.flatMap LiveStep.byWorker := by
      rw [← observed]
      exact List.mem_flatMap.mpr ⟨action, mem, visibleMem⟩
    rcases List.mem_flatMap.mp inSteps with ⟨step, stepMem, visibleStep⟩
    have free := faultFree step stepMem
    cases step with
    | worker step =>
        rw [List.mem_singleton.mp visibleStep]
        exact free
    | restart =>
        rw [List.mem_singleton.mp visibleStep]
        trivial
    | reader step => cases visibleStep
    | cancel => cases visibleStep
    | dropReceiver => cases visibleStep
  cases action with
  | task step =>
      cases step with
      | read => trivial
      | take count => trivial
      | write sqlite => exact shown _ (List.mem_singleton_self _)
      | flush sqlite => exact shown _ (List.mem_singleton_self _)
      | track => trivial
      | persist sqlite => exact shown _ (List.mem_singleton_self _)
  | connect position => trivial
  | disconnect => trivial
  | restart => trivial

/-- However often connections fail, in whichever way, and the process dies: when
the reader has handled all that a connection delivers and the worker has nothing
left to do, the table is that of one pass over the wanted commits from the
persisted cursor on.  This takes a server that delivers in order, a SQLite that
does not fail, and either no two commits on one URI with one timestamp or
attempts only while the worker is idle. -/
theorem records_of_run (serde : SerdeJson) {store : RecordStore} {cursor : U64}
    (unset : config.ingester.initialCursor = none)
    (stored : store.getCursor = .ok (some cursor)) (positive : 0 < cursor)
    (inOrder : log.Pairwise fun first second => first.timeUs ≤ second.timeUs)
    {steps : List LiveStep} {live : Live} (faultFree : ∀ step ∈ steps, step.FaultFree)
    (reached : Transition.run (next serde decode config) (boot config store) steps = some live)
    (served : Along (next serde decode config) (Serves decode log) (boot config store) steps)
    (orderly : Unambiguous (wantedFrom config.ingester cursor log) ∨
      Along (next serde decode config) AttemptsIdle (boot config store) steps)
    (place : live.reader.place = .connected)
    (handled : live.inbox.filterMap (WsMessage.event decode) = [])
    (empty : live.buffer ++ live.channel = []) :
    live.worker.store.records =
      (wantedFrom config.ingester cursor log).foldl (applyCommit serde)
        store.records := by
  have wantedInOrder : InOrder (wantedFrom config.ingester cursor log) :=
    inOrder_wantedFrom inOrder
  have connects : live.Connects decode config log (some []) := by
    rw [Connects, place, handled]
  rcases orderly with unambiguous | idle
  · have unguarded : False →
        Along (next serde decode config) AttemptsIdle (boot config store) steps := nofun
    rcases exists_run reached served unguarded connects with ⟨actions, ran, observed, _⟩
    let redelivery := Replay.Redelivery.settled (settles_applyCommit serde store.records
      wantedInOrder unambiguous)
    apply System.records_of_consumed redelivery unset stored positive inOrder
      (faultFree_of_byWorker observed faultFree) _ ran rfl empty
    intro absurd
    cases absurd
  · rcases exists_run reached served (fun _ : True => idle) connects with
      ⟨actions, ran, observed, idly⟩
    let redelivery := Replay.Redelivery.retraced (retraces_applyCommit serde store.records
      wantedInOrder)
    exact System.records_of_consumed redelivery unset stored positive inOrder
      (faultFree_of_byWorker observed faultFree) (fun _ => idly trivial) ran rfl empty

/-! ## A post -/

/-- The frame of a post. -/
def postText : String := postFrame "app.bsky.feed.post"

/-- The post. -/
def post : JetstreamCommit := parsedPost "app.bsky.feed.post"

theorem parse_postText :
    parseJetstreamFrame (decodePost "app.bsky.feed.post") 0 postText = some (.commit post) :=
  parseJetstreamFrame_postFrame (by decide) rfl

/-- Connect and be sent the frame. -/
def connectSteps : List LiveStep :=
  [.reader .attempt, .reader (.established [.text postText] 0)]

/-- The connection fails before the frame is handled and the process dies. -/
def crashSteps : List LiveStep := [.reader .failed, .restart]

/-- Handle the frame and store the post. -/
def handleSteps : List LiveStep :=
  [.reader (.receive (.text postText) 1 (.sinceEpoch ⟨1790906400, 0⟩) 0), .reader .send,
    .worker (.take 1), .worker (.write none)]

/-- The consumer before it handles the frame. -/
def beforePost : Live :=
  { boot plainReader (System.storeAt 1) with
    reader := { (Reader.start plainReader) with place := .connected }
    inbox := [.text postText] }

theorem receive_postText :
    next .scalars (decodePost "app.bsky.feed.post") plainReader beforePost
        (.reader (.receive (.text postText) 1 (.sinceEpoch ⟨1790906400, 0⟩) 0)) =
      some
        { beforePost with
          inbox := []
          reader :=
            { ((beforePost.reader.note 1 (.sinceEpoch ⟨1790906400, 0⟩)).count
                postText.utf8ByteSize) with
              place := .sending post
              backoff := beforePost.reader.backoff.reset } } := by
  have here : beforePost.reader.place = .connected := rfl
  have inbox : beforePost.inbox = [.text postText] := rfl
  have wants : plainReader.ingester.wants post = true := rfl
  simp only [next, readerStep, here, inbox, if_true, handleMessage, parse_postText, handleEvent,
    wants]
  rfl

theorem worker_boot :
    (boot plainReader (System.storeAt 1)).worker.store = System.storeAt 1 ∧
      (boot plainReader (System.storeAt 1)).worker.cursor.getOpt = some 1 := by
  have unset : plainReader.ingester.initialCursor = none := rfl
  rcases System.worker_booted unset (System.getCursor_storeAt 1) with ⟨store_eq, watermark_eq⟩
  refine ⟨store_eq, ?_⟩
  have watermark : (boot plainReader (System.storeAt 1)).worker.cursor.watermark = 1 :=
    watermark_eq
  rw [CursorTracker.getOpt, CursorTracker.get, watermark]
  rfl

theorem run_connectSteps :
    Transition.run (next .scalars (decodePost "app.bsky.feed.post") plainReader)
        (boot plainReader (System.storeAt 1)) connectSteps = some beforePost :=
  rfl

theorem served_connectSteps :
    Along (next .scalars (decodePost "app.bsky.feed.post") plainReader)
      (Serves (decodePost "app.bsky.feed.post") [.commit post])
      (boot plainReader (System.storeAt 1)) connectSteps := by
  refine ⟨trivial, ?_⟩
  rintro _ ⟨⟩
  refine ⟨?_, fun _ _ => trivial⟩
  intro cursor connecting
  have cursor_eq : cursor = some 1 := (Place.connecting.inj connecting).symm.trans worker_boot.2
  have event : WsMessage.event (decodePost "app.bsky.feed.post") (.text postText) =
      some (.commit post) := parse_postText
  have kept : [JetstreamEvent.commit post].filter (fun event => decide ((1 : U64) ≤ event.timeUs)) =
      [.commit post] :=
    List.filter_cons_of_pos (by decide)
  subst cursor_eq
  refine ⟨0, ?_⟩
  rw [List.filterMap_cons_some event, List.filterMap_nil, System.replayFrom]
  exact kept.symm

theorem run_crashSteps :
    Transition.run (next .scalars (decodePost "app.bsky.feed.post") plainReader) beforePost
        crashSteps = some (boot plainReader (System.storeAt 1)) := by
  have crashed : Transition.run (next .scalars (decodePost "app.bsky.feed.post") plainReader)
      beforePost crashSteps =
        some (boot plainReader (boot plainReader (System.storeAt 1)).worker.store) := rfl
  rw [crashed, worker_boot.1]

/-- A lost connection, a crash, and the post. -/
def postSteps : List LiveStep := connectSteps ++ (crashSteps ++ (connectSteps ++ handleSteps))

theorem run_handleSteps :
    ∃ live, Transition.run (next .scalars (decodePost "app.bsky.feed.post") plainReader) beforePost
        handleSteps = some live ∧
      live.reader.place = .connected ∧ live.inbox = [] ∧ live.buffer ++ live.channel = [] := by
  have receive {target : Live} (rest : Transition.run (next .scalars
      (decodePost "app.bsky.feed.post") plainReader) _ handleSteps.tail = some target) :=
    (Transition.run_cons_eq_some_iff beforePost target _ handleSteps.tail).mpr
      ⟨_, receive_postText, rest⟩
  exact ⟨_, receive rfl, rfl, rfl, rfl⟩

theorem run_postSteps :
    ∃ live, Transition.run (next .scalars (decodePost "app.bsky.feed.post") plainReader)
        (boot plainReader (System.storeAt 1)) postSteps = some live ∧
      live.reader.place = .connected ∧ live.inbox = [] ∧ live.buffer ++ live.channel = [] := by
  rcases run_handleSteps with ⟨live, ran, final⟩
  refine ⟨live, ?_, final⟩
  exact Transition.run_append_of_eq_some run_connectSteps
    (Transition.run_append_of_eq_some run_crashSteps
      (Transition.run_append_of_eq_some run_connectSteps ran))

theorem served_handleSteps :
    Along (next .scalars (decodePost "app.bsky.feed.post") plainReader)
      (Serves (decodePost "app.bsky.feed.post") [.commit post]) beforePost handleSteps := by
  have timely : beforePost.Serves (decodePost "app.bsky.feed.post") [.commit post]
      (.reader (.receive (.text postText) 1 (.sinceEpoch ⟨1790906400, 0⟩) 0)) :=
    Eq.refl (parseJetstreamFrame (decodePost "app.bsky.feed.post") 0 postText)
  apply Transition.along_cons_of_step timely receive_postText
  refine ⟨trivial, ?_⟩
  intro _ _
  refine ⟨trivial, ?_⟩
  intro _ _
  exact ⟨trivial, fun _ _ => trivial⟩

theorem served_postSteps :
    Along (next .scalars (decodePost "app.bsky.feed.post") plainReader)
      (Serves (decodePost "app.bsky.feed.post") [.commit post])
      (boot plainReader (System.storeAt 1)) postSteps := by
  have crashed : Along (next .scalars (decodePost "app.bsky.feed.post") plainReader)
      (Serves (decodePost "app.bsky.feed.post") [.commit post]) beforePost crashSteps := by
    refine ⟨trivial, ?_⟩
    intro _ _
    exact ⟨trivial, fun _ _ => trivial⟩
  exact Transition.along_append served_connectSteps run_connectSteps
    (Transition.along_append crashed run_crashSteps
      (Transition.along_append served_connectSteps run_connectSteps served_handleSteps))

/-- The simpler consumer loses the connection, crashes and stores the post, too. -/
theorem run_refines_post :
    ∃ live, Transition.run (next .scalars (decodePost "app.bsky.feed.post") plainReader)
        (boot plainReader (System.storeAt 1)) postSteps = some live ∧
      ∃ actions, Transition.run (System.next .scalars plainReader.ingester [.commit post])
          (System.booted plainReader.ingester (System.storeAt 1)) actions =
            some (live.system (some [])) ∧
        actions.flatMap System.Action.byWorker = postSteps.flatMap LiveStep.byWorker := by
  rcases run_postSteps with ⟨live, ran, place, inbox, _⟩
  have connects : live.Connects (decodePost "app.bsky.feed.post") plainReader [.commit post]
      (some []) := by
    rw [Connects, place, inbox]
    rfl
  exact ⟨live, ran, (run_refines .scalars (decodePost "app.bsky.feed.post") plainReader
    [.commit post] (System.storeAt 1) postSteps live ran served_postSteps).2 (some []) connects⟩

theorem unambiguous_post : Unambiguous (wantedFrom plainReader.ingester 1 [.commit post]) := by
  have wanted : plainReader.ingester.wanted (.commit post) = some post := rfl
  have once : wantedFrom plainReader.ingester 1 [.commit post] = [post] :=
    wantedFrom_cons_of_wanted wanted (by decide)
  rw [once]
  exact unambiguous_singleton post

/-- The post is stored as by one pass. -/
theorem records_of_run_post :
    ∃ live, Transition.run (next .scalars (decodePost "app.bsky.feed.post") plainReader)
        (boot plainReader (System.storeAt 1)) postSteps = some live ∧
      live.worker.store.records =
        (wantedFrom plainReader.ingester 1 [.commit post]).foldl (applyCommit .scalars)
          (System.storeAt 1).records := by
  have faultFree : ∀ step ∈ postSteps, step.FaultFree := by
    simp [postSteps, connectSteps, crashSteps, handleSteps, LiveStep.FaultFree,
      TaskStep.FaultFree]
  rcases run_postSteps with ⟨live, ran, place, inbox, empty⟩
  refine ⟨live, ran, ?_⟩
  apply records_of_run .scalars rfl (System.getCursor_storeAt 1) (by decide) _ faultFree ran
    served_postSteps (Or.inl unambiguous_post) place _ empty
  · exact List.pairwise_singleton _ _
  · rw [inbox]
    rfl

end Live

end Skybase.Ingest
