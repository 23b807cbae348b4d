import Skybase.Feed.Channel
import Skybase.Index.LiveQuery

/-!
# Subscribers that lag

The bus keeps the last notifications only: as many as its capacity, rounded up
to a power of two.  A subscriber that falls behind is told how many it has
missed.  It then runs its query again, whenever it gets to it, and goes on with
the notifications that are kept.  Some of these are older than the answer to the
query and are applied to it once more.
-/

namespace Skybase.Index

open Skybase.Feed
open Skybase.Json

/-- What happens: a call on the store, or a step of the subscriber, which
receives from the bus or runs its query. -/
inductive Action where
  | call (call : RecordCall)
  | recv
  | refresh

namespace Action

/-- The calls among the actions. -/
def calls : List Action → List RecordCall
  | [] => []
  | call given :: actions => given :: calls actions
  | recv :: actions => calls actions
  | refresh :: actions => calls actions

theorem calls_append (first second : List Action) :
    calls (first ++ second) = calls first ++ calls second := by
  induction first with
  | nil => rfl
  | cons action first ih =>
      cases action with
      | call given => exact congrArg (given :: ·) ih
      | recv => exact ih
      | refresh => exact ih

end Action

/-- A store with a subscriber: its position, its copy, whether it has to run its
query again, and how many notifications it has received and missed. -/
structure Subscription where
  store : RecordStore
  next : Nat
  copy : Mirror
  stale : Bool
  received : Nat
  skipped : Nat

namespace Subscription

/-- `RecordStore::subscribe`, before the first query. -/
def subscribe (store : RecordStore) : Subscription where
  store := store
  next := store.bus.published.length
  copy := fun _ => none
  stale := true
  received := 0
  skipped := 0

/-- The copy of the rows of a query. -/
def copyOf (rows : List RecordRow) : Mirror := fun uri => rows.find? fun row => row.uri == uri

variable (serde : SerdeJson) (sqlite : Sqlite) (query : LiveQuery) (retained : Nat)

/-- What an action does.  Where the query fails, the subscriber keeps what it
has. -/
def step (state : Subscription) : Action → Subscription
  | .call call => { state with store := call.execute serde state.store }
  | .recv =>
      match recv retained state.store.bus.published state.next with
      | (.message notification, next) =>
          { state with
            next := next
            copy := state.copy.receive ([notification].filter query.takes)
            received := state.received + 1 }
      | (.lagged skipped, next) =>
          { state with next := next, stale := true, skipped := state.skipped + skipped }
      | (.empty, next) => { state with next := next }
  | .refresh =>
      match query.builder.execute serde sqlite state.store with
      | .ok rows => { state with copy := copyOf rows, stale := false }
      | .error _ => state

/-- What actions do, one after the other. -/
def run (state : Subscription) (actions : List Action) : Subscription :=
  actions.foldl (step serde sqlite query retained) state

/-- The copy holds the records that the query returns. -/
def Exact (state : Subscription) : Prop :=
  ∃ rows, query.builder.execute serde sqlite state.store = .ok rows ∧
    ∀ uri record, record ∈ rows ∧ record.uri = uri ↔ state.copy uri = some record

/-- The subscriber receives, runs its query, and receives what is kept. -/
def settle : List Action := [.recv, .refresh] ++ List.replicate retained .recv

/-- The state of a subscriber after calls: every notification since the
subscription was received, was counted as missed or is still to come; and with
what is still to come, the copy is that of a subscriber which has missed none. -/
structure Sound (start : Nat) (calls : List RecordCall) (state : Subscription) : Prop where
  store_eq : state.store = runRecordCalls serde RecordStore.empty calls
  next_le : state.next ≤ state.store.bus.published.length
  account : start + state.received + state.skipped = state.next
  copy_eq : state.stale = false →
    state.copy.receive ((state.store.bus.published.drop state.next).filter query.takes) =
      query.mirror state.store

/-! ## Copies of rows -/

theorem mem_of_copyOf {rows : List RecordRow} {uri : String} {record : RecordRow}
    (found : copyOf rows uri = some record) : record ∈ rows ∧ record.uri = uri := by
  unfold copyOf at found
  have about := List.find?_some found
  exact ⟨List.mem_of_find?_eq_some found, beq_iff_eq.mp about⟩

theorem copyOf_eq_some_iff {rows : List RecordRow} {view : Mirror}
    (returned : ∀ uri record, record ∈ rows ∧ record.uri = uri ↔ view uri = some record)
    (uri : String) (record : RecordRow) :
    copyOf rows uri = some record ↔ view uri = some record := by
  constructor
  · intro found
    exact (returned uri record).mp (mem_of_copyOf found)
  · intro held
    rcases (returned uri record).mpr held with ⟨mem, about⟩
    cases found : copyOf rows uri with
    | none =>
        have absent := List.find?_eq_none.mp found record mem
        exact absurd (beq_iff_eq.mpr about) absent
    | some other =>
        have otherHeld := (returned uri other).mp (mem_of_copyOf found)
        exact otherHeld.symm.trans held

theorem copyOf_eq {rows : List RecordRow} {view : Mirror}
    (returned : ∀ uri record, record ∈ rows ∧ record.uri = uri ↔ view uri = some record) :
    copyOf rows = view := by
  funext uri
  apply Option.ext
  exact copyOf_eq_some_iff returned uri

/-! ## Steps -/

section Steps

variable {serde : SerdeJson} {sqlite : Sqlite} {query : LiveQuery} {retained start : Nat}
  {calls : List RecordCall} {state : Subscription}

theorem sound_subscribe (serde : SerdeJson) (query : LiveQuery) (calls : List RecordCall) :
    Sound serde query (runRecordCalls serde RecordStore.empty calls).bus.published.length calls
      (subscribe (runRecordCalls serde RecordStore.empty calls)) where
  store_eq := rfl
  next_le := le_rfl
  account := rfl
  copy_eq := by
    intro fresh
    cases fresh

theorem receive_filter_append (copy : Mirror) (first second : List ChangeNotification) :
    copy.receive ((first ++ second).filter query.takes) =
      (copy.receive (first.filter query.takes)).receive (second.filter query.takes) := by
  rw [List.filter_append]
  exact Feed.receive_append ChangeNotification.change _ _ _

/-- What a call announces is still to come. -/
theorem sound_call (sound : Sound serde query start calls state) (call : RecordCall) :
    Sound serde query start (calls ++ [call])
      { state with store := call.execute serde state.store } where
  store_eq := by rw [runRecordCalls_concat, ← sound.store_eq]
  next_le := by
    rw [published_execute, List.length_append]
    exact sound.next_le.trans (Nat.le_add_right _ _)
  account := sound.account
  copy_eq := by
    intro fresh
    rw [published_execute, List.drop_append_of_le_length sound.next_le, receive_filter_append,
      sound.copy_eq fresh, LiveQuery.mirror_execute]

/-- What is received is no longer to come. -/
theorem sound_recv (sound : Sound serde query start calls state) :
    Sound serde query start calls (step serde sqlite query retained state .recv) := by
  rcases recv_cases retained sound.next_le with
    ⟨lags, given⟩ | ⟨notification, _, before, rest_eq, given⟩ | ⟨caught, given⟩
  · rw [step, given]
    exact {
      store_eq := sound.store_eq
      next_le := oldest_le retained state.store.bus.published
      account := by
        have account := sound.account
        dsimp only
        omega
      copy_eq := by
        intro fresh
        cases fresh }
  · rw [step, given]
    exact {
      store_eq := sound.store_eq
      next_le := before
      account := by
        have account := sound.account
        dsimp only
        omega
      copy_eq := by
        intro fresh
        have copy_eq := sound.copy_eq fresh
        rw [rest_eq, ← List.singleton_append, receive_filter_append] at copy_eq
        exact copy_eq }
  · rw [step, given]
    exact { sound with }

/-- What the subscriber relies on: the query answers with the records that it
selects, and no call has moved a record out of it. -/
structure Answers (serde : SerdeJson) (sqlite : Sqlite) (query : LiveQuery)
    (store : RecordStore) : Prop where
  follows : query.Follows store
  execute_eq : ∃ rows, query.builder.execute serde sqlite store = .ok rows ∧
    ∀ uri record, record ∈ rows ∧ record.uri = uri ↔
      select query.keepsRecord store.mirror uri = some record

/-- The answer of the query is the copy of a subscriber that has missed none. -/
theorem Answers.returned {store : RecordStore} (answers : Answers serde sqlite query store) :
    ∃ rows, query.builder.execute serde sqlite store = .ok rows ∧
      ∀ uri record, record ∈ rows ∧ record.uri = uri ↔ query.mirror store uri = some record := by
  rcases answers.execute_eq with ⟨rows, executed, returned⟩
  refine ⟨rows, executed, ?_⟩
  rw [show query.mirror store = _ from answers.follows]
  exact returned

/-- What is kept may be older than the answer; it changes nothing. -/
theorem sound_refresh (answers : Answers serde sqlite query state.store)
    (sound : Sound serde query start calls state) :
    Sound serde query start calls (step serde sqlite query retained state .refresh) := by
  rcases answers.returned with ⟨rows, executed, returned⟩
  rw [step, executed]
  exact {
    store_eq := sound.store_eq
    next_le := sound.next_le
    account := sound.account
    copy_eq := by
      intro _
      have published := List.take_append_drop state.next state.store.bus.published
      have whole : query.mirror state.store =
          Feed.receive ChangeNotification.change (fun _ => none)
            ((state.store.bus.published.take state.next).filter query.takes ++
              (state.store.bus.published.drop state.next).filter query.takes) := by
        rw [← List.filter_append, published]
        rfl
      change Feed.receive ChangeNotification.change (copyOf rows) _ = query.mirror state.store
      rw [copyOf_eq returned, whole, receive_suffix] }

theorem stale_refresh (answers : Answers serde sqlite query state.store) :
    (step serde sqlite query retained state .refresh).stale = false := by
  rcases answers.returned with ⟨rows, executed, _⟩
  rw [step, executed]

/-- A subscriber that has received what was published is exact, unless it has to
run its query. -/
theorem Sound.exact (answers : Answers serde sqlite query state.store)
    (sound : Sound serde query start calls state) (fresh : state.stale = false)
    (caught : state.next = state.store.bus.published.length) :
    Exact serde sqlite query state := by
  have copy_eq : state.copy = query.mirror state.store := by
    have whole := sound.copy_eq fresh
    rw [caught, List.drop_length] at whole
    exact whole
  rw [Exact, copy_eq]
  exact answers.returned

end Steps

/-! ## Runs -/

section Runs

variable {serde : SerdeJson} {sqlite : Sqlite} {query : LiveQuery} {retained start : Nat}

theorem sound_run {actions : List Action} :
    ∀ {calls : List RecordCall} {state : Subscription}, Sound serde query start calls state →
      (∀ before after, calls ++ Action.calls actions = before ++ after →
        Answers serde sqlite query (runRecordCalls serde RecordStore.empty before)) →
      Sound serde query start (calls ++ Action.calls actions)
        (run serde sqlite query retained state actions) := by
  induction actions with
  | nil =>
      intro calls state sound _
      rw [Action.calls, List.append_nil]
      exact sound
  | cons action actions ih =>
      intro calls state sound answers
      cases action with
      | call given =>
          have assoc : calls ++ given :: Action.calls actions =
              (calls ++ [given]) ++ Action.calls actions := by
            rw [List.append_assoc, List.singleton_append]
          rw [Action.calls, assoc] at answers ⊢
          exact ih (sound_call sound given) answers
      | recv => exact ih (sound_recv sound) answers
      | refresh =>
          have here := answers calls _ rfl
          rw [← sound.store_eq] at here
          exact ih (sound_refresh here sound) answers

theorem run_append (state : Subscription) (first second : List Action) :
    run serde sqlite query retained state (first ++ second) =
      run serde sqlite query retained (run serde sqlite query retained state first) second :=
  List.foldl_append

theorem store_recv (state : Subscription) :
    (step serde sqlite query retained state .recv).store = state.store := by
  rw [step]
  split <;> rfl

theorem store_refresh (state : Subscription) :
    (step serde sqlite query retained state .refresh).store = state.store := by
  rw [step]
  split <;> rfl

theorem next_refresh (state : Subscription) :
    (step serde sqlite query retained state .refresh).next = state.next := by
  rw [step]
  split <;> rfl

/-- After one step nothing that is kept no longer lies before the subscriber. -/
theorem oldest_le_next_recv {state : Subscription}
    (within : state.next ≤ state.store.bus.published.length) :
    oldest retained state.store.bus.published ≤
      (step serde sqlite query retained state .recv).next := by
  rcases recv_cases retained within with
    ⟨_, given⟩ | ⟨notification, kept, _, _, given⟩ | ⟨caught, given⟩
  · rw [step, given]
  · rw [step, given]
    exact Nat.le_succ_of_le kept
  · rw [step, given, caught]
    exact oldest_le retained _

/-- A subscriber before which nothing was forgotten takes a notification, if
there is one. -/
theorem recv_kept {state : Subscription} (within : state.next ≤ state.store.bus.published.length)
    (kept : oldest retained state.store.bus.published ≤ state.next) :
    (step serde sqlite query retained state .recv).stale = state.stale ∧
      (step serde sqlite query retained state .recv).next =
        min (state.next + 1) state.store.bus.published.length := by
  rcases recv_cases retained within with
    ⟨lags, _⟩ | ⟨notification, _, before, _, given⟩ | ⟨caught, given⟩
  · exact absurd kept (not_le.mpr lags)
  · rw [step, given]
    exact ⟨rfl, (min_eq_left before).symm⟩
  · rw [step, given]
    exact ⟨rfl, by rw [caught]; exact (min_eq_right (Nat.le_succ _)).symm⟩

/-- A subscriber that is given enough steps receives all that is kept. -/
theorem caught_up {steps : Nat} :
    ∀ {state : Subscription}, state.next ≤ state.store.bus.published.length →
      oldest retained state.store.bus.published ≤ state.next →
      state.store.bus.published.length ≤ state.next + steps →
        (run serde sqlite query retained state (List.replicate steps .recv)).store = state.store ∧
          (run serde sqlite query retained state (List.replicate steps .recv)).stale =
            state.stale ∧
          (run serde sqlite query retained state (List.replicate steps .recv)).next =
            state.store.bus.published.length := by
  induction steps with
  | zero =>
      intro state within _ enough
      exact ⟨rfl, rfl, le_antisymm within enough⟩
  | succ steps ih =>
      intro state within kept enough
      have stored : (step serde sqlite query retained state .recv).store = state.store :=
        store_recv state
      rcases recv_kept within kept with ⟨stale_eq, next_eq⟩
      have rest := @ih (step serde sqlite query retained state .recv)
        (by rw [stored, next_eq]; exact min_le_right _ _)
        (by rw [stored, next_eq]; exact le_min (Nat.le_succ_of_le kept) (oldest_le retained _))
        (by rw [stored, next_eq]; omega)
      rw [stored, stale_eq] at rest
      exact rest

theorem calls_settle (retained : Nat) : Action.calls (settle retained) = [] := by
  rw [settle, Action.calls_append]
  induction retained with
  | zero => rfl
  | succ retained ih => exact ih

theorem run_settle_eq (state : Subscription) :
    run serde sqlite query retained state (settle retained) =
      run serde sqlite query retained
        (step serde sqlite query retained (step serde sqlite query retained state .recv) .refresh)
        (List.replicate retained .recv) :=
  rfl

/-- A subscriber that settles has received everything and has run its query. -/
theorem run_settle {calls : List RecordCall} {state : Subscription}
    (answers : Answers serde sqlite query state.store)
    (sound : Sound serde query start calls state) :
    (run serde sqlite query retained state (settle retained)).store = state.store ∧
      (run serde sqlite query retained state (settle retained)).stale = false ∧
      (run serde sqlite query retained state (settle retained)).next =
        state.store.bus.published.length := by
  rw [run_settle_eq]
  have firstStore : (step serde sqlite query retained state .recv).store = state.store :=
    store_recv state
  have firstSound : Sound serde query start calls (step serde sqlite query retained state .recv) :=
    sound_recv sound
  have kept : oldest retained state.store.bus.published ≤
      (step serde sqlite query retained state .recv).next := oldest_le_next_recv sound.next_le
  generalize step serde sqlite query retained state .recv = first at firstStore firstSound kept
  have firstAnswers : Answers serde sqlite query first.store := by
    rw [firstStore]
    exact answers
  have store_eq : (step serde sqlite query retained first .refresh).store = state.store :=
    (store_refresh first).trans firstStore
  have fresh : (step serde sqlite query retained first .refresh).stale = false :=
    stale_refresh firstAnswers
  have next_eq : (step serde sqlite query retained first .refresh).next = first.next :=
    next_refresh first
  generalize step serde sqlite query retained first .refresh = second at store_eq fresh next_eq
  have within := firstSound.next_le
  rw [firstStore, ← next_eq, ← store_eq] at within
  rw [← next_eq, ← store_eq] at kept
  have enough : second.store.bus.published.length ≤ second.next + retained := by
    unfold oldest at kept
    omega
  have caught := @caught_up serde sqlite query retained retained second within kept enough
  rw [fresh, store_eq] at caught
  exact caught

end Runs

/-- Subscribers that lag find back.  A subscriber may subscribe at any time and
receive and run its query whenever it gets to it, while calls go on.  Every
notification since its subscription was received, was counted as missed or is
still to come; whenever it has received what was published, and has run its
query since it last lagged, it holds exactly the records that the query returns;
and once the calls pause, one receipt, one query and as many receipts as the bus
keeps notifications bring it there. -/
theorem exact_of_run {serde : SerdeJson} {sqlite : Sqlite} (delivers : Delivers sqlite)
    (query : LiveQuery) (retained : Nat) (before : List RecordCall) (actions : List Action)
    (reads : ∀ answer input, .client (.upsertRecord answer input) ∈ before ++ Action.calls actions →
      serde.ReadsBack input.recordJson)
    (stays : ∀ first call rest, before ++ Action.calls actions = first ++ call :: rest →
      ¬ query.MovesOut (runRecordCalls serde RecordStore.empty first).records call) :
    let start := subscribe (runRecordCalls serde RecordStore.empty before)
    let state := run serde sqlite query retained start actions
    state.store = runRecordCalls serde RecordStore.empty (before ++ Action.calls actions) ∧
      start.next + state.received + state.skipped = state.next ∧
      state.next ≤ state.store.bus.published.length ∧
      (state.stale = false → state.next = state.store.bus.published.length →
        Exact serde sqlite query state) ∧
      (run serde sqlite query retained state (settle retained)).store = state.store ∧
      Exact serde sqlite query (run serde sqlite query retained state (settle retained)) := by
  have answers : ∀ first rest, before ++ Action.calls actions = first ++ rest →
      Answers serde sqlite query (runRecordCalls serde RecordStore.empty first) := by
    intro first rest split
    have readable : ∀ answer input, .client (.upsertRecord answer input) ∈ first →
        serde.ReadsBack input.recordJson := by
      intro answer input mem
      exact reads answer input (by rw [split]; exact List.mem_append_left _ mem)
    exact {
      follows := (LiveQuery.follows_run_iff query serde _).mpr stays first rest split
      execute_eq :=
        LiveQuery.execute_eq_select delivers (mirrored_run serde first) readable query }
  intro start state
  have sound : Sound serde query start.next (before ++ Action.calls actions) state :=
    sound_run (sound_subscribe serde query before) answers
  have here : Answers serde sqlite query state.store := by
    rw [sound.store_eq]
    exact answers _ [] (List.append_nil _).symm
  have settled : Sound serde query start.next (before ++ Action.calls actions)
      (run serde sqlite query retained state (settle retained)) := by
    have whole : Sound serde query start.next (before ++ Action.calls (actions ++ settle retained))
        (run serde sqlite query retained start (actions ++ settle retained)) := by
      apply sound_run (sound_subscribe serde query before)
      rw [Action.calls_append, calls_settle, List.append_nil]
      exact answers
    rw [Action.calls_append, calls_settle, List.append_nil, run_append] at whole
    exact whole
  rcases run_settle here sound with ⟨store_eq, fresh, caught⟩
  refine ⟨sound.store_eq, sound.account, sound.next_le, sound.exact here, store_eq, ?_⟩
  apply settled.exact _ fresh
  · rw [caught, store_eq]
  · rw [store_eq]
    exact here

/-- A post is written and deleted while the subscriber looks away. -/
def unread : List Action :=
  [.call (.client (.upsertRecord none (alicePost 1))),
    .call (.client (.softDeleteRecord none (alicePost 1).uri 2))]

/-- On a bus that keeps one notification, the subscriber misses the other. -/
theorem exact_of_run_unread :
    Exact .scalars scan LiveQuery.posts
      (run .scalars scan LiveQuery.posts 1
        (run .scalars scan LiveQuery.posts 1
          (subscribe (runRecordCalls .scalars RecordStore.empty [])) unread) (settle 1)) := by
  have onlyAlice : ∀ answer input,
      RecordCall.client (.upsertRecord answer input) ∈ [] ++ Action.calls unread →
        input = alicePost 1 := by
    intro answer input mem
    simp only [unread, Action.calls, List.nil_append, List.mem_cons, RecordCall.client.injEq,
      ClientCall.upsertRecord.injEq, List.not_mem_nil, or_false, reduceCtorEq] at mem
    exact mem.2
  have readable : ∀ answer input,
      RecordCall.client (.upsertRecord answer input) ∈ [] ++ Action.calls unread →
        SerdeJson.scalars.ReadsBack input.recordJson := by
    intro answer input mem
    rw [onlyAlice answer input mem]
    rfl
  apply (exact_of_run scan_delivers LiveQuery.posts 1 [] unread readable ?_).2.2.2.2.2
  intro first call rest split
  apply LiveQuery.not_movesOut_of_keyed
  rintro earlier later answer other mem rfl _
  have firstMem : RecordCall.client (.upsertRecord answer earlier) ∈ [] ++ Action.calls unread := by
    rw [split]
    exact List.mem_append_left _ mem
  have laterMem : RecordCall.client (.upsertRecord other later) ∈ [] ++ Action.calls unread := by
    rw [split]
    exact List.mem_append_right _ List.mem_cons_self
  rw [onlyAlice answer earlier firstMem, onlyAlice other later laterMem]
  exact ⟨rfl, rfl⟩

end Subscription

end Skybase.Index
