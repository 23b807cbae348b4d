import Skybase.Index.Calls
import Skybase.Transition.Core

/-!
# Concurrent clients and the order of publication

Clients share one store.  A call runs its statement under the connection lock
and, where the statement changed a row, publishes after the lock is released.
Other clients can run whole calls in between, so nothing ties the order of the
publications to the order of the statements.  The two orders agree on every
URI along the runs in which a client publishes only when no other client still
holds an older notification for the same URI; a subscriber then follows the
live view.
-/

namespace Skybase.Index

open Skybase.Feed
open Skybase.Json
open Skybase.Transition (Step Along)

universe u

/-- A call of a client that changes at most one row. -/
inductive ClientCall where
  | upsertRecord (sqlite : SqliteAnswer) (input : RecordInput)
  | softDeleteRecord (sqlite : SqliteAnswer) (uri : String) (indexedAt : U64)
  | hardDeleteRecord (sqlite : SqliteAnswer) (uri : String)

namespace ClientCall

/-- The part of the call under the connection lock. -/
def statement (serde : SerdeJson) :
    ClientCall → Records → Except SkybaseError (Option ChangeNotification) × Records
  | .upsertRecord sqlite input => upsertStatement serde sqlite input
  | .softDeleteRecord sqlite uri indexedAt => softDeleteStatement sqlite uri indexedAt
  | .hardDeleteRecord sqlite uri => hardDeleteStatement sqlite uri

/-- The whole call. -/
def execute (serde : SerdeJson) (store : RecordStore) : ClientCall → RecordStore
  | .upsertRecord sqlite input => (store.upsertRecord serde sqlite input).2
  | .softDeleteRecord sqlite uri indexedAt => (store.softDeleteRecord sqlite uri indexedAt).2
  | .hardDeleteRecord sqlite uri => (store.hardDeleteRecord sqlite uri).2

/-- The URI a call is about. -/
def uri : ClientCall → String
  | .upsertRecord _ input => input.uri
  | .softDeleteRecord _ uri _ => uri
  | .hardDeleteRecord _ uri => uri

/-- The statement of a call announces its effect. -/
theorem announces (serde : SerdeJson) (call : ClientCall) :
    Announces serde call.uri (call.statement serde) := by
  cases call with
  | upsertRecord sqlite input => exact (StoreOperation.upsert input).announces_with serde sqlite
  | softDeleteRecord sqlite uri indexedAt =>
      exact (StoreOperation.delete uri indexedAt).announces_with serde sqlite
  | hardDeleteRecord sqlite uri => exact hardDeleteStatement_announces serde sqlite uri

/-- A call is its statement and then the publication of what it left. -/
theorem execute_eq (serde : SerdeJson) (store : RecordStore) (call : ClientCall) :
    call.execute serde store =
      { store with
        records := (call.statement serde store.records).2
        bus := store.bus.publishAll (leftToPublish (call.statement serde store.records).1) } := by
  cases call with
  | upsertRecord sqlite input =>
      simp only [execute, RecordStore.upsertRecord, RecordStore.execute_eq, statement]
  | softDeleteRecord sqlite uri indexedAt =>
      simp only [execute, RecordStore.softDeleteRecord, RecordStore.execute_eq, statement]
  | hardDeleteRecord sqlite uri =>
      simp only [execute, RecordStore.hardDeleteRecord, RecordStore.execute_eq, statement]

end ClientCall

/-- The shared store, the notifications that clients have still to publish,
oldest statement first, and a record of all announcements in the order of their
statements. -/
structure SharedStore (γ : Type u) where
  store : RecordStore
  pending : List (γ × ChangeNotification)
  announced : List ChangeNotification

/-- The steps of the clients. -/
inductive ClientStep (γ : Type u) where
  | statement (client : γ) (call : ClientCall)
  | publish (client : γ)

namespace SharedStore

variable {γ : Type u}

/-- A store that no client is using. -/
def idle (store : RecordStore) : SharedStore γ := ⟨store, [], []⟩

/-- The notifications about a URI. -/
def about (uri : String) (notifications : List ChangeNotification) : List ChangeNotification :=
  notifications.filter fun notification => notification.uri = uri

@[simp]
theorem about_append (uri : String) (first second : List ChangeNotification) :
    about uri (first ++ second) = about uri first ++ about uri second :=
  List.filter_append _ _

theorem about_eq_nil {uri : String} {notifications : List ChangeNotification}
    (others : ∀ notification ∈ notifications, notification.uri ≠ uri) :
    about uri notifications = [] := by
  rw [about, List.filter_eq_nil_iff]
  intro notification mem
  simpa using others notification mem

variable [DecidableEq γ]

/-- Take the notification that a client holds. -/
def take (client : γ) :
    List (γ × ChangeNotification) → Option (ChangeNotification × List (γ × ChangeNotification))
  | [] => none
  | held :: rest =>
      if held.1 = client then some (held.2, rest)
      else (take client rest).map fun (notification, left) => (notification, held :: left)

/-- One step of a client.  A client publishes before its next statement. -/
def next (serde : SerdeJson) : Step (SharedStore γ) (ClientStep γ)
  | state, .statement client call =>
      if client ∈ state.pending.map Prod.fst then none
      else
        let (result, records) := call.statement serde state.store.records
        let left := leftToPublish result
        some
          { store := { state.store with records }
            pending := state.pending ++ left.map fun notification => (client, notification)
            announced := state.announced ++ left }
  | state, .publish client =>
      (take client state.pending).map fun (notification, pending) =>
        { state with
          store := { state.store with bus := state.store.bus.publish notification }
          pending }

/-- A client publishes only when no other client holds an older notification
for the same URI. -/
def PublishesOldest (state : SharedStore γ) : ClientStep γ → Prop
  | .statement _ _ => True
  | .publish client =>
      ∀ before notification after, state.pending = before ++ (client, notification) :: after →
        ∀ held ∈ before, held.2.uri ≠ notification.uri

omit [DecidableEq γ] in
/-- The guard in terms of the pairs that are pending. -/
theorem publishesOldest_of_pairwise {state : SharedStore γ} {client : γ}
    (pairwise : state.pending.Pairwise fun older held =>
      held.1 = client → older.2.uri ≠ held.2.uri) : state.PublishesOldest (.publish client) := by
  intro before notification after split older mem
  rw [split] at pairwise
  exact (List.pairwise_append.mp pairwise).2.2 older mem _ List.mem_cons_self rfl

theorem take_eq_some {client : γ} {pending left : List (γ × ChangeNotification)}
    {notification : ChangeNotification} (taken : take client pending = some (notification, left)) :
    ∃ before after, pending = before ++ (client, notification) :: after ∧
      left = before ++ after := by
  induction pending generalizing left with
  | nil => cases taken
  | cons held rest ih =>
      rw [take] at taken
      by_cases own : held.1 = client
      · rw [if_pos own] at taken
        cases taken
        subst own
        exact ⟨[], rest, rfl, rfl⟩
      · rw [if_neg own] at taken
        rcases Option.map_eq_some_iff.mp taken with ⟨⟨other, tail⟩, later, same⟩
        cases same
        rcases ih later with ⟨before, after, rfl, rfl⟩
        exact ⟨held :: before, after, rfl, rfl⟩

/-- A call that no other client interrupts is its one or two steps. -/
theorem run_eq_execute (serde : SerdeJson) (store : RecordStore) (client : γ)
    (call : ClientCall) :
    Transition.run (next serde) (idle store) (.statement client call ::
        (leftToPublish (call.statement serde store.records).1).map fun _ => .publish client) =
      some
        { store := call.execute serde store
          pending := []
          announced := leftToPublish (call.statement serde store.records).1 } := by
  rw [ClientCall.execute_eq, leftToPublish]
  cases left : (call.statement serde store.records).1.toOption.join with
  | none => simp [Transition.run, next, idle, leftToPublish, left, BroadcastBus.publishAll]
  | some notification =>
      simp [Transition.run, next, idle, leftToPublish, left, take, BroadcastBus.publishAll]

/-- The publications so far, and what is left to publish, are the announcements
in the order of the statements. -/
structure InOrder (serde : SerdeJson) (start : RecordStore) (state : SharedStore γ) : Prop where
  ordered : ∃ batch, state.store.bus.published = start.bus.published ++ batch ∧
    ∀ uri, about uri state.announced = about uri batch ++ about uri (state.pending.map Prod.snd)
  followed : state.store.records.liveView =
    replay start.records.liveView
      (state.announced.map (ChangeNotification.columnChange serde))

omit [DecidableEq γ] in
theorem inOrder_idle (serde : SerdeJson) (store : RecordStore) :
    InOrder serde store (idle store : SharedStore γ) :=
  ⟨⟨[], (List.append_nil _).symm, fun _ => rfl⟩, rfl⟩

theorem inOrder_statement {serde : SerdeJson} {start : RecordStore}
    {source target : SharedStore γ} {client : γ} {call : ClientCall}
    (inOrder : InOrder serde start source)
    (step : next serde source (.statement client call) = some target) :
    InOrder serde start target := by
  simp only [next] at step
  split at step
  · cases step
  · cases step
    rcases inOrder.ordered with ⟨batch, published, ordered⟩
    constructor
    · exists batch, published
      intro uri
      have held : (leftToPublish (call.statement serde source.store.records).1).map
          (fun notification => Prod.snd (client, notification)) =
            leftToPublish (call.statement serde source.store.records).1 := List.map_id _
      rw [List.map_append, List.map_map, Function.comp_def, held, about_append, about_append,
        ← List.append_assoc, ordered uri]
    · rw [List.map_append, replay_append, ← inOrder.followed]
      exact (call.announces serde).effect source.store.records

theorem inOrder_publish {serde : SerdeJson} {start : RecordStore}
    {source target : SharedStore γ} {client : γ} (inOrder : InOrder serde start source)
    (oldest : source.PublishesOldest (.publish client))
    (step : next serde source (.publish client) = some target) :
    InOrder serde start target := by
  obtain ⟨⟨notification, left⟩, taken, rfl⟩ := Option.map_eq_some_iff.mp step
  rcases take_eq_some taken with ⟨before, after, split, rfl⟩
  rcases inOrder.ordered with ⟨batch, published, ordered⟩
  constructor
  · exists batch ++ [notification]
    constructor
    · change source.store.bus.published ++ [notification] = _
      rw [published, List.append_assoc]
    · intro uri
      have here := ordered uri
      rw [split, List.map_append, List.map_cons, ← List.singleton_append] at here
      change about uri source.announced = _
      rw [here, List.map_append]
      simp only [about_append]
      by_cases same : notification.uri = uri
      · -- no older notification about this URI is pending
        have skipped : about uri (before.map Prod.snd) = [] := by
          apply about_eq_nil
          intro other mem
          rcases List.mem_map.mp mem with ⟨held, heldMem, rfl⟩
          exact same ▸ oldest before notification after split held heldMem
        rw [skipped, List.nil_append, List.nil_append, List.append_assoc]
      · have unrelated : about uri [notification] = [] := by
          apply about_eq_nil
          intro other mem
          rw [List.mem_singleton.mp mem]
          exact same
        rw [unrelated, List.nil_append, List.append_nil]
  · exact inOrder.followed

/-- Publication in the order of the statements.  Along every run whose clients
publish only when no other client holds an older notification for the same
URI, the notifications of each URI are published in the order of their
statements, and once all clients are idle a subscriber that held the live view
at the start holds the live view. -/
theorem published_inOrder (serde : SerdeJson) (start : RecordStore) (steps : List (ClientStep γ))
    (final : SharedStore γ) (reached : Transition.run (next serde) (idle start) steps = some final)
    (guarded : Along (next serde) PublishesOldest (idle start) steps) :
    ∃ batch, final.store.bus.published = start.bus.published ++ batch ∧
      (∀ uri, about uri final.announced =
        about uri batch ++ about uri (final.pending.map Prod.snd)) ∧
      ∀ mirror : Mirror, mirror.columns serde = start.records.liveView → final.pending = [] →
        (mirror.receive batch).columns serde = final.store.records.liveView := by
  have inOrder : InOrder serde start final := by
    apply Transition.invariant_of_along _ (inOrder_idle serde start) guarded reached
    intro source step target inOrder oldest stepped
    cases step with
    | statement client call => exact inOrder_statement inOrder stepped
    | publish client => exact inOrder_publish inOrder oldest stepped
  obtain ⟨batch, published, ordered⟩ := inOrder.ordered
  exists batch, published, ordered
  intro mirror mirrors allIdle
  rw [Mirror.columns_receive, mirrors, inOrder.followed]
  funext uri
  apply replay_congr
  have complete := ordered uri
  rw [allIdle, List.map_nil] at complete
  have kept : ∀ notifications : List ChangeNotification,
      on uri (notifications.map (ChangeNotification.columnChange serde)) =
        (about uri notifications).map (ChangeNotification.columnChange serde) := by
    intro notifications
    rw [on, List.filter_map, about]
    congr 2
    funext notification
    simp [ChangeNotification.columnChange]
  rw [kept, kept, complete]
  exact congrArg _ (List.append_nil _).symm

/-- Two clients at once.  The second one creates another post and publishes it
first; it deletes the post of the first one while that is not published yet, and
publishes this after it. -/
def overlapping : List (ClientStep Bool) :=
  [.statement false (.upsertRecord none (alicePost 1)),
    .statement true (.upsertRecord none
      (.new "did:plc:bob" "app.bsky.feed.post" "r1" "cid1" .null 1)),
    .publish true, .statement true (.softDeleteRecord none (alicePost 1).uri 2),
    .publish false, .publish true]

/-- The subscriber of the two clients holds the live view. -/
theorem published_inOrder_overlapping :
    ∃ final, ∃ batch,
      Transition.run (next .scalars) (idle RecordStore.empty) overlapping = some final ∧
      final.store.bus.published = RecordStore.empty.bus.published ++ batch ∧
      batch.map ChangeNotification.isUpsert = [true, true, false] ∧
      (Mirror.receive (fun _ => none) batch).columns .scalars =
        final.store.records.liveView := by
  have guarded : Along (next .scalars) PublishesOldest (idle RecordStore.empty) overlapping := by
    apply Transition.along_cons_of_step trivial rfl
    apply Transition.along_cons_of_step trivial rfl
    -- the older notification that is pending is for another URI
    apply Transition.along_cons_of_step (publishesOldest_of_pairwise (by decide)) rfl
    apply Transition.along_cons_of_step trivial rfl
    apply Transition.along_cons_of_step (publishesOldest_of_pairwise (by decide)) rfl
    exact Transition.along_cons_of_step (publishesOldest_of_pairwise (by decide)) rfl trivial
  obtain ⟨batch, published, _, mirrored⟩ :=
    published_inOrder .scalars RecordStore.empty overlapping _ rfl guarded
  have kinds := congrArg (List.map ChangeNotification.isUpsert) published
  exact ⟨_, batch, rfl, published, kinds.symm, mirrored (fun _ => none) rfl rfl⟩

/-- One client creates a post, the other deletes it and publishes first.  Both
are idle afterwards, and the subscriber holds a post that the store does not
show. -/
theorem published_outOfOrder_alicePost :
    ∃ final : SharedStore Bool, ∃ created deleted,
      Transition.run (next .scalars) (idle RecordStore.empty)
        [.statement false (.upsertRecord none (alicePost 1)),
          .statement true (.softDeleteRecord none (alicePost 1).uri 2),
          .publish true, .publish false] = some final ∧
      final.pending = [] ∧
      final.announced = [created, deleted] ∧
      created.uri = deleted.uri ∧ created.isUpsert = true ∧ deleted.isUpsert = false ∧
      final.store.bus.published = RecordStore.empty.bus.published ++ [deleted, created] ∧
      Mirror.columns .scalars (fun _ => none) = RecordStore.empty.records.liveView ∧
      (Mirror.receive (fun _ => none) [deleted, created]).columns .scalars (alicePost 1).uri ≠
        final.store.records.liveView (alicePost 1).uri := by
  have different : ∀ row : String × Row, some row ≠ none := by
    rintro _ ⟨⟩
  exact ⟨_, _, _, rfl, rfl, rfl, rfl, rfl, rfl, rfl, rfl, different _⟩

end SharedStore

end Skybase.Index
