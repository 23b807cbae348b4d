import Skybase.Repo.NonceRetry
import Skybase.Transition.Core

/-!
# Calls that share their nonces

Clones of a client and of its session share one nonce cache.  A call reads the
cache when it signs a request, writes the nonce of the response, and reads the
cache again after a challenge; between these steps other calls take theirs.  In
every interleaving, what a call does is what the code does alone with some
changes of the cache in between, and a request is signed with the nonce that was
recorded last for its origin, so that a retry carries the nonce of its own
challenge or a later one.
-/

namespace Skybase.Repo

open Skybase.Transition (Step run)

/-! ## Interleaved calls -/

/-- A call that has passed the checks before its loop. -/
structure Job where
  session : OAuthSession
  call : SendCall
  url : Url
  htu : String
  /-- `create_dpop_proof`, by the number of the attempt. -/
  createDpopProof : Nat → String → String → Option String → Except String String
  valid : session.expired = none
  parsed : call.parsedUrl = .ok url
  normalized : call.htu = .ok htu

/-- Where a call stands in its loop, after a number of earlier attempts. -/
inductive Stage where
  | start (earlier : Nat)
  | waiting (earlier : Nat) (request : Request)
  | received (earlier : Nat) (resp : Response)
  | checking (earlier : Nat) (resp : Response)
  | done (result : Except SkybaseError Response)

/-- What can be seen of the calls: the nonces that their requests are signed
with, the answers, and the nonces that are written to the cache. -/
inductive Event where
  | signed (job : Nat) (origin : String) (nonce : Option String)
  | answered (job : Nat) (resp : Response)
  | recorded (job : Nat) (origin nonce : String)

/-- What a step of a call leads to. -/
structure Move where
  stage : Stage
  exchanges : List Exchange
  events : List Event
  cache : NonceCache

/-- One step of a call; the answer is that of a server to a waiting request. -/
def Job.move (decoder : Decoder) (job : Job) (number : Nat) (answer : Except String Response)
    (cache : NonceCache) : Stage → Option Move
  | .start earlier =>
      match job.createDpopProof (earlier + 1) job.call.method job.htu (cache job.url.origin) with
      | .error e => some ⟨.done (.error (.auth e)), [], [], cache⟩
      | .ok dpopProof =>
          some ⟨.waiting earlier (job.call.request job.session job.url dpopProof), [],
            [.signed number job.url.origin (cache job.url.origin)], cache⟩
  | .waiting earlier request =>
      match answer with
      | .error e => some ⟨.done (.error (.network e)), [⟨request, .error e⟩], [], cache⟩
      | .ok resp =>
          some ⟨.received earlier resp, [⟨request, .ok resp⟩], [.answered number resp], cache⟩
  | .received earlier resp =>
      some ⟨.checking earlier resp, [],
        (resp.newNonce decoder).toList.map (.recorded number job.url.origin),
        recordNonce decoder job.url.origin resp cache⟩
  | .checking earlier resp =>
      match onResponse decoder (earlier + 1) (cache job.url.origin) resp with
      | .done result => some ⟨.done result, [], [], cache⟩
      | .again => some ⟨.start (earlier + 1), [], [], cache⟩
  | .done _ => none

/-- The shared cache, where the calls stand and what they have sent, and all that
could be seen of them. -/
structure Shared where
  cache : NonceCache
  stage : Nat → Stage
  exchanges : Nat → List Exchange
  trace : List Event

namespace Shared

/-- No call has begun. -/
def start (cache : NonceCache) : Shared := ⟨cache, fun _ => .start 0, fun _ => [], []⟩

/-- The state after a step of a call. -/
def after (state : Shared) (number : Nat) (move : Move) : Shared where
  cache := move.cache
  stage := Function.update state.stage number move.stage
  exchanges := Function.update state.exchanges number (state.exchanges number ++ move.exchanges)
  trace := state.trace ++ move.events

/-- A step of one of the calls. -/
def step (decoder : Decoder) (jobs : Nat → Job) :
    Step Shared (Nat × Except String Response) := fun state action =>
  ((jobs action.1).move decoder action.1 action.2 state.cache (state.stage action.1)).map
    (state.after action.1)

end Shared

/-! ## A call alone -/

section Alone

variable {decoder : Decoder} {job : Job} {earlier : Nat} {before exchanges : List Exchange}

/-- An attempt that meets the given caches and the given answer. -/
def Job.attempt (job : Job) (number : Nat) (read check : NonceCache)
    (answer : Except String Response) : Attempt where
  beforeProof := fun _ => read
  createDpopProof := job.createDpopProof number
  answer := fun _ => answer
  whileSending := id
  beforeCheck := fun _ => check

/-- The earlier attempts of a call are iterations of the loop: none, or one that
was challenged. -/
def Job.Began (decoder : Decoder) (job : Job) (earlier : Nat) (exchanges : List Exchange) :
    Prop :=
  earlier = 0 ∧ exchanges = [] ∨
    earlier = 1 ∧ ∃ attempt after, attempt.createDpopProof = job.createDpopProof 1 ∧
      ∀ cache, turn decoder job.session job.call job.url job.htu attempt 1 cache =
        (.again, exchanges, after)

/-- The request is that of an attempt. -/
def Job.Built (job : Job) (earlier : Nat) (read : NonceCache) (request : Request) : Prop :=
  ∃ dpopProof, job.createDpopProof (earlier + 1) job.call.method job.htu
      (read job.url.origin) = .ok dpopProof ∧
    request = job.call.request job.session job.url dpopProof

/-- The loop ends with the result, whatever fuel is left. -/
def Job.Ends (decoder : Decoder) (job : Job) (result : Except SkybaseError Response)
    (exchanges : List Exchange) : Prop :=
  ∃ attempt after, (∀ number, (attempt number).createDpopProof = job.createDpopProof number) ∧
    ∀ fuel cache, sendLoop decoder job.session job.call job.url job.htu attempt (fuel + 2) 0
      cache = some ⟨result, exchanges, after⟩

/-- What a call has done is a part of what the code does alone. -/
def Job.Trails (decoder : Decoder) (job : Job) : Stage → List Exchange → Prop
  | .start earlier, exchanges => job.Began decoder earlier exchanges
  | .waiting earlier request, exchanges =>
      job.Began decoder earlier exchanges ∧ ∃ read, job.Built earlier read request
  | .received earlier resp, exchanges =>
      ∃ before read request, exchanges = before ++ [⟨request, .ok resp⟩] ∧
        job.Began decoder earlier before ∧ job.Built earlier read request
  | .checking earlier resp, exchanges =>
      ∃ before read request, exchanges = before ++ [⟨request, .ok resp⟩] ∧
        job.Began decoder earlier before ∧ job.Built earlier read request
  | .done result, exchanges => job.Ends decoder result exchanges

theorem turn_attempt_of_error {read : NonceCache} {e : String}
    (failed : job.createDpopProof (earlier + 1) job.call.method job.htu
      (read job.url.origin) = .error e) (check cache : NonceCache)
    (answer : Except String Response) :
    turn decoder job.session job.call job.url job.htu
        (job.attempt (earlier + 1) read check answer) (earlier + 1) cache =
      (.done (.error (.auth e)), [], read) := by
  simp only [turn, Job.attempt, failed]

theorem turn_attempt_of_answer {read : NonceCache} {request : Request}
    (built : job.Built earlier read request) (check cache : NonceCache) (resp : Response) :
    turn decoder job.session job.call job.url job.htu
        (job.attempt (earlier + 1) read check (.ok resp)) (earlier + 1) cache =
      (onResponse decoder (earlier + 1) (check job.url.origin) resp, [⟨request, .ok resp⟩],
        check) := by
  rcases built with ⟨dpopProof, proved, rfl⟩
  simp only [turn, Job.attempt, proved]

theorem turn_attempt_of_network {read : NonceCache} {request : Request}
    (built : job.Built earlier read request) (check cache : NonceCache) (e : String) :
    turn decoder job.session job.call job.url job.htu
        (job.attempt (earlier + 1) read check (.error e)) (earlier + 1) cache =
      (.done (.error (.network e)), [⟨request, .error e⟩], read) := by
  rcases built with ⟨dpopProof, proved, rfl⟩
  simp only [turn, Job.attempt, proved]

/-- An iteration that ends the call ends the loop. -/
theorem ends_of_turn (began : job.Began decoder earlier before) {read check after : NonceCache}
    {answer : Except String Response} {result : Except SkybaseError Response}
    (ended : ∀ cache, turn decoder job.session job.call job.url job.htu
      (job.attempt (earlier + 1) read check answer) (earlier + 1) cache =
        (.done result, exchanges, after)) : job.Ends decoder result (before ++ exchanges) := by
  rcases began with ⟨rfl, rfl⟩ | ⟨rfl, first, middle, firstProof, continued⟩
  · refine ⟨fun number => job.attempt number read check answer, after, fun number => rfl, ?_⟩
    intro fuel cache
    have last := ended cache
    rw [Nat.zero_add] at last
    simp only [sendLoop, Nat.zero_add, last, List.nil_append]
  · refine ⟨fun number => if number = 1 then first else job.attempt number read check answer,
      after, ?_, ?_⟩
    · intro number
      dsimp only
      split
      · next one => rw [firstProof, one]
      · rfl
    · intro fuel cache
      have last : turn decoder job.session job.call job.url job.htu
          (job.attempt 2 read check answer) 2 middle = (.done result, exchanges, after) :=
        ended middle
      have later : ¬ (2 : Nat) = 1 := by decide
      simp only [sendLoop, Nat.zero_add, Nat.reduceAdd, if_true, continued, if_neg later, last,
        Option.map_some]

/-- A step of a call goes on with what the code does alone. -/
theorem trails_move {number : Nat} {answer : Except String Response} {cache : NonceCache}
    {stage : Stage} {move : Move} (trails : job.Trails decoder stage exchanges)
    (moved : job.move decoder number answer cache stage = some move) :
    job.Trails decoder move.stage (exchanges ++ move.exchanges) := by
  cases stage with
  | start earlier =>
      rw [Job.move] at moved
      split at moved
      · next e failed =>
          cases moved
          exact ends_of_turn trails fun other =>
            turn_attempt_of_error failed cache other (.error "")
      · next dpopProof proved =>
          cases moved
          dsimp only
          rw [List.append_nil]
          exact ⟨trails, cache, dpopProof, proved, rfl⟩
  | waiting earlier request =>
      rcases trails with ⟨began, read, built⟩
      cases answer with
      | error e =>
          cases moved
          exact ends_of_turn began fun other => turn_attempt_of_network built cache other e
      | ok resp =>
          cases moved
          exact ⟨exchanges, read, request, rfl, began, built⟩
  | received earlier resp =>
      cases moved
      dsimp only
      rw [List.append_nil]
      exact trails
  | checking earlier resp =>
      rcases trails with ⟨before, read, request, rfl, began, built⟩
      have turned : ∀ other, turn decoder job.session job.call job.url job.htu
          (job.attempt (earlier + 1) read cache (.ok resp)) (earlier + 1) other =
            (onResponse decoder (earlier + 1) (cache job.url.origin) resp, [⟨request, .ok resp⟩],
              cache) := fun other => turn_attempt_of_answer built cache other resp
      rw [Job.move] at moved
      split at moved
      · next result reacted =>
          cases moved
          dsimp only
          rw [List.append_nil]
          rw [reacted] at turned
          exact ends_of_turn began turned
      · next reacted =>
          cases moved
          dsimp only
          rw [List.append_nil]
          rw [reacted] at turned
          have first : earlier = 0 := by
            rcases onResponse_cases decoder (earlier + 1) (cache job.url.origin) resp with
              ⟨_, ended⟩ | ⟨_, err, ended⟩ | ⟨first, _⟩
            · rw [reacted] at ended
              cases ended
            · rw [reacted] at ended
              cases ended
            · omega
          subst first
          rcases began with ⟨_, rfl⟩ | ⟨absurd, _⟩
          · exact .inr ⟨rfl, _, _, rfl, turned⟩
          · cases absurd
  | done result => cases moved

end Alone

/-! ## The cache after what could be seen -/

/-- What an event does to the cache. -/
def Event.apply (cache : NonceCache) : Event → NonceCache
  | .signed _ _ _ => cache
  | .answered _ _ => cache
  | .recorded _ origin nonce => Function.update cache origin (some nonce)

/-- The nonces that are cached after the events. -/
def nonceAfter (initial : NonceCache) (events : List Event) : NonceCache :=
  events.foldl Event.apply initial

theorem nonceAfter_append (initial : NonceCache) (events later : List Event) :
    nonceAfter initial (events ++ later) = nonceAfter (nonceAfter initial events) later := by
  rw [nonceAfter, List.foldl_append]
  rfl

/-- A cached nonce stays until another one is recorded for its origin. -/
theorem nonceAfter_cases (cache : NonceCache) (events : List Event) (origin : String) :
    nonceAfter cache events origin = cache origin ∨
      ∃ number nonce, .recorded number origin nonce ∈ events ∧
        nonceAfter cache events origin = some nonce := by
  induction events generalizing cache with
  | nil => exact .inl rfl
  | cons event events ih =>
      rcases ih (event.apply cache) with same | ⟨number, nonce, mem, newest⟩
      · cases event with
        | signed number place nonce => exact .inl same
        | answered number resp => exact .inl same
        | recorded number place nonce =>
            by_cases here : place = origin
            · subst here
              apply Or.inr
              exact ⟨number, nonce, List.mem_cons_self, same.trans (Function.update_self ..)⟩
            · exact .inl (same.trans (Function.update_of_ne (Ne.symm here) ..))
      · exact .inr ⟨number, nonce, List.mem_cons_of_mem event mem, newest⟩

section Interleaved

variable {decoder : Decoder} {jobs : Nat → Job} {initial cache : NonceCache}
  {number : Nat} {origin : String} {trace events : List Event}

/-- A response has arrived, and the nonce that it brings is recorded after it. -/
def Noted (decoder : Decoder) (number : Nat) (origin : String) (resp : Response)
    (trace : List Event) : Prop :=
  ∃ early late, trace = early ++ .answered number resp :: late ∧
    ∀ nonce, resp.newNonce decoder = some nonce → .recorded number origin nonce ∈ late

theorem Noted.append {resp : Response} (noted : Noted decoder number origin resp trace)
    (events : List Event) : Noted decoder number origin resp (trace ++ events) := by
  rcases noted with ⟨early, late, rfl, recorded⟩
  refine ⟨early, late ++ events, ?_, ?_⟩
  · rw [List.append_assoc, List.cons_append]
  · intro nonce brought
    exact List.mem_append_left events (recorded nonce brought)

/-- After a challenge with a nonce, the cache holds that nonce or a later one. -/
theorem Noted.newest {resp : Response} (noted : Noted decoder number origin resp trace)
    {fresh : String} (brought : resp.newNonce decoder = some fresh) (initial : NonceCache) :
    ∃ early late, trace = early ++ .recorded number origin fresh :: late ∧
      (.answered number resp ∈ early) ∧
      (nonceAfter initial trace origin = some fresh ∨
        ∃ other nonce, .recorded other origin nonce ∈ late ∧
          nonceAfter initial trace origin = some nonce) := by
  rcases noted with ⟨early, late, rfl, recorded⟩
  rcases List.append_of_mem (recorded fresh brought) with ⟨middle, rest, rfl⟩
  refine ⟨early ++ .answered number resp :: middle, rest, ?_, ?_, ?_⟩
  · rw [List.append_assoc, List.cons_append]
  · exact List.mem_append_right early List.mem_cons_self
  · rw [← List.cons_append, ← List.append_assoc, nonceAfter_append]
    rcases nonceAfter_cases (Function.update
        (nonceAfter initial (early ++ .answered number resp :: middle)) origin (some fresh))
        rest origin with same | later
    · exact .inl (same.trans (Function.update_self ..))
    · exact .inr later

/-- What the trace shows of a call in a stage. -/
def Stage.Shown (decoder : Decoder) (number : Nat) (origin : String) (trace : List Event) :
    Stage → Prop
  | .start 0 => ∀ place nonce, .signed number place nonce ∉ trace
  | .start (_ + 1) =>
      ∃ resp, resp.isRefusal = true ∧ resp.isChallenge decoder = true ∧
        Noted decoder number origin resp trace
  | .waiting _ _ => True
  | .received _ resp => ∃ early late, trace = early ++ .answered number resp :: late
  | .checking _ resp => Noted decoder number origin resp trace
  | .done _ => True

/-- The steps of other calls take nothing away. -/
theorem Stage.Shown.append {stage : Stage} (shown : stage.Shown decoder number origin trace)
    (others : ∀ place nonce, .signed number place nonce ∉ events) :
    stage.Shown decoder number origin (trace ++ events) := by
  cases stage with
  | start earlier =>
      cases earlier with
      | zero =>
          intro place nonce mem
          rcases List.mem_append.mp mem with before | now
          · exact shown place nonce before
          · exact others place nonce now
      | succ earlier =>
          rcases shown with ⟨resp, refusal, challenge, noted⟩
          exact ⟨resp, refusal, challenge, noted.append events⟩
  | waiting earlier request => trivial
  | received earlier resp =>
      rcases shown with ⟨early, late, rfl⟩
      refine ⟨early, late ++ events, ?_⟩
      rw [List.append_assoc, List.cons_append]
  | checking earlier resp => exact Noted.append shown events
  | done result => trivial

/-- What a request is signed with: the newest nonce of its origin; and a call
signs again only after a challenge that it has noted. -/
structure Warranted (decoder : Decoder) (initial : NonceCache) (before : List Event)
    (number : Nat) (origin : String) (nonce : Option String) : Prop where
  newest : nonce = nonceAfter initial before origin
  challenged : (∃ place earlier, .signed number place earlier ∈ before) →
    ∃ resp, resp.isRefusal = true ∧ resp.isChallenge decoder = true ∧
      Noted decoder number origin resp before

/-- All requests of the trace are. -/
def AllWarranted (decoder : Decoder) (initial : NonceCache) (trace : List Event) : Prop :=
  ∀ before number origin nonce after, trace = before ++ .signed number origin nonce :: after →
    Warranted decoder initial before number origin nonce

theorem AllWarranted.append (warranted : AllWarranted decoder initial trace)
    (unsigned : ∀ number place nonce, .signed number place nonce ∉ events) :
    AllWarranted decoder initial (trace ++ events) := by
  intro before number place nonce after split
  rcases List.append_eq_append_iff.mp split with ⟨rest, rfl, found⟩ | ⟨rest, rfl, found⟩
  · apply absurd _ (unsigned number place nonce)
    rw [found]
    exact List.mem_append_right rest List.mem_cons_self
  · cases rest with
    | nil =>
        apply absurd _ (unsigned number place nonce)
        rw [List.nil_append] at found
        rw [← found]
        exact List.mem_cons_self
    | cons event rest =>
        obtain ⟨rfl, -⟩ := List.cons.inj found
        exact warranted before number place nonce rest rfl

theorem AllWarranted.snoc (warranted : AllWarranted decoder initial trace) {nonce : Option String}
    (last : Warranted decoder initial trace number origin nonce) :
    AllWarranted decoder initial (trace ++ [.signed number origin nonce]) := by
  intro before other place taken after split
  cases after using List.reverseRecOn with
  | nil =>
      obtain ⟨rfl, same⟩ := List.append_inj' split rfl
      cases same
      exact last
  | append_singleton after event _ =>
      rw [← List.cons_append, ← List.append_assoc] at split
      obtain ⟨shorter, -⟩ := List.append_inj' split rfl
      exact warranted before other place taken after shorter

/-! ## Steps -/

variable {job : Job} {answer : Except String Response} {stage : Stage} {move : Move}

/-- The cache changes by what is recorded. -/
theorem cache_move (moved : job.move decoder number answer cache stage = some move) :
    move.cache = nonceAfter cache move.events := by
  cases stage with
  | start earlier =>
      rw [Job.move] at moved
      split at moved
      · cases moved
        rfl
      · cases moved
        rfl
  | waiting earlier request =>
      cases answer with
      | error e =>
          cases moved
          rfl
      | ok resp =>
          cases moved
          rfl
  | received earlier resp =>
      cases moved
      dsimp only
      rw [recordNonce]
      cases resp.newNonce decoder with
      | none => rfl
      | some nonce => rfl
  | checking earlier resp =>
      rw [Job.move] at moved
      split at moved
      · cases moved
        rfl
      · cases moved
        rfl
  | done result => cases moved

/-- A call signs its own requests only, and it does so first of all. -/
theorem signed_move (moved : job.move decoder number answer cache stage = some move)
    {other : Nat} {place : String} {nonce : Option String}
    (mem : .signed other place nonce ∈ move.events) :
    other = number ∧ ∃ earlier, stage = .start earlier ∧
      move.events = [.signed number job.url.origin (cache job.url.origin)] := by
  cases stage with
  | start earlier =>
      rw [Job.move] at moved
      split at moved
      · cases moved
        cases mem
      · cases moved
        cases List.mem_singleton.mp mem
        exact ⟨rfl, earlier, rfl, rfl⟩
  | waiting earlier request =>
      cases answer with
      | error e =>
          cases moved
          cases mem
      | ok resp =>
          cases moved
          cases List.mem_singleton.mp mem
  | received earlier resp =>
      cases moved
      rcases List.mem_map.mp mem with ⟨nonce, -, absurd⟩
      cases absurd
  | checking earlier resp =>
      rw [Job.move] at moved
      split at moved
      · cases moved
        cases mem
      · cases moved
        cases mem
  | done result => cases moved

/-- The trace shows of the call what its next step needs. -/
theorem shown_move (shown : stage.Shown decoder number job.url.origin trace)
    (moved : job.move decoder number answer cache stage = some move) :
    move.stage.Shown decoder number job.url.origin (trace ++ move.events) := by
  cases stage with
  | start earlier =>
      rw [Job.move] at moved
      split at moved
      · cases moved
        trivial
      · cases moved
        trivial
  | waiting earlier request =>
      cases answer with
      | error e =>
          cases moved
          trivial
      | ok resp =>
          cases moved
          exact ⟨trace, [], rfl⟩
  | received earlier resp =>
      rcases shown with ⟨early, late, rfl⟩
      cases moved
      refine ⟨early, late ++ (resp.newNonce decoder).toList.map (.recorded number job.url.origin),
        ?_, ?_⟩
      · rw [List.append_assoc, List.cons_append]
      · intro nonce brought
        apply List.mem_append_right late
        rw [brought]
        exact List.mem_singleton.mpr rfl
  | checking earlier resp =>
      rw [Job.move] at moved
      split at moved
      · cases moved
        trivial
      · next again =>
          cases moved
          rcases onResponse_cases decoder (earlier + 1) (cache job.url.origin) resp with
            ⟨_, ended⟩ | ⟨_, err, ended⟩ | ⟨_, refusal, challenge, _, _⟩
          · rw [again] at ended
            cases ended
          · rw [again] at ended
            cases ended
          · exact ⟨resp, refusal, challenge, Noted.append shown []⟩
  | done result => cases moved

/-- A request is signed as it should be. -/
theorem warranted_move (warranted : AllWarranted decoder initial trace)
    (shown : stage.Shown decoder number job.url.origin trace)
    (moved : job.move decoder number answer (nonceAfter initial trace) stage = some move) :
    AllWarranted decoder initial (trace ++ move.events) := by
  by_cases signs : ∃ other place nonce, .signed other place nonce ∈ move.events
  · rcases signs with ⟨other, place, nonce, mem⟩
    rcases signed_move moved mem with ⟨-, earlier, rfl, only⟩
    rw [only]
    apply warranted.snoc
    constructor
    · rfl
    · rintro ⟨place, nonce, before⟩
      cases earlier with
      | zero => exact absurd before (shown place nonce)
      | succ earlier => exact shown
  · apply warranted.append
    intro other place nonce mem
    exact signs ⟨other, place, nonce, mem⟩

end Interleaved

/-! ## Runs -/

/-- What holds of the calls at any time. -/
structure Shared.Sound (decoder : Decoder) (jobs : Nat → Job) (initial : NonceCache)
    (state : Shared) : Prop where
  trails : ∀ number, (jobs number).Trails decoder (state.stage number) (state.exchanges number)
  cache : state.cache = nonceAfter initial state.trace
  shown : ∀ number,
    (state.stage number).Shown decoder number (jobs number).url.origin state.trace
  warranted : AllWarranted decoder initial state.trace

section Runs

variable {decoder : Decoder} {jobs : Nat → Job} {initial : NonceCache}

theorem Shared.sound_start : (Shared.start initial).Sound decoder jobs initial where
  trails _ := .inl ⟨rfl, rfl⟩
  cache := rfl
  shown _ := fun _ _ absurd => List.not_mem_nil absurd
  warranted before number origin nonce after split := by
    cases before with
    | nil => cases split
    | cons event before => cases split

theorem Shared.sound_step {state after : Shared} {action : Nat × Except String Response}
    (sound : state.Sound decoder jobs initial)
    (stepped : Shared.step decoder jobs state action = some after) :
    after.Sound decoder jobs initial := by
  rcases action with ⟨number, answer⟩
  rcases Option.map_eq_some_iff.mp stepped with ⟨move, moved, rfl⟩
  dsimp only at moved
  constructor
  · intro other
    by_cases same : other = number
    · subst same
      simp only [Shared.after, Function.update_self]
      exact trails_move (sound.trails other) moved
    · simp only [Shared.after, Function.update_of_ne same]
      exact sound.trails other
  · have changed := cache_move moved
    rw [sound.cache, ← nonceAfter_append] at changed
    exact changed
  · intro other
    by_cases same : other = number
    · subst same
      simp only [Shared.after, Function.update_self]
      exact shown_move (sound.shown other) moved
    · simp only [Shared.after, Function.update_of_ne same]
      apply (sound.shown other).append
      intro place nonce mem
      exact same (signed_move moved mem).1
  · rw [sound.cache] at moved
    exact warranted_move sound.warranted (sound.shown number) moved

/-- Calls that share a nonce cache, in every interleaving of their steps and for
all answers of the servers.  A call that has ended returned a result and sent
requests as the code does alone with its proofs, for some changes of the cache in
between.  A request is signed with the nonce that was recorded last for its
origin, or the one that was cached at first.  A call that signs a second time was
challenged, and if the challenge brought a nonce, it signs with this one or one
that was recorded later for the origin. -/
theorem signed_of_run {actions : List (Nat × Except String Response)} {state : Shared}
    (reached : run (Shared.step decoder jobs) (Shared.start initial) actions = some state) :
    (∀ number result, state.stage number = .done result →
      ∃ attempt after,
        (∀ attempts, (attempt attempts).createDpopProof =
          (jobs number).createDpopProof attempts) ∧
        ∀ fuel cache,
          sendWithNonceRetryContentType decoder (jobs number).session (jobs number).call attempt
              (fuel + 2) cache = some ⟨result, state.exchanges number, after⟩) ∧
      ∀ before number origin nonce after,
        state.trace = before ++ .signed number origin nonce :: after →
          nonce = nonceAfter initial before origin ∧
            ((∃ place earlier, .signed number place earlier ∈ before) →
              ∃ resp, resp.isRefusal = true ∧ resp.isChallenge decoder = true ∧
                .answered number resp ∈ before ∧
                ∀ fresh, resp.newNonce decoder = some fresh →
                  ∃ early late, before = early ++ .recorded number origin fresh :: late ∧
                    .answered number resp ∈ early ∧
                    (nonce = some fresh ∨
                      ∃ other newer, .recorded other origin newer ∈ late ∧
                        nonce = some newer)) := by
  have sound : state.Sound decoder jobs initial :=
    Skybase.Transition.invariant_of_run
      (fun source action target held stepped => Shared.sound_step held stepped)
      Shared.sound_start reached
  constructor
  · intro number result done
    have trails := sound.trails number
    rw [done] at trails
    rcases trails with ⟨attempt, after, proofs, ended⟩
    refine ⟨attempt, after, proofs, ?_⟩
    intro fuel cache
    simp only [sendWithNonceRetryContentType, (jobs number).valid, (jobs number).parsed,
      (jobs number).normalized]
    exact ended fuel cache
  · intro before number origin nonce after split
    have warranted := sound.warranted before number origin nonce after split
    constructor
    · exact warranted.newest
    · intro again
      rcases warranted.challenged again with ⟨resp, refusal, challenge, noted⟩
      refine ⟨resp, refusal, challenge, ?_, ?_⟩
      · rcases noted with ⟨early, late, rfl, -⟩
        exact List.mem_append_right early List.mem_cons_self
      · intro fresh brought
        rcases noted.newest brought initial with ⟨early, late, found, arrived, newest⟩
        rw [← warranted.newest] at newest
        exact ⟨early, late, found, arrived, newest⟩

end Runs

/-- A call that creates a record, whose proofs show their nonces. -/
def createRecordJob : Job where
  session := aliceSession
  call := createRecordCall
  url := ⟨"https://pds.example.com/xrpc/com.atproto.repo.createRecord", "https://pds.example.com"⟩
  htu := "https://pds.example.com/xrpc/com.atproto.repo.createRecord"
  createDpopProof _ _ _ nonce := .ok (nonce.getD "no nonce")
  valid := rfl
  parsed := rfl
  normalized := rfl

/-- The response that challenges with a nonce. -/
def challengeWith (nonce : String) : Response := challenge [("dpop-nonce", Text.bytes nonce)]

/-- Two calls are challenged, the second one after the first one, and before the
first one looks for a nonce for its retry. -/
def overtaken : List (Nat × Except String Response) :=
  [(0, .error ""), (1, .error ""), (0, .ok (challengeWith "nonce1")),
    (1, .ok (challengeWith "nonce2")), (0, .error ""), (1, .error ""), (0, .error ""),
    (0, .error ""), (0, .ok created), (0, .error ""), (0, .error "")]

/-- The state that they lead to. -/
def overtakenState : Shared :=
  (run (Shared.step challengeDecoder fun _ => createRecordJob) (Shared.start fun _ => none)
    overtaken).getD (Shared.start fun _ => none)

/-- The first call retries with the nonce of the second one's challenge. -/
theorem signed_of_run_overtaken :
    (overtakenState.exchanges 0).map (fun exchange => exchange.request.dpop) =
        ["no nonce", "nonce2"] ∧
      ∃ attempt after,
        (∀ attempts, (attempt attempts).createDpopProof =
          createRecordJob.createDpopProof attempts) ∧
        ∀ fuel cache,
          sendWithNonceRetryContentType challengeDecoder aliceSession createRecordCall attempt
              (fuel + 2) cache = some ⟨.ok created, overtakenState.exchanges 0, after⟩ := by
  have reached : run (Shared.step challengeDecoder fun _ => createRecordJob)
      (Shared.start fun _ => none) overtaken = some overtakenState := rfl
  constructor
  · rfl
  · exact (signed_of_run reached).1 0 (.ok created) rfl

end Skybase.Repo
