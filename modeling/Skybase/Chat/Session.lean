import Mathlib.Data.List.Nodup
import Mathlib.Logic.Function.Basic
import Skybase.Chat.Client
import Skybase.Transition.Core

/-!
# Concurrent calls of the chat client

Any number of calls of `send_request` run on clones of one client.  Each step is
a lock section of one call together with what the call does up to its next one,
or the arrival of an answer; the refresh is one step, as it holds the write lock
throughout.  If the server issues no access token twice, the stored token never
returns, so that each token is renewed at most once and a retry never carries
the token that failed.  What the redirects of a server add to the requests of a
call is no retry: they repeat a request before it is answered.
-/

namespace Skybase.Chat

open Skybase.Json
open Skybase.Transition (Step Along run)

universe u

/-- A request that a call makes, with the redirects that were followed and the
answer, if there is one yet. -/
structure Exchange where
  request : ChatRequest
  redirects : List Redirect
  answer : Option (Answer Value)

/-- The requests of an exchange as they are sent. -/
def Exchange.sent (exchange : Exchange) : List ChatRequest :=
  exchange.redirects.scanl ChatRequest.redirected exchange.request

/-- A call, with a record of its exchanges. -/
structure Call where
  phase : Phase
  exchanges : List Exchange

namespace Call

/-- A call that has not begun. -/
def idle : Call := ⟨.start, []⟩

/-- The requests of a call as they are sent. -/
def sent (call : Call) : List ChatRequest := call.exchanges.flatMap Exchange.sent

/-- The redirects that a call followed. -/
def redirects (call : Call) : List Redirect := call.exchanges.flatMap Exchange.redirects

/-- The call makes a request. -/
def send (call : Call) (request : ChatRequest) (phase : Phase) : Call :=
  ⟨phase, call.exchanges ++ [⟨request, [], none⟩]⟩

/-- Something happens to the last exchange. -/
def note (call : Call) (change : Exchange → Exchange) (phase : Phase) : Call :=
  ⟨phase, call.exchanges.dropLast ++ call.exchanges.getLast?.toList.map change⟩

/-- The call receives an answer. -/
def receive (call : Call) (answer : Answer Value) (phase : Phase) : Call :=
  call.note (fun exchange => { exchange with answer := some answer }) phase

/-- The request that is out is redirected. -/
def follow (call : Call) (redirect : Redirect) : Call :=
  call.note (fun exchange => { exchange with redirects := exchange.redirects ++ [redirect] })
    call.phase

/-- Whether a request is out for which the client follows another redirect. -/
def mayFollow (call : Call) : Bool :=
  match call.phase with
  | .requested _ => call.exchanges.getLast?.any fun last => last.redirects.length < maxRedirects
  | .retried => call.exchanges.getLast?.any fun last => last.redirects.length < maxRedirects
  | _ => false

end Call

/-- The shared state and the calls, with a record of the renewals (the stored
token and the one that replaced it) and of all access tokens that were stored. -/
structure Session (κ : Type u) where
  auth : AuthState
  calls : κ → Call
  renewals : List (String × String)
  tokens : List String

/-- The steps of the calls, and those of the builders on a clone. -/
inductive SessionStep (κ : Type u) where
  /-- The stored token is read and the first request is sent. -/
  | request (caller : κ)
  /-- The request that is out is redirected, and sent to another URL. -/
  | redirect (caller : κ) (redirect : Redirect)
  | answer (caller : κ) (answer : Answer Value)
  | canRefresh (caller : κ)
  | refresh (caller : κ) (server : SessionServer)
  /-- The stored token is read again and the retry is sent. -/
  | retry (caller : κ)
  | retryAnswer (caller : κ) (answer : Answer Value)
  | withRefreshToken (token : String)
  | withCredentials (pdsEndpoint identifier password : String)

/-- The access token that a refresh obtains. -/
def AuthState.issued (server : SessionServer) (failedToken : String) (auth : AuthState) :
    Option String :=
  match auth.renewal server failedToken with
  | .ok (some tokens) => some tokens.1
  | _ => none

namespace Session

variable {κ : Type u}

/-- No call has begun. -/
def start (auth : AuthState) : Session κ := ⟨auth, fun _ => .idle, [], [auth.accessJwt]⟩

variable [DecidableEq κ]

/-- Replace a call. -/
def withCall (session : Session κ) (caller : κ) (call : Call) : Session κ :=
  { session with calls := Function.update session.calls caller call }

@[simp]
theorem calls_withCall (session : Session κ) (caller : κ) (call : Call) :
    (session.withCall caller call).calls caller = call := by
  rw [withCall]
  exact Function.update_self ..

/-- The write lock section of a refresh, with its record. -/
def refreshed (session : Session κ) (server : SessionServer) (failedToken : String) : Session κ :=
  { session with
    auth := (session.auth.refreshSessionOrRelogin server failedToken).2
    renewals := session.renewals ++
      (session.auth.issued server failedToken).toList.map fun token =>
        (session.auth.accessJwt, token)
    tokens := session.tokens ++ (session.auth.issued server failedToken).toList }

/-- One step.  The argument `request` holds what each call was called with. -/
def next (request : κ → SendRequest) : Step (Session κ) (SessionStep κ) := fun session step =>
  match step with
  | .request caller =>
      let call := session.calls caller
      match call.phase with
      | .start =>
          let token := session.auth.accessJwt
          some (session.withCall caller
            (call.send ((request caller).buildRequest token) (.requested token)))
      | _ => none
  | .redirect caller redirect =>
      let call := session.calls caller
      if call.mayFollow && redirect.isFollowed then
        some (session.withCall caller (call.follow redirect))
      else none
  | .answer caller answer =>
      let call := session.calls caller
      match call.phase with
      | .requested token =>
          some (session.withCall caller
            (call.receive answer ((request caller).onAnswer token answer)))
      | _ => none
  | .canRefresh caller =>
      let call := session.calls caller
      match call.phase with
      | .expired token resp =>
          some (session.withCall caller
            { call with
              phase := (request caller).onCanRefresh token resp session.auth.canRefresh })
      | _ => none
  | .refresh caller server =>
      let call := session.calls caller
      match call.phase with
      | .refreshing token resp =>
          let result := (session.auth.refreshSessionOrRelogin server token).1
          some ((session.refreshed server token).withCall caller
            { call with phase := (request caller).onRefresh resp result })
      | _ => none
  | .retry caller =>
      let call := session.calls caller
      match call.phase with
      | .refreshed =>
          let token := session.auth.accessJwt
          some (session.withCall caller
            (call.send ((request caller).buildRequest token) .retried))
      | _ => none
  | .retryAnswer caller answer =>
      let call := session.calls caller
      match call.phase with
      | .retried =>
          some (session.withCall caller
            (call.receive answer ((request caller).onRetryAnswer answer)))
      | _ => none
  | .withRefreshToken token =>
      some { session with auth := session.auth.withRefreshToken token }
  | .withCredentials pdsEndpoint identifier password =>
      some { session with auth := session.auth.withCredentials pdsEndpoint identifier password }

/-- The server does not issue an access token again. -/
def Fresh (session : Session κ) : SessionStep κ → Prop
  | .refresh caller server =>
      ∀ token resp, (session.calls caller).phase = .refreshing token resp →
        ∀ issued, session.auth.issued server token = some issued → issued ∉ session.tokens
  | _ => True

end Session

/-! ## What holds of a call -/

/-- The client follows no more redirects of a request than it may. -/
def Call.Limited (call : Call) : Prop :=
  ∀ exchange ∈ call.exchanges, exchange.redirects.length ≤ maxRedirects

/-- The first request carried the token and was answered by the response, which
reports that the token expired. -/
structure Exchange.Failed (request : SendRequest) (exchange : Exchange) (token : String)
    (resp : Response Value) : Prop where
  request : exchange.request = request.buildRequest token
  answer : exchange.answer = some (.ok resp)
  expired : isTokenExpired resp = true

/-- The call has made no request but one, which failed so. -/
def Call.Failed (request : SendRequest) (call : Call) (token : String) (resp : Response Value) :
    Prop :=
  ∃ first : Exchange, call.exchanges = [first] ∧ first.Failed request token resp

/-- The call has made a retry, for which it had a reason, with another token. -/
def Call.Retried (request : SendRequest) (call : Call) : Prop :=
  ∃ first second failed stored resp, call.exchanges = [first, second] ∧
    first.Failed request failed resp ∧ second.request = request.buildRequest stored ∧
      failed ≠ stored

/-- What holds of a call in a phase, where the given tokens have been stored and
the given one is. -/
def Call.Stage (request : SendRequest) (stored : String) (tokens : List String) (call : Call) :
    Phase → Prop
  | .start => call.exchanges = []
  | .requested token =>
      (∃ first : Exchange, call.exchanges = [first] ∧ first.request = request.buildRequest token) ∧
        token ∈ tokens
  | .expired token resp => call.Failed request token resp ∧ token ∈ tokens
  | .refreshing token resp => call.Failed request token resp ∧ token ∈ tokens
  | .refreshed => ∃ token resp, call.Failed request token resp ∧ token ∈ tokens ∧ stored ≠ token
  | .retried => call.Retried request
  | .done _ => call.exchanges.length ≤ 1 ∨ call.Retried request

/-- What holds of a call. -/
structure Call.Sound (request : SendRequest) (stored : String) (tokens : List String)
    (call : Call) : Prop where
  stage : call.Stage request stored tokens call.phase
  limited : call.Limited

namespace Call.Sound

variable {request : SendRequest} {stored : String} {tokens : List String} {call : Call}

/-- A call does not mind that another token is stored, if it is a new one. -/
theorem renew (sound : call.Sound request stored tokens) {issued : String} {more : List String}
    (fresh : issued ∉ tokens) : call.Sound request issued (tokens ++ more) := by
  refine ⟨?_, sound.limited⟩
  have stage := sound.stage
  unfold Call.Stage at stage ⊢
  split at stage
  · exact stage
  · exact ⟨stage.1, List.mem_append_left _ stage.2⟩
  · exact ⟨stage.1, List.mem_append_left _ stage.2⟩
  · exact ⟨stage.1, List.mem_append_left _ stage.2⟩
  · obtain ⟨token, resp, failed, known, _⟩ := stage
    refine ⟨token, resp, failed, List.mem_append_left _ known, ?_⟩
    rintro rfl
    exact fresh known
  · exact stage
  · exact stage

/-- In every phase a second request is a justified retry. -/
theorem bounded (sound : call.Sound request stored tokens) :
    call.exchanges.length ≤ 1 ∨ call.Retried request := by
  have stage := sound.stage
  unfold Call.Stage at stage
  split at stage
  · exact Or.inl (by rw [stage]; exact Nat.zero_le _)
  · obtain ⟨⟨first, only, _⟩, _⟩ := stage
    exact Or.inl (by rw [only]; rfl)
  · obtain ⟨⟨first, only, _⟩, _⟩ := stage
    exact Or.inl (by rw [only]; rfl)
  · obtain ⟨⟨first, only, _⟩, _⟩ := stage
    exact Or.inl (by rw [only]; rfl)
  · obtain ⟨token, resp, ⟨first, only, _⟩, _⟩ := stage
    exact Or.inl (by rw [only]; rfl)
  · exact Or.inr stage
  · exact stage

end Call.Sound

/-! ## The moves of a call -/

namespace Call

variable {request : SendRequest} {stored : String} {tokens : List String} {call : Call}
  {token : String} {resp : Response Value}

theorem exchanges_note_of_single {first : Exchange} (only : call.exchanges = [first])
    (change : Exchange → Exchange) (phase : Phase) :
    (call.note change phase).exchanges = [change first] := by
  rw [note, only]
  rfl

theorem exchanges_note_of_pair {first second : Exchange} (both : call.exchanges = [first, second])
    (change : Exchange → Exchange) (phase : Phase) :
    (call.note change phase).exchanges = [first, change second] := by
  rw [note, both]
  rfl

theorem Limited.send (limited : call.Limited) (request : ChatRequest) (phase : Phase) :
    (call.send request phase).Limited := by
  intro exchange mem
  rcases List.mem_append.mp mem with earlier | last
  · exact limited exchange earlier
  · rw [List.mem_singleton.mp last]
    exact Nat.zero_le _

theorem Limited.note (limited : call.Limited) {change : Exchange → Exchange} (phase : Phase)
    (kept : ∀ last, call.exchanges.getLast? = some last →
      (change last).redirects.length ≤ maxRedirects) : (call.note change phase).Limited := by
  intro exchange mem
  rcases List.mem_append.mp mem with earlier | last
  · exact limited exchange (List.mem_of_mem_dropLast earlier)
  · rcases List.mem_map.mp last with ⟨out, out_mem, rfl⟩
    exact kept out (Option.mem_toList.mp out_mem)

theorem Limited.receive (limited : call.Limited) (answer : Answer Value) (phase : Phase) :
    (call.receive answer phase).Limited :=
  limited.note phase fun last out => limited last (List.mem_of_getLast? out)

theorem Limited.follow (limited : call.Limited) (may : call.mayFollow = true)
    (redirect : Redirect) : (call.follow redirect).Limited := by
  apply limited.note
  intro last out
  have below : last.redirects.length < maxRedirects := by
    unfold mayFollow at may
    split at may
    · rw [out] at may
      exact of_decide_eq_true may
    · rw [out] at may
      exact of_decide_eq_true may
    · cases may
  rw [List.length_append]
  exact below

theorem Failed.short (failed : call.Failed request token resp) : call.exchanges.length ≤ 1 := by
  rcases failed with ⟨first, only, _⟩
  rw [only]
  rfl

theorem sound_request (idle : call.exchanges = []) (limited : call.Limited)
    (known : stored ∈ tokens) :
    (call.send (request.buildRequest stored) (.requested stored)).Sound request stored tokens where
  stage := by
    refine ⟨⟨⟨request.buildRequest stored, [], none⟩, ?_, rfl⟩, known⟩
    rw [send, idle, List.nil_append]
  limited := limited.send _ _

/-- A redirect changes nothing but what was sent. -/
theorem Sound.follow (sound : call.Sound request stored tokens) (may : call.mayFollow = true)
    (redirect : Redirect) : (call.follow redirect).Sound request stored tokens := by
  refine ⟨?_, sound.limited.follow may redirect⟩
  have stage := sound.stage
  change Stage request stored tokens (call.follow redirect) call.phase
  unfold mayFollow at may
  split at may
  · next token phase =>
      rw [phase] at stage ⊢
      rcases stage with ⟨⟨first, only, carried⟩, known⟩
      exact ⟨⟨_, exchanges_note_of_single only _ _, carried⟩, known⟩
  · next phase =>
      rw [phase] at stage ⊢
      rcases stage with ⟨first, second, failed, stored, resp, both, refused, carried, differ⟩
      exact ⟨first, _, failed, stored, resp, exchanges_note_of_pair both _ _, refused, carried,
        differ⟩
  · cases may

theorem sound_onAnswer {first : Exchange} (only : call.exchanges = [first])
    (carried : first.request = request.buildRequest token) (limited : call.Limited)
    (known : token ∈ tokens) (answer : Answer Value) :
    (call.receive answer (request.onAnswer token answer)).Sound request stored tokens := by
  refine ⟨?_, limited.receive answer _⟩
  have received : (call.receive answer (request.onAnswer token answer)).exchanges =
      [{ first with answer := some answer }] := exchanges_note_of_single only _ _
  have short : (call.receive answer (request.onAnswer token answer)).exchanges.length ≤ 1 := by
    rw [received]
    rfl
  cases answer with
  | error e => exact Or.inl short
  | ok resp =>
      by_cases success : resp.status.isSuccess = true
      · rw [SendRequest.onAnswer, if_pos success] at short ⊢
        exact Or.inl short
      · by_cases expired : isTokenExpired resp = true
        · rw [SendRequest.onAnswer, if_neg success, if_pos expired] at received ⊢
          exact ⟨⟨_, received, carried, rfl, expired⟩, known⟩
        · rw [SendRequest.onAnswer, if_neg success, if_neg expired] at short ⊢
          exact Or.inl short

theorem sound_onCanRefresh (failed : call.Failed request token resp) (limited : call.Limited)
    (known : token ∈ tokens) (canRefresh : Bool) :
    ({ call with phase := request.onCanRefresh token resp canRefresh } : Call).Sound request stored
      tokens := by
  refine ⟨?_, limited⟩
  cases canRefresh with
  | false => exact Or.inl failed.short
  | true => exact ⟨failed, known⟩

theorem sound_onRefresh_error (failed : call.Failed request token resp) (limited : call.Limited)
    (err : SkybaseError) :
    ({ call with phase := request.onRefresh resp (.error err) } : Call).Sound request stored
      tokens :=
  ⟨Or.inl failed.short, limited⟩

theorem sound_onRefresh_ok (failed : call.Failed request token resp) (limited : call.Limited)
    (known : token ∈ tokens) (other : stored ≠ token) :
    ({ call with phase := request.onRefresh resp (.ok ()) } : Call).Sound request stored tokens :=
  ⟨⟨token, resp, failed, known, other⟩, limited⟩

theorem sound_retry (failed : call.Failed request token resp) (limited : call.Limited)
    (other : stored ≠ token) :
    (call.send (request.buildRequest stored) .retried).Sound request stored tokens := by
  refine ⟨?_, limited.send _ _⟩
  rcases failed with ⟨first, only, refused⟩
  refine ⟨first, ⟨request.buildRequest stored, [], none⟩, token, stored, resp, ?_, refused, rfl,
    Ne.symm other⟩
  rw [send, only, List.singleton_append]

theorem Retried.receive (retried : call.Retried request) (answer : Answer Value) (phase : Phase) :
    (call.receive answer phase).Retried request := by
  rcases retried with ⟨first, second, failed, stored, resp, both, refused, carried, differ⟩
  exact ⟨first, _, failed, stored, resp, exchanges_note_of_pair both _ _, refused, carried, differ⟩

theorem sound_onRetryAnswer (retried : call.Retried request) (limited : call.Limited)
    (answer : Answer Value) :
    (call.receive answer (request.onRetryAnswer answer)).Sound request stored tokens := by
  refine ⟨?_, limited.receive answer _⟩
  have kept := retried.receive answer (request.onRetryAnswer answer)
  cases answer with
  | error e => exact Or.inr kept
  | ok resp =>
      rw [SendRequest.onRetryAnswer] at kept ⊢
      split at kept
      · next success =>
          rw [if_pos success]
          exact Or.inr kept
      · next failure =>
          rw [if_neg failure]
          exact Or.inr kept

end Call

/-! ## What holds of a session -/

namespace Session

variable {κ : Type u}

/-- The invariant: what holds of every call, every replaced token was stored
once and is gone. -/
structure Sound (request : κ → SendRequest) (session : Session κ) : Prop where
  stored : session.auth.accessJwt ∈ session.tokens
  calls : ∀ caller,
    (session.calls caller).Sound (request caller) session.auth.accessJwt session.tokens
  replaced : ∀ renewal ∈ session.renewals,
    renewal.1 ∈ session.tokens ∧ renewal.1 ≠ session.auth.accessJwt
  once : (session.renewals.map Prod.fst).Nodup

theorem sound_start (request : κ → SendRequest) (auth : AuthState) :
    (start auth).Sound request where
  stored := List.mem_cons_self
  calls _ := ⟨rfl, List.forall_mem_nil _⟩
  replaced renewal absurd := by cases absurd
  once := List.nodup_nil

/-- What the write lock section does: it leaves the session alone, where the
failed token is gone or nothing is obtained, or it replaces the failed token. -/
theorem refreshed_cases (session : Session κ) (server : SessionServer) (failedToken : String) :
    (session.auth.accessJwt ≠ failedToken ∧ session.refreshed server failedToken = session ∧
        (session.auth.refreshSessionOrRelogin server failedToken).1 = .ok ()) ∨
      (∃ err, session.refreshed server failedToken = session ∧
        (session.auth.refreshSessionOrRelogin server failedToken).1 = .error err) ∨
      ∃ issued refreshJwt, session.auth.accessJwt = failedToken ∧
        session.auth.issued server failedToken = some issued ∧
        (session.auth.refreshSessionOrRelogin server failedToken).1 = .ok () ∧
        session.refreshed server failedToken =
          { session with
            auth := session.auth.store issued refreshJwt
            renewals := session.renewals ++ [(failedToken, issued)]
            tokens := session.tokens ++ [issued] } := by
  unfold refreshed AuthState.issued
  rcases session.auth.refreshSessionOrRelogin_cases server failedToken with
    ⟨other, obtained, result⟩ | ⟨err, obtained, result⟩ |
      ⟨issued, refreshJwt, same, obtained, result⟩
  · refine Or.inl ⟨other, ?_, ?_⟩
    · simp only [obtained, result, Option.toList_none, List.map_nil, List.append_nil]
    · rw [result]
  · refine Or.inr (Or.inl ⟨err, ?_, ?_⟩)
    · simp only [obtained, result, Option.toList_none, List.map_nil, List.append_nil]
    · rw [result]
  · refine Or.inr (Or.inr ⟨issued, refreshJwt, same, ?_, ?_, ?_⟩)
    · rw [obtained]
    · rw [result]
    · simp only [obtained, result, same, Option.toList_some, List.map_cons, List.map_nil]

variable {request : κ → SendRequest}

namespace Sound

variable {session : Session κ}

/-- Changes of the refresh token and the credentials do not matter. -/
theorem withAuth (sound : session.Sound request) {auth : AuthState}
    (same : auth.accessJwt = session.auth.accessJwt) :
    ({ session with auth } : Session κ).Sound request where
  stored := by
    rw [same]
    exact sound.stored
  calls caller := by
    rw [same]
    exact sound.calls caller
  replaced renewal mem := by
    rw [same]
    exact sound.replaced renewal mem
  once := sound.once

/-- A new token may replace the stored one. -/
theorem renew (sound : session.Sound request) {issued : String} (refreshJwt : Option String)
    (fresh : issued ∉ session.tokens) :
    ({ session with
        auth := session.auth.store issued refreshJwt
        renewals := session.renewals ++ [(session.auth.accessJwt, issued)]
        tokens := session.tokens ++ [issued] } : Session κ).Sound request where
  stored := List.mem_append_right _ List.mem_cons_self
  calls caller := (sound.calls caller).renew fresh
  replaced := by
    have gone : ∀ token ∈ session.tokens, token ∈ session.tokens ++ [issued] ∧ token ≠ issued := by
      intro token known
      constructor
      · exact List.mem_append_left _ known
      · rintro rfl
        exact fresh known
    intro renewal mem
    rcases List.mem_append.mp mem with earlier | last
    · exact gone renewal.1 (sound.replaced renewal earlier).1
    · rw [List.mem_singleton.mp last]
      exact gone session.auth.accessJwt sound.stored
  once := by
    rw [List.map_append, List.nodup_append]
    refine ⟨sound.once, List.pairwise_singleton _ _, ?_⟩
    intro token earlier other last
    rw [List.map_singleton, List.mem_singleton] at last
    rcases List.mem_map.mp earlier with ⟨renewal, mem, rfl⟩
    rw [last]
    exact (sound.replaced renewal mem).2

/-- Each token is replaced at most once. -/
theorem renewedOnce (sound : session.Sound request) (token : String) :
    (session.renewals.filter fun renewal => renewal.1 = token).length ≤ 1 := by
  have counted : (session.renewals.filter fun renewal => renewal.1 = token).length =
      (session.renewals.map Prod.fst).count token := by
    rw [List.count_eq_countP, List.countP_map, List.countP_eq_length_filter]
    rfl
  rw [counted]
  exact List.nodup_iff_count_le_one.mp sound.once token

variable [DecidableEq κ]

/-- A call may be replaced by a sound one. -/
theorem withCall (sound : session.Sound request) (caller : κ) {call : Call}
    (callSound : call.Sound (request caller) session.auth.accessJwt session.tokens) :
    (session.withCall caller call).Sound request where
  stored := sound.stored
  calls other := by
    rw [Session.withCall]
    dsimp only
    by_cases same : other = caller
    · subst same
      rw [Function.update_self]
      exact callSound
    · rw [Function.update_of_ne same]
      exact sound.calls other
  replaced := sound.replaced
  once := sound.once

end Sound

variable [DecidableEq κ]

/-- The step lemma. -/
theorem sound_next {source target : Session κ} {step : SessionStep κ}
    (sound : source.Sound request) (fresh : source.Fresh step)
    (stepped : next request source step = some target) : target.Sound request := by
  cases step with
  | request caller =>
      have before := sound.calls caller
      simp only [next] at stepped
      split at stepped
      · next phase =>
          cases stepped
          have stage := before.stage
          rw [phase] at stage
          exact sound.withCall caller (Call.sound_request stage before.limited sound.stored)
      · cases stepped
  | redirect caller redirect =>
      simp only [next] at stepped
      split at stepped
      · next followed =>
          cases stepped
          have may := (Bool.and_eq_true_iff.mp followed).1
          exact sound.withCall caller ((sound.calls caller).follow may redirect)
      · cases stepped
  | answer caller answer =>
      have before := sound.calls caller
      simp only [next] at stepped
      split at stepped
      · next token phase =>
          cases stepped
          have stage := before.stage
          rw [phase] at stage
          obtain ⟨⟨first, only, carried⟩, known⟩ := stage
          exact sound.withCall caller
            (Call.sound_onAnswer only carried before.limited known answer)
      · cases stepped
  | canRefresh caller =>
      have before := sound.calls caller
      simp only [next] at stepped
      split at stepped
      · next token resp phase =>
          cases stepped
          have stage := before.stage
          rw [phase] at stage
          exact sound.withCall caller
            (Call.sound_onCanRefresh stage.1 before.limited stage.2 _)
      · cases stepped
  | refresh caller server =>
      have before := sound.calls caller
      simp only [next] at stepped
      split at stepped
      · next token resp phase =>
          cases stepped
          have stage := before.stage
          rw [phase] at stage
          obtain ⟨failed, known⟩ := stage
          rcases source.refreshed_cases server token with
            ⟨other, same, result⟩ | ⟨err, same, result⟩ |
              ⟨issued, refreshJwt, rfl, obtained, result, renewed⟩
          · rw [same, result]
            exact sound.withCall caller
              (Call.sound_onRefresh_ok failed before.limited known other)
          · rw [same, result]
            exact sound.withCall caller (Call.sound_onRefresh_error failed before.limited err)
          · have unknown : issued ∉ source.tokens := fresh _ resp phase issued obtained
            have other : issued ≠ source.auth.accessJwt := by
              rintro rfl
              exact unknown known
            rw [renewed, result]
            apply (sound.renew refreshJwt unknown).withCall
            exact Call.sound_onRefresh_ok failed before.limited (List.mem_append_left _ known)
              other
      · cases stepped
  | retry caller =>
      have before := sound.calls caller
      simp only [next] at stepped
      split at stepped
      · next phase =>
          cases stepped
          have stage := before.stage
          rw [phase] at stage
          obtain ⟨token, resp, failed, _, other⟩ := stage
          exact sound.withCall caller (Call.sound_retry failed before.limited other)
      · cases stepped
  | retryAnswer caller answer =>
      have before := sound.calls caller
      simp only [next] at stepped
      split at stepped
      · next phase =>
          cases stepped
          have stage := before.stage
          rw [phase] at stage
          exact sound.withCall caller (Call.sound_onRetryAnswer stage before.limited answer)
      · cases stepped
  | withRefreshToken token =>
      rw [next, Option.some.injEq] at stepped
      subst stepped
      apply sound.withAuth
      rw [AuthState.withRefreshToken]
      split <;> rfl
  | withCredentials pdsEndpoint identifier password =>
      rw [next, Option.some.injEq] at stepped
      subst stepped
      exact sound.withAuth rfl

/-- The run lemma. -/
theorem sound_run {auth : AuthState} {steps : List (SessionStep κ)} {final : Session κ}
    (reached : run (next request) (start auth) steps = some final)
    (fresh : Along (next request) Fresh (start auth) steps) : final.Sound request :=
  Transition.invariant_of_along (fun _ _ _ => sound_next) (sound_start request auth) fresh reached

end Session

theorem isTokenExpired_iff (resp : Response Value) :
    isTokenExpired resp = true ↔
      resp.status.code = 401 ∨
        (resp.status.code = 400 ∧ "ExpiredToken".toList <:+: resp.text.toList) := by
  rw [isTokenExpired, Bool.or_eq_true, Bool.and_eq_true, StatusCode.isUnauthorized,
    StatusCode.isBadRequest, beq_iff_eq, beq_iff_eq, Text.containsText_iff]

/-! ## What is sent -/

/-- Beside the requests of its exchanges a call sends one for every redirect. -/
theorem Call.length_sent (call : Call) :
    call.sent.length = call.exchanges.length + call.redirects.length := by
  rw [sent, redirects]
  induction call.exchanges with
  | nil => rfl
  | cons exchange exchanges ih =>
      rw [List.flatMap_cons, List.flatMap_cons, List.length_append, List.length_append, ih,
        List.length_cons, Exchange.sent, List.length_scanl]
      omega

/-- What follows a redirect carries the token of the request, or none. -/
theorem bearer_of_mem_scanl {redirects : List Redirect} {request resent : ChatRequest}
    (mem : resent ∈ redirects.scanl ChatRequest.redirected request) :
    resent.bearer = request.bearer ∨ resent.bearer = none := by
  induction redirects generalizing request with
  | nil =>
      rw [List.scanl_nil, List.mem_singleton] at mem
      rw [mem]
      exact Or.inl rfl
  | cons redirect redirects ih =>
      rw [List.scanl_cons, List.mem_cons] at mem
      rcases mem with rfl | later
      · exact Or.inl rfl
      · have carried : (request.redirected redirect).bearer = request.bearer ∨
            (request.redirected redirect).bearer = none := by
          rw [ChatRequest.redirected]
          cases redirect.sameHost with
          | true => exact Or.inl rfl
          | false => exact Or.inr rfl
        rcases ih later with same | dropped
        · rw [same]
          exact carried
        · exact Or.inr dropped

/-- Single flight.  If the server issues no access token that was stored before,
then at the end of every run each token has been replaced at most once.  Each
call has made at most two requests, the second one only after an answer to the
first that reports an expired token, and with another token.  All else that it
sent follows redirects, at most ten for each of the two, and carries the token
of the request or none. -/
theorem singleFlight_run {κ : Type u} [DecidableEq κ] (request : κ → SendRequest)
    (auth : AuthState) {steps : List (SessionStep κ)} {final : Session κ}
    (reached : run (Session.next request) (Session.start auth) steps = some final)
    (fresh : Along (Session.next request) Session.Fresh (Session.start auth) steps) :
    (∀ token, (final.renewals.filter fun renewal => renewal.1 = token).length ≤ 1) ∧
      ∀ caller, (final.calls caller).sent.length ≤ 2 + (final.calls caller).redirects.length ∧
        (final.calls caller).exchanges.length ≤ 2 ∧
        (∀ exchange ∈ (final.calls caller).exchanges, exchange.redirects.length ≤ 10 ∧
          ∀ resent ∈ exchange.sent,
            resent.bearer = exchange.request.bearer ∨ resent.bearer = none) ∧
        ∀ first second, (final.calls caller).exchanges = [first, second] →
          first.request.bearer ≠ second.request.bearer ∧
            ∃ resp, first.answer = some (.ok resp) ∧
              (resp.status.code = 401 ∨
                (resp.status.code = 400 ∧ "ExpiredToken".toList <:+: resp.text.toList)) := by
  have sound := Session.sound_run reached fresh
  constructor
  · exact sound.renewedOnce
  · intro caller
    have two : (final.calls caller).exchanges.length ≤ 2 := by
      rcases (sound.calls caller).bounded with short | retried
      · exact short.trans (by decide)
      · obtain ⟨first, second, failed, stored, resp, both, _⟩ := retried
        rw [both]
        rfl
    refine ⟨?_, two, ?_, ?_⟩
    · rw [Call.length_sent]
      exact Nat.add_le_add_right two _
    · intro exchange mem
      exact ⟨(sound.calls caller).limited exchange mem, fun resent => bearer_of_mem_scanl⟩
    · intro first second made
      rcases (sound.calls caller).bounded with short | retried
      · rw [made] at short
        exact absurd short (Nat.not_succ_le_self 1)
      · obtain ⟨_, _, failed, stored, resp, both, refused, carried, differ⟩ := retried
        rw [made] at both
        cases both
        constructor
        · rw [refused.request, carried]
          intro same
          exact differ (Option.some.inj same)
        · exact ⟨resp, refused.answer, (isTokenExpired_iff resp).mp refused.expired⟩

/-! ## A bot -/

/-- A request for the conversations. -/
def listConvos : SendRequest := ⟨"listConvos", "GET", "/xrpc/chat.bsky.convo.listConvos", none⟩

/-- A response with an empty body. -/
def emptyResponse (status : StatusCode) : Response Value := ⟨status, "", .error "EOF"⟩

/-- The state of a client with credentials. -/
def botAuth : AuthState :=
  (AuthState.new "token1").withCredentials "https://pds.example.com" "bot" "secret"

/-- A server that accepts every login and every refresh token. -/
def botServer : SessionServer where
  build := none
  refreshSession _ _ := .ok ⟨⟨200, "200 OK"⟩, "", .ok ⟨"token2", none⟩⟩
  createSession _ _ _ := .ok ⟨⟨200, "200 OK"⟩, "", .ok ⟨"did:plc:bot", "token2", none⟩⟩

/-- A service that has moved. -/
def moved : Redirect := ⟨⟨307, "307 Temporary Redirect"⟩, "https://chat.example.com", true⟩

/-- Two calls fail with one token, one of them after a redirect; the second to
get the lock finds another one. -/
theorem singleFlight_run_listConvos :
    let unauthorized := emptyResponse ⟨401, "401 Unauthorized"⟩
    let steps : List (SessionStep Bool) :=
      [.request false, .request true, .redirect true moved, .answer false (.ok unauthorized),
        .answer true (.ok unauthorized), .canRefresh false, .canRefresh true,
        .refresh false botServer, .refresh true botServer, .retry true]
    ∃ final, run (Session.next fun _ => listConvos) (Session.start botAuth) steps = some final ∧
      (final.calls true).sent =
        [listConvos.buildRequest "token1", (listConvos.buildRequest "token1").redirected moved,
          listConvos.buildRequest "token2"] ∧
      (∀ token, (final.renewals.filter fun renewal => renewal.1 = token).length ≤ 1) ∧
      (final.calls true).exchanges.length ≤ 2 := by
  intro unauthorized steps
  have reached : run (Session.next fun _ => listConvos) (Session.start botAuth) steps = some _ :=
    rfl
  have fresh : Along (Session.next fun _ => listConvos) Session.Fresh (Session.start botAuth)
      steps := by
    -- only the two refreshes ask anything of the server
    iterate 7 apply Transition.along_cons_of_step trivial rfl
    apply Transition.along_cons_of_step _ rfl
    · apply Transition.along_cons_of_step _ rfl
      · exact Transition.along_cons_of_step trivial rfl trivial
      · intro token resp phase issued obtained
        obtain ⟨rfl, _⟩ := Phase.refreshing.inj phase
        have nothing : none = some issued := obtained
        cases nothing
    · intro token resp phase issued obtained
      obtain ⟨rfl, _⟩ := Phase.refreshing.inj phase
      have renewed : some "token2" = some issued := obtained
      cases renewed
      decide
  have once := singleFlight_run (fun _ => listConvos) botAuth reached fresh
  exact ⟨_, reached, rfl, once.1, (once.2 true).2.1⟩

/-- A service that moves twice is sent three requests with one token, before it
has answered any. -/
theorem three_requests_redirected :
    let steps : List (SessionStep Unit) := [.request (), .redirect () moved, .redirect () moved]
    ∃ final, run (Session.next fun _ => listConvos) (Session.start botAuth) steps = some final ∧
      Along (Session.next fun _ => listConvos) Session.Fresh (Session.start botAuth) steps ∧
      2 < (final.calls ()).sent.length ∧
      (final.calls ()).sent.map ChatRequest.bearer =
        [some "token1", some "token1", some "token1"] ∧
      (final.calls ()).exchanges.filterMap Exchange.answer = [] := by
  intro steps
  have reached : run (Session.next fun _ => listConvos) (Session.start botAuth) steps = some _ :=
    rfl
  have fresh : Along (Session.next fun _ => listConvos) Session.Fresh (Session.start botAuth)
      steps := by
    iterate 3 apply Transition.along_cons_of_step trivial rfl
    trivial
  exact ⟨_, reached, fresh, Nat.le_refl 3, rfl, rfl⟩

end Skybase.Chat
