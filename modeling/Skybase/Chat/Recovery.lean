import Skybase.Chat.Session

/-!
# Recovery from an expired token

`can_refresh` asks for a refresh token or for credentials, but a refresh needs
the credentials in either case: only they name the server to ask.  A client that
holds a refresh token alone decides to refresh and then fails.
-/

namespace Skybase.Chat

open Skybase.Json
open Skybase.Transition (run run_cons)

universe u

/-- The requests that the stored session gives rise to are accepted, with
well-formed responses. -/
structure SessionServer.Accepts (server : SessionServer) (auth : AuthState) : Prop where
  build : server.build = none
  refreshSession : ∀ creds refreshJwt, auth.credentials = some creds →
    auth.refreshJwt = some refreshJwt →
      ∃ refreshed, Accepted (server.refreshSession creds.refreshUrl refreshJwt) refreshed
  createSession : ∀ creds, auth.credentials = some creds →
    ∃ session,
      Accepted (server.createSession creds.loginUrl creds.identifier creds.password) session

/-- The server issues the access token for the stored refresh token or for the
stored credentials. -/
def SessionServer.Issues (server : SessionServer) (auth : AuthState) (token : String) : Prop :=
  (∃ url refreshJwt refreshed, auth.refreshJwt = some refreshJwt ∧
      Accepted (server.refreshSession url refreshJwt) refreshed ∧ refreshed.accessJwt = token) ∨
    ∃ url creds session, auth.credentials = some creds ∧
      Accepted (server.createSession url creds.identifier creds.password) session ∧
        session.accessJwt = token

/-- With credentials, an accepting server issues tokens. -/
theorem AuthState.renew_of_accepts {server : SessionServer} {auth : AuthState}
    {creds : BotCredentials} (accepts : server.Accepts auth)
    (hasCreds : auth.credentials = some creds) :
    ∃ tokens, auth.renew server = .ok tokens ∧ server.Issues auth tokens.1 := by
  rcases accepts.createSession creds hasCreds with ⟨session, loggedIn⟩
  cases hasRefresh : auth.refreshJwt with
  | some refreshJwt =>
      rcases accepts.refreshSession creds refreshJwt hasCreds hasRefresh with
        ⟨refreshed, accepted⟩
      refine ⟨(refreshed.accessJwt, refreshed.refreshJwt), ?_, ?_⟩
      · rw [renew, refreshSession_of_accepted hasRefresh hasCreds accepted]
      · exact Or.inl ⟨_, refreshJwt, refreshed, hasRefresh, accepted, rfl⟩
  | none =>
      have noRefresh : auth.refreshSession server = none := by
        rw [refreshSession, hasRefresh]
      refine ⟨(session.accessJwt, session.refreshJwt), ?_, ?_⟩
      · rw [renew, noRefresh, hasCreds]
        dsimp only
        rw [relogin_of_accepted loggedIn]
        rfl
      · exact Or.inr ⟨_, creds, session, hasCreds, loggedIn, rfl⟩

/-- With credentials, a call whose token failed stores an issued one. -/
theorem AuthState.refreshSessionOrRelogin_of_accepts {server : SessionServer} {auth : AuthState}
    {creds : BotCredentials} (accepts : server.Accepts auth)
    (hasCreds : auth.credentials = some creds) :
    ∃ token refreshJwt, server.Issues auth token ∧
      auth.refreshSessionOrRelogin server auth.accessJwt =
        (.ok (), auth.store token refreshJwt) := by
  rcases auth.renew_of_accepts accepts hasCreds with ⟨tokens, renewed, issues⟩
  refine ⟨tokens.1, tokens.2, issues, ?_⟩
  rw [refreshSessionOrRelogin, renewal, if_neg (not_not.mpr rfl), accepts.build, renewed]
  rfl

/-- Without credentials, a call whose token failed fails. -/
theorem AuthState.refreshSessionOrRelogin_of_no_credentials (server : SessionServer)
    {auth : AuthState} (noCreds : auth.credentials = none) :
    ∃ err, auth.refreshSessionOrRelogin server auth.accessJwt = (.error err, auth) := by
  rw [refreshSessionOrRelogin, renewal, if_neg (not_not.mpr rfl),
    renew_of_no_credentials server noCreds]
  cases server.build with
  | some e => exact ⟨_, rfl⟩
  | none => exact ⟨_, rfl⟩

theorem not_isSuccess_of_isTokenExpired {resp : Response Value}
    (expired : isTokenExpired resp = true) : ¬ resp.status.isSuccess = true := by
  rw [isTokenExpired, Bool.or_eq_true, Bool.and_eq_true] at expired
  exact StatusCode.not_isSuccess (expired.imp_right And.left)

namespace Session

variable {κ : Type u} [DecidableEq κ]

/-- The steps of a call that runs alone, from its start to the request for the
write lock. -/
def failingSteps (caller : κ) (resp : Response Value) : List (SessionStep κ) :=
  [.request caller, .answer caller (.ok resp), .canRefresh caller]

/-- The call obtains a new access token from the server and sends its retry with
it, when it runs alone and its first response is the given one. -/
def Recovers (request : κ → SendRequest) (session : Session κ) (caller : κ)
    (resp : Response Value) (server : SessionServer) : Prop :=
  ∃ final token,
    run (next request) session
        (failingSteps caller resp ++ [.refresh caller server, .retry caller]) = some final ∧
      server.Issues session.auth token ∧ final.auth.accessJwt = token ∧
      (final.calls caller).sent =
        [(request caller).buildRequest session.auth.accessJwt,
          (request caller).buildRequest token]

section Alone

variable (request : κ → SendRequest) (session : Session κ) (caller : κ)

theorem next_withCall_request :
    next request (session.withCall caller .idle) (.request caller) =
      some (session.withCall caller
        ⟨.requested session.auth.accessJwt,
          [⟨(request caller).buildRequest session.auth.accessJwt, [], none⟩]⟩) := by
  simp only [next, withCall, Function.update_self, Function.update_idem, Call.idle, Call.send,
    List.nil_append]

theorem next_withCall_answer (token : String) (first : Exchange) (answer : Answer Value) :
    next request (session.withCall caller ⟨.requested token, [first]⟩) (.answer caller answer) =
      some (session.withCall caller
        ⟨(request caller).onAnswer token answer, [{ first with answer := some answer }]⟩) := by
  simp only [next, withCall, Function.update_self, Function.update_idem, Call.receive, Call.note]
  rfl

theorem next_withCall_canRefresh (token : String) (resp : Response Value)
    (exchanges : List Exchange) :
    next request (session.withCall caller ⟨.expired token resp, exchanges⟩)
        (.canRefresh caller) =
      some (session.withCall caller
        ⟨(request caller).onCanRefresh token resp session.auth.canRefresh, exchanges⟩) := by
  simp only [next, withCall, Function.update_self, Function.update_idem]

theorem next_withCall_refresh (token : String) (resp : Response Value)
    (exchanges : List Exchange) (server : SessionServer) :
    next request (session.withCall caller ⟨.refreshing token resp, exchanges⟩)
        (.refresh caller server) =
      some ((session.refreshed server token).withCall caller
        ⟨(request caller).onRefresh resp (session.auth.refreshSessionOrRelogin server token).1,
          exchanges⟩) := by
  simp only [next, withCall, refreshed, Function.update_self, Function.update_idem]

theorem next_withCall_retry (exchanges : List Exchange) :
    next request (session.withCall caller ⟨.refreshed, exchanges⟩) (.retry caller) =
      some (session.withCall caller
        ⟨.retried, exchanges ++
          [⟨(request caller).buildRequest session.auth.accessJwt, [], none⟩]⟩) := by
  simp only [next, withCall, Function.update_self, Function.update_idem, Call.send]

end Alone

/-- A call that runs alone and fails with an expired token gets to the write
lock, and the refresh decides about its retry. -/
theorem run_failingSteps_append (request : κ → SendRequest) {session : Session κ} {caller : κ}
    {resp : Response Value} (idle : session.calls caller = .idle)
    (expired : isTokenExpired resp = true) (refreshable : session.auth.canRefresh = true)
    (server : SessionServer) (rest : List (SessionStep κ)) :
    run (next request) session (failingSteps caller resp ++ .refresh caller server :: rest) =
      run (next request)
        ((session.refreshed server session.auth.accessJwt).withCall caller
          ⟨(request caller).onRefresh resp
              (session.auth.refreshSessionOrRelogin server session.auth.accessJwt).1,
            [⟨(request caller).buildRequest session.auth.accessJwt, [], some (.ok resp)⟩]⟩)
        rest := by
  have begun : session = session.withCall caller .idle := by
    rw [withCall, ← idle, Function.update_eq_self]
  have answered : (request caller).onAnswer session.auth.accessJwt (.ok resp) =
      .expired session.auth.accessJwt resp := by
    rw [SendRequest.onAnswer, if_neg (not_isSuccess_of_isTokenExpired expired), if_pos expired]
  have asked : (request caller).onCanRefresh session.auth.accessJwt resp session.auth.canRefresh =
      .refreshing session.auth.accessJwt resp := by
    rw [SendRequest.onCanRefresh, if_pos refreshable]
  have start := next_withCall_request request session caller
  rw [← begun] at start
  rw [failingSteps, List.cons_append, List.cons_append, List.cons_append, List.nil_append, run_cons,
    start, Option.bind_some, run_cons, next_withCall_answer, answered, Option.bind_some, run_cons,
    next_withCall_canRefresh, asked, Option.bind_some, run_cons, next_withCall_refresh,
    Option.bind_some]

/-- A call that runs alone and is told that its token expired recovers, on a
server that accepts what is stored, exactly if credentials are stored. -/
theorem recovers_iff (request : κ → SendRequest) {session : Session κ} {caller : κ}
    (idle : session.calls caller = .idle) (refreshable : session.auth.canRefresh = true)
    {resp : Response Value} (expired : isTokenExpired resp = true) {server : SessionServer}
    (accepts : server.Accepts session.auth) :
    session.Recovers request caller resp server ↔ session.auth.credentials.isSome = true := by
  have decided := run_failingSteps_append request idle expired refreshable server
    [.retry caller]
  cases hasCreds : session.auth.credentials with
  | none =>
      rcases AuthState.refreshSessionOrRelogin_of_no_credentials server hasCreds with ⟨err, failed⟩
      have stuck : run (next request) session
          (failingSteps caller resp ++ [.refresh caller server, .retry caller]) = none := by
        rw [decided, failed, run_cons]
        simp only [next, withCall, Function.update_self, SendRequest.onRefresh, Option.bind_none]
      constructor
      · rintro ⟨final, token, reached, _⟩
        rw [stuck] at reached
        cases reached
      · intro absurd
        cases absurd
  | some creds =>
      rcases AuthState.refreshSessionOrRelogin_of_accepts accepts hasCreds with
        ⟨token, refreshJwt, issues, succeeded⟩
      constructor
      · intro _
        rfl
      · intro _
        have stored : (session.refreshed server session.auth.accessJwt).auth.accessJwt = token := by
          rw [refreshed, succeeded]
          rfl
        have reached := next_withCall_retry request
          (session.refreshed server session.auth.accessJwt) caller
          [⟨(request caller).buildRequest session.auth.accessJwt, [], some (.ok resp)⟩]
        rw [succeeded, SendRequest.onRefresh, Transition.run_singleton, reached] at decided
        refine ⟨_, token, decided, issues, stored, ?_⟩
        rw [calls_withCall, stored]
        rfl

end Session

/-! ## A refresh token alone -/

/-- A bot with credentials recovers. -/
theorem recovers_botAuth :
    (Session.start botAuth : Session Unit).Recovers (fun _ => listConvos) ()
      (emptyResponse ⟨401, "401 Unauthorized"⟩) botServer := by
  have accepts : botServer.Accepts botAuth :=
    { build := rfl
      refreshSession := fun creds refreshJwt _ _ => ⟨_, _, rfl, rfl, rfl⟩
      createSession := fun creds _ => ⟨_, _, rfl, rfl, rfl⟩ }
  exact (Session.recovers_iff (fun _ => listConvos) rfl rfl rfl accepts).mpr rfl

/-- A client with a refresh token and no credentials, whose token is accepted at
every URL, fails at the refresh. -/
theorem not_recovers_refreshToken :
    let auth := (AuthState.new "token1").withRefreshToken "refresh1"
    let unauthorized := emptyResponse ⟨401, "401 Unauthorized"⟩
    let session : Session Unit := Session.start auth
    auth.canRefresh = true ∧ isTokenExpired unauthorized = true ∧
      (∀ url, Accepted (botServer.refreshSession url "refresh1") ⟨"token2", none⟩) ∧
      botServer.Accepts auth ∧
      ¬ session.Recovers (fun _ => listConvos) () unauthorized botServer ∧
      ∃ final message,
        run (Session.next fun _ => listConvos) session
            (Session.failingSteps () unauthorized ++ [.refresh () botServer]) = some final ∧
          (final.calls ()).phase = .done (.error (.chat message)) := by
  intro auth unauthorized session
  have accepts : botServer.Accepts auth :=
    { build := rfl
      refreshSession := fun creds refreshJwt _ _ => ⟨_, _, rfl, rfl, rfl⟩
      createSession := fun creds _ => ⟨_, _, rfl, rfl, rfl⟩ }
  refine ⟨rfl, rfl, fun url => ⟨_, rfl, rfl, rfl⟩, accepts, ?_, _, _, rfl, rfl⟩
  rintro ⟨final, token, reached, _⟩
  have stuck : run (Session.next fun _ => listConvos) session
      (Session.failingSteps () unauthorized ++ [.refresh () botServer, .retry ()]) = none := rfl
  rw [stuck] at reached
  cases reached

end Skybase.Chat
