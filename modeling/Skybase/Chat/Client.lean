import Skybase.Error
import Skybase.Http
import Skybase.Json.Value
import Skybase.Text

/-!
# The chat client

Clones of a client share one `AuthState` behind a lock.  `send_request` is
presented by the phases between its lock sections and its requests: each
definition here is what the code does from one of them to the next.  The answers
of the servers are parameters.  `ChatClient::new` leaves the redirect policy of
the HTTP client as it is, so that a request can be sent again, to another URL,
before it is answered.
-/

namespace Skybase.Chat

open Skybase.Json

/-! ## The stored session -/

/-- `BotCredentials`. -/
structure BotCredentials where
  pdsEndpoint : String
  identifier : String
  password : String

/-- `AuthState`. -/
structure AuthState where
  accessJwt : String
  refreshJwt : Option String
  credentials : Option BotCredentials

/-- A response, by what `text` reads from its body, the empty text for a
failure, and by what `json` decodes. -/
structure Response (σ : Type) where
  status : StatusCode
  text : String
  json : Except String σ

/-- The answer to a request: a response, or the error of the transport. -/
abbrev Answer (σ : Type) := Except String (Response σ)

/-- `RefreshSessionResponse`. -/
structure RefreshSessionResponse where
  accessJwt : String
  refreshJwt : Option String

/-- `CreateSessionResponse`. -/
structure CreateSessionResponse where
  did : String
  accessJwt : String
  refreshJwt : Option String

/-- What `refresh_session_or_relogin` meets: the error of building an HTTP
client, if there is one, and the answers of the account server, to a URL with a
bearer token and to one with an identifier and a password, behind all redirects
that the client follows. -/
structure SessionServer where
  build : Option String
  refreshSession : String → String → Answer RefreshSessionResponse
  createSession : String → String → String → Answer CreateSessionResponse

namespace BotCredentials

/-- The URL of `refreshSession`. -/
def refreshUrl (creds : BotCredentials) : String :=
  Text.trimEndMatches creds.pdsEndpoint '/' ++ "/xrpc/com.atproto.server.refreshSession"

/-- The URL of `createSession`. -/
def loginUrl (creds : BotCredentials) : String :=
  Text.trimEndMatches creds.pdsEndpoint '/' ++ "/xrpc/com.atproto.server.createSession"

end BotCredentials

namespace AuthState

/-- The state of a client from `ChatClient::new`. -/
def new (token : String) : AuthState := ⟨token, none, none⟩

/-- `ChatClient::with_refresh_token`, where the lock is free. -/
def withRefreshToken (auth : AuthState) (token : String) : AuthState :=
  if (Text.trim token).isEmpty then auth else { auth with refreshJwt := some token }

/-- `ChatClient::with_credentials`, where the lock is free. -/
def withCredentials (auth : AuthState) (pdsEndpoint identifier password : String) : AuthState :=
  { auth with
    credentials := some ⟨Text.trimEndMatches pdsEndpoint '/', identifier, password⟩ }

/-- `ChatClient::can_refresh`. -/
def canRefresh (auth : AuthState) : Bool := auth.refreshJwt.isSome || auth.credentials.isSome

/-- The assignments that follow an accepted refresh or login. -/
def store (auth : AuthState) (accessJwt : String) (refreshJwt : Option String) : AuthState where
  accessJwt := accessJwt
  refreshJwt :=
    match refreshJwt with
    | some newRefresh => if (Text.trim newRefresh).isEmpty then auth.refreshJwt else some newRefresh
    | none => auth.refreshJwt
  credentials := auth.credentials

/-! ## Refreshing -/

/-- Strategy 1; `none` where the code falls back to the login. -/
def refreshSession (server : SessionServer) (auth : AuthState) : Option RefreshSessionResponse :=
  match auth.refreshJwt, auth.credentials with
  | some refreshJwt, some creds =>
      match server.refreshSession creds.refreshUrl refreshJwt with
      | .ok resp => if resp.status.isSuccess then resp.json.toOption else none
      | .error _ => none
  | _, _ => none

/-- Strategy 2, with the stored credentials. -/
def relogin (server : SessionServer) (creds : BotCredentials) :
    Except SkybaseError CreateSessionResponse :=
  match server.createSession creds.loginUrl creds.identifier creds.password with
  | .error e => .error (.chat s!"Re-login request failed: {e}")
  | .ok resp =>
      if resp.status.isSuccess then
        match resp.json with
        | .ok session => .ok session
        | .error e => .error (.chat s!"Failed to parse createSession response: {e}")
      else
        .error (.chat
          s!"Failed to re-authenticate bot session at {creds.loginUrl} (HTTP {resp.status.display}): {resp.text}")

/-- What the two strategies obtain: an access token, and a refresh token if the
server sent one. -/
def renew (server : SessionServer) (auth : AuthState) :
    Except SkybaseError (String × Option String) :=
  match auth.refreshSession server with
  | some refreshed => .ok (refreshed.accessJwt, refreshed.refreshJwt)
  | none =>
      match auth.credentials with
      | some creds =>
          (relogin server creds).map fun session => (session.accessJwt, session.refreshJwt)
      | none =>
          .error (.chat
            "Session token expired, but no refresh token or credentials configured to refresh")

/-- The tokens that a call with a failed token obtains, and none where another
one has replaced that token already. -/
def renewal (server : SessionServer) (failedToken : String) (auth : AuthState) :
    Except SkybaseError (Option (String × Option String)) :=
  if auth.accessJwt ≠ failedToken then .ok none
  else
    match server.build with
    | some e => .error (.chat s!"Failed to build refresh HTTP client: {e}")
    | none => (auth.renew server).map some

/-- `ChatClient::refresh_session_or_relogin`, the section under the write lock. -/
def refreshSessionOrRelogin (server : SessionServer) (failedToken : String) (auth : AuthState) :
    Except SkybaseError Unit × AuthState :=
  match auth.renewal server failedToken with
  | .error e => (.error e, auth)
  | .ok none => (.ok (), auth)
  | .ok (some (accessJwt, refreshJwt)) => (.ok (), auth.store accessJwt refreshJwt)

end AuthState

/-! ## Requests -/

/-- The arguments of `send_request`. -/
structure SendRequest where
  opName : String
  method : String
  url : String
  body : Option Value

/-- A request to the chat service. -/
structure ChatRequest where
  method : String
  url : String
  bearer : Option String
  body : Option Value

/-- `ChatClient::build_request`. -/
def SendRequest.buildRequest (request : SendRequest) (token : String) : ChatRequest where
  method := request.method
  url := request.url
  bearer := some token
  body := request.body

/-- A response that sends the client on to another URL, which has the host and
the port of the last one or not. -/
structure Redirect where
  status : StatusCode
  location : String
  sameHost : Bool

namespace Redirect

/-- The responses that `reqwest` follows. -/
def isFollowed (redirect : Redirect) : Bool :=
  [301, 302, 303, 307, 308].contains redirect.status.code

/-- Whether the next request is a `GET` without a body. -/
def turnsToGet (redirect : Redirect) (method : String) : Bool :=
  redirect.status.code == 303 ||
    ([301, 302].contains redirect.status.code && method == "POST")

end Redirect

/-- The redirects that `reqwest` follows by default before it gives up. -/
def maxRedirects : Nat := 10

/-- The request that follows a redirect; another host is not given the token. -/
def ChatRequest.redirected (request : ChatRequest) (redirect : Redirect) : ChatRequest where
  method := if redirect.turnsToGet request.method then "GET" else request.method
  url := redirect.location
  bearer := if redirect.sameHost then request.bearer else none
  body := if redirect.turnsToGet request.method then none else request.body

/-- Whether a failed response reports that the token expired. -/
def isTokenExpired (resp : Response Value) : Bool :=
  resp.status.isUnauthorized ||
    (resp.status.isBadRequest && Text.containsText resp.text "ExpiredToken")

/-- Where a call of `send_request` stands. -/
inductive Phase where
  | start
  /-- The first request is out, with the token that was read. -/
  | requested (token : String)
  /-- The first response reports that the token expired. -/
  | expired (token : String) (resp : Response Value)
  /-- A refresh is possible; the call waits for the write lock. -/
  | refreshing (token : String) (resp : Response Value)
  /-- The refresh returned `Ok`. -/
  | refreshed
  /-- The retry is out. -/
  | retried
  | done (result : Except SkybaseError (Response Value))

namespace SendRequest

/-- The error of a response that is not successful. -/
def failedWith (request : SendRequest) (resp : Response Value) : SkybaseError :=
  .chat s!"{request.opName} failed with status {resp.status.display}: {resp.text}"

/-- From the answer to the first request on. -/
def onAnswer (request : SendRequest) (token : String) : Answer Value → Phase
  | .error e => .done (.error (.chat s!"{request.opName} request failed: {e}"))
  | .ok resp =>
      if resp.status.isSuccess then .done (.ok resp)
      else if isTokenExpired resp then .expired token resp
      else .done (.error (request.failedWith resp))

/-- From the answer of `can_refresh` on. -/
def onCanRefresh (request : SendRequest) (token : String) (resp : Response Value)
    (canRefresh : Bool) : Phase :=
  if canRefresh then .refreshing token resp else .done (.error (request.failedWith resp))

/-- From the result of the refresh on. -/
def onRefresh (request : SendRequest) (resp : Response Value) : Except SkybaseError Unit → Phase
  | .error e =>
      .done (.error (.chat
        s!"{request.opName} failed with status {resp.status.display}: {resp.text} (refresh failed: {e.display})"))
  | .ok () => .refreshed

/-- From the answer to the retry on. -/
def onRetryAnswer (request : SendRequest) : Answer Value → Phase
  | .error e => .done (.error (.chat s!"{request.opName} retry failed: {e}"))
  | .ok resp =>
      if resp.status.isSuccess then .done (.ok resp)
      else .done (.error (request.failedWith resp))

end SendRequest

/-! ## Obtaining tokens -/

/-- The server accepts a request, and the response decodes to the value. -/
def Accepted {σ : Type} (answer : Answer σ) (value : σ) : Prop :=
  ∃ resp, answer = .ok resp ∧ resp.status.isSuccess = true ∧ resp.json = .ok value

namespace AuthState

theorem refreshSession_of_accepted {server : SessionServer} {auth : AuthState}
    {refreshJwt : String} {creds : BotCredentials} {refreshed : RefreshSessionResponse}
    (hasRefresh : auth.refreshJwt = some refreshJwt) (hasCreds : auth.credentials = some creds)
    (accepted : Accepted (server.refreshSession creds.refreshUrl refreshJwt) refreshed) :
    auth.refreshSession server = some refreshed := by
  rcases accepted with ⟨resp, answered, success, decoded⟩
  simp only [refreshSession, hasRefresh, hasCreds, answered, success, decoded, if_true]
  rfl

theorem relogin_of_accepted {server : SessionServer} {creds : BotCredentials}
    {session : CreateSessionResponse}
    (accepted : Accepted (server.createSession creds.loginUrl creds.identifier creds.password)
      session) : relogin server creds = .ok session := by
  rcases accepted with ⟨resp, answered, success, decoded⟩
  simp only [relogin, answered, success, decoded, if_true]

/-- Without credentials there is nothing to refresh with. -/
theorem renew_of_no_credentials (server : SessionServer) {auth : AuthState}
    (noCreds : auth.credentials = none) :
    auth.renew server = .error (.chat
      "Session token expired, but no refresh token or credentials configured to refresh") := by
  have noRefresh : auth.refreshSession server = none := by
    rw [refreshSession, noCreds]
    split
    · next absurd => cases absurd
    · rfl
  rw [renew, noRefresh, noCreds]

/-- What a refresh does with the stored session: another token is there
already, nothing could be obtained, or new tokens are stored. -/
theorem refreshSessionOrRelogin_cases (server : SessionServer) (failedToken : String)
    (auth : AuthState) :
    (auth.accessJwt ≠ failedToken ∧ auth.renewal server failedToken = .ok none ∧
        auth.refreshSessionOrRelogin server failedToken = (.ok (), auth)) ∨
      (∃ err, auth.renewal server failedToken = .error err ∧
        auth.refreshSessionOrRelogin server failedToken = (.error err, auth)) ∨
      ∃ accessJwt refreshJwt, auth.accessJwt = failedToken ∧
        auth.renewal server failedToken = .ok (some (accessJwt, refreshJwt)) ∧
        auth.refreshSessionOrRelogin server failedToken =
          (.ok (), auth.store accessJwt refreshJwt) := by
  unfold refreshSessionOrRelogin
  by_cases replaced : auth.accessJwt ≠ failedToken
  · have nothing : auth.renewal server failedToken = .ok none := if_pos replaced
    rw [nothing]
    exact Or.inl ⟨replaced, rfl, rfl⟩
  · rw [not_not] at replaced
    apply Or.inr
    cases obtained : auth.renewal server failedToken with
    | error err => exact Or.inl ⟨err, rfl, rfl⟩
    | ok tokens =>
        cases tokens with
        | some tokens => exact Or.inr ⟨tokens.1, tokens.2, replaced, rfl, rfl⟩
        | none =>
            rw [renewal, if_neg (not_not.mpr replaced)] at obtained
            split at obtained
            · cases obtained
            · cases renewed : auth.renew server with
              | error err =>
                  rw [renewed] at obtained
                  cases obtained
              | ok tokens =>
                  rw [renewed] at obtained
                  cases obtained

end AuthState

end Skybase.Chat
