import Skybase.Chat.Client
import Skybase.Transition.Core

/-!
# The refresh under the write lock

`refresh_session_or_relogin` as the code runs it: it holds the stored session,
sends its requests one after the other and assigns the fields one after the
other.  The record of the requests is not part of the program.  A refresh that
fails leaves the session as it was, and one that succeeds stores the tokens of
one response.
-/

namespace Skybase.Chat

open Skybase.Transition (Step run run_cons_eq_some_iff invariant_of_run)

/-! ## The section under the lock -/

/-- A request to the account server. -/
inductive SessionRequest where
  | refreshSession (url bearer : String)
  | createSession (url identifier password : String)

/-- The stored session, and a record of the requests that were sent. -/
structure LockSection where
  auth : AuthState
  sent : List SessionRequest

/-- What runs under the write lock. -/
abbrev Locked := StateM LockSection

namespace Locked

/-- `state.access_jwt = token`. -/
def setAccessJwt (token : String) : Locked Unit :=
  modify fun state => { state with auth := { state.auth with accessJwt := token } }

/-- `state.refresh_jwt = Some(token)`. -/
def setRefreshJwt (token : String) : Locked Unit :=
  modify fun state => { state with auth := { state.auth with refreshJwt := some token } }

/-- The assignments of the tokens of a response. -/
def assign (accessJwt : String) (refreshJwt : Option String) : Locked Unit := do
  setAccessJwt accessJwt
  match refreshJwt with
  | some newRefresh => if (Text.trim newRefresh).isEmpty then pure () else setRefreshJwt newRefresh
  | none => pure ()

/-- A request goes out. -/
def record (request : SessionRequest) : Locked Unit :=
  modify fun state => { state with sent := state.sent ++ [request] }

variable (server : SessionServer)

/-- The request of strategy 1. -/
def postRefreshSession (url bearer : String) : Locked (Answer RefreshSessionResponse) := do
  record (.refreshSession url bearer)
  return server.refreshSession url bearer

/-- The request of strategy 2. -/
def postCreateSession (url identifier password : String) :
    Locked (Answer CreateSessionResponse) := do
  record (.createSession url identifier password)
  return server.createSession url identifier password

/-- From the answer to `refreshSession` on; `true` where the code returns `Ok`. -/
def onRefreshAnswer : Answer RefreshSessionResponse → Locked Bool
  | .ok resp =>
      if resp.status.isSuccess then
        match resp.json with
        | .ok refreshed => do
            assign refreshed.accessJwt refreshed.refreshJwt
            return true
        | .error _ => return false
      else return false
  | .error _ => return false

/-- Strategy 1. -/
def refreshSession : Locked Bool := do
  let state ← get
  match state.auth.refreshJwt, state.auth.credentials with
  | some refreshJwt, some creds =>
      let answer ← postRefreshSession server creds.refreshUrl refreshJwt
      onRefreshAnswer answer
  | _, _ => return false

/-- From the answer to `createSession` on. -/
def onLoginAnswer (loginUrl : String) :
    Answer CreateSessionResponse → Locked (Except SkybaseError Unit)
  | .error e => return .error (.chat s!"Re-login request failed: {e}")
  | .ok resp =>
      if resp.status.isSuccess then
        match resp.json with
        | .ok session => do
            assign session.accessJwt session.refreshJwt
            return .ok ()
        | .error e => return .error (.chat s!"Failed to parse createSession response: {e}")
      else
        return .error (.chat
          s!"Failed to re-authenticate bot session at {loginUrl} (HTTP {resp.status.display}): {resp.text}")

/-- Strategy 2. -/
def relogin : Locked (Except SkybaseError Unit) := do
  let state ← get
  match state.auth.credentials with
  | some creds =>
      let answer ← postCreateSession server creds.loginUrl creds.identifier creds.password
      onLoginAnswer creds.loginUrl answer
  | none =>
      return .error (.chat
        "Session token expired, but no refresh token or credentials configured to refresh")

/-- `ChatClient::refresh_session_or_relogin`. -/
def refreshSessionOrRelogin (failedToken : String) : Locked (Except SkybaseError Unit) := do
  let state ← get
  if state.auth.accessJwt ≠ failedToken then
    return .ok ()
  else
    match server.build with
    | some e => return .error (.chat s!"Failed to build refresh HTTP client: {e}")
    | none =>
        if ← refreshSession server then
          return .ok ()
        else
          relogin server

/-! ## What the parts do -/

/-- The two assignments store the tokens. -/
theorem run_assign (accessJwt : String) (refreshJwt : Option String) (state : LockSection) :
    (assign accessJwt refreshJwt).run state =
      ((), { state with auth := state.auth.store accessJwt refreshJwt }) := by
  cases refreshJwt with
  | none => rfl
  | some newRefresh =>
      by_cases blank : (Text.trim newRefresh).isEmpty = true
      · simp only [assign, AuthState.store, blank, if_true]
        rfl
      · simp only [assign, AuthState.store, blank]
        rfl

/-- The request that strategy 1 sends. -/
def refreshRequests (auth : AuthState) : List SessionRequest :=
  match auth.refreshJwt, auth.credentials with
  | some refreshJwt, some creds => [.refreshSession creds.refreshUrl refreshJwt]
  | _, _ => []

/-- The request that strategy 2 sends. -/
def loginRequests (auth : AuthState) : List SessionRequest :=
  match auth.credentials with
  | some creds => [.createSession creds.loginUrl creds.identifier creds.password]
  | none => []

/-- Strategy 1 sends one request at most, and stores what was obtained. -/
theorem run_refreshSession (state : LockSection) :
    (refreshSession server).run state =
      match state.auth.refreshSession server with
      | some refreshed =>
          (true, ⟨state.auth.store refreshed.accessJwt refreshed.refreshJwt,
            state.sent ++ refreshRequests state.auth⟩)
      | none => (false, ⟨state.auth, state.sent ++ refreshRequests state.auth⟩) := by
  obtain ⟨⟨accessJwt, refreshJwt, credentials⟩, sent⟩ := state
  cases refreshJwt with
  | none => rw [refreshRequests, List.append_nil]; rfl
  | some refreshJwt =>
      cases credentials with
      | none => rw [refreshRequests, List.append_nil]; rfl
      | some creds =>
          let auth : AuthState := ⟨accessJwt, some refreshJwt, some creds⟩
          let request : SessionRequest := .refreshSession creds.refreshUrl refreshJwt
          have posted : (refreshSession server).run ⟨auth, sent⟩ =
              (onRefreshAnswer (server.refreshSession creds.refreshUrl refreshJwt)).run
                ⟨auth, sent ++ [request]⟩ := rfl
          rw [posted]
          unfold AuthState.refreshSession
          dsimp only
          cases server.refreshSession creds.refreshUrl refreshJwt with
          | error e => rfl
          | ok resp =>
              unfold onRefreshAnswer
              dsimp only
              cases resp.status.isSuccess with
              | false => rfl
              | true =>
                  cases resp.json with
                  | error e => rfl
                  | ok refreshed =>
                      rw [if_pos rfl, if_pos rfl, StateT.run_bind, run_assign]
                      rfl

/-- So does strategy 2. -/
theorem run_relogin (state : LockSection) :
    (relogin server).run state =
      match state.auth.credentials with
      | some creds =>
          match AuthState.relogin server creds with
          | .ok session =>
              (.ok (), ⟨state.auth.store session.accessJwt session.refreshJwt,
                state.sent ++ loginRequests state.auth⟩)
          | .error e => (.error e, ⟨state.auth, state.sent ++ loginRequests state.auth⟩)
      | none =>
          (.error (.chat
            "Session token expired, but no refresh token or credentials configured to refresh"),
            state) := by
  obtain ⟨⟨accessJwt, refreshJwt, credentials⟩, sent⟩ := state
  cases credentials with
  | none => rfl
  | some creds =>
      let auth : AuthState := ⟨accessJwt, refreshJwt, some creds⟩
      let request : SessionRequest :=
        .createSession creds.loginUrl creds.identifier creds.password
      have posted : (relogin server).run ⟨auth, sent⟩ =
          (onLoginAnswer creds.loginUrl
              (server.createSession creds.loginUrl creds.identifier creds.password)).run
            ⟨auth, sent ++ [request]⟩ := rfl
      rw [posted]
      unfold AuthState.relogin
      dsimp only
      cases server.createSession creds.loginUrl creds.identifier creds.password with
      | error e => rfl
      | ok resp =>
          unfold onLoginAnswer
          dsimp only
          cases resp.status.isSuccess with
          | false => rfl
          | true =>
              cases resp.json with
              | error e => rfl
              | ok session =>
                  rw [if_pos rfl, if_pos rfl, StateT.run_bind, run_assign]
                  rfl

/-- The section as a whole. -/
theorem run_refreshSessionOrRelogin (failedToken : String) (state : LockSection) :
    (refreshSessionOrRelogin server failedToken).run state =
      if state.auth.accessJwt ≠ failedToken then (.ok (), state)
      else
        match server.build with
        | some e => (.error (.chat s!"Failed to build refresh HTTP client: {e}"), state)
        | none =>
            match state.auth.refreshSession server with
            | some refreshed =>
                (.ok (), ⟨state.auth.store refreshed.accessJwt refreshed.refreshJwt,
                  state.sent ++ refreshRequests state.auth⟩)
            | none =>
                (relogin server).run ⟨state.auth, state.sent ++ refreshRequests state.auth⟩ := by
  unfold refreshSessionOrRelogin
  rw [StateT.run_bind, StateT.run_get, pure_bind]
  dsimp only
  by_cases replaced : state.auth.accessJwt ≠ failedToken
  · rw [if_pos replaced, if_pos replaced]
    rfl
  · rw [if_neg replaced, if_neg replaced]
    cases server.build with
    | some e => rfl
    | none =>
        dsimp only
        rw [StateT.run_bind, run_refreshSession]
        cases state.auth.refreshSession server <;> rfl

/-- The section refines the operation on the stored session. -/
theorem refreshSessionOrRelogin_refines (failedToken : String) (state : LockSection) :
    Prod.map id LockSection.auth ((refreshSessionOrRelogin server failedToken).run state) =
      state.auth.refreshSessionOrRelogin server failedToken := by
  rw [run_refreshSessionOrRelogin, run_relogin]
  unfold AuthState.refreshSessionOrRelogin AuthState.renewal AuthState.renew
  by_cases replaced : state.auth.accessJwt ≠ failedToken
  · rw [if_pos replaced, if_pos replaced]
    rfl
  · rw [if_neg replaced, if_neg replaced]
    cases server.build with
    | some e => rfl
    | none =>
        cases state.auth.refreshSession server with
        | some refreshed => rfl
        | none =>
            cases state.auth.credentials with
            | none => rfl
            | some creds =>
                dsimp only
                cases AuthState.relogin server creds <;> rfl

end Locked

/-! ## What a refresh leaves behind -/

/-- The request is answered with the tokens. -/
inductive Replied (server : SessionServer) : SessionRequest → String → Option String → Prop where
  | refreshSession {url bearer : String} {refreshed : RefreshSessionResponse} :
      Accepted (server.refreshSession url bearer) refreshed →
        Replied server (.refreshSession url bearer) refreshed.accessJwt refreshed.refreshJwt
  | createSession {url identifier password : String} {session : CreateSessionResponse} :
      Accepted (server.createSession url identifier password) session →
        Replied server (.createSession url identifier password) session.accessJwt
          session.refreshJwt

/-- A token that is not blank. -/
def NonBlank (token : String) : Prop := (Text.trim token).isEmpty = false

/-- The tokens of the last request's answer are stored; those before it failed. -/
structure Renewed (server : SessionServer) (before after : LockSection) : Prop where
  credentials : after.auth.credentials = before.auth.credentials
  tokens : ∃ failed request refreshJwt,
    after.sent = before.sent ++ failed ++ [request] ∧
      (∀ earlier ∈ failed, ∀ accessJwt refreshJwt,
        ¬Replied server earlier accessJwt refreshJwt) ∧
      Replied server request after.auth.accessJwt refreshJwt ∧
      (after.auth.refreshJwt = before.auth.refreshJwt ∨
        ∃ token, refreshJwt = some token ∧ NonBlank token ∧ after.auth.refreshJwt = some token)

namespace AuthState

theorem refreshJwt_store (auth : AuthState) (accessJwt : String) (refreshJwt : Option String) :
    (auth.store accessJwt refreshJwt).refreshJwt = auth.refreshJwt ∨
      ∃ token, refreshJwt = some token ∧ NonBlank token ∧
        (auth.store accessJwt refreshJwt).refreshJwt = some token := by
  cases refreshJwt with
  | none => exact .inl rfl
  | some token =>
      by_cases blank : (Text.trim token).isEmpty = true
      · have kept : (auth.store accessJwt (some token)).refreshJwt = auth.refreshJwt := by
          simp only [store, blank, if_true]
        exact .inl kept
      · have stored : (auth.store accessJwt (some token)).refreshJwt = some token := by
          simp only [store, blank, Bool.false_eq_true, if_false]
        exact .inr ⟨token, rfl, Bool.eq_false_iff.mpr blank, stored⟩

/-- Strategy 1 obtains what the answer to its request decodes to. -/
theorem refreshSession_eq_some_iff {server : SessionServer} {auth : AuthState}
    {refreshJwt : String} {creds : BotCredentials} (hasRefresh : auth.refreshJwt = some refreshJwt)
    (hasCreds : auth.credentials = some creds) {refreshed : RefreshSessionResponse} :
    auth.refreshSession server = some refreshed ↔
      Accepted (server.refreshSession creds.refreshUrl refreshJwt) refreshed := by
  refine ⟨fun obtained => ?_, refreshSession_of_accepted hasRefresh hasCreds⟩
  rw [refreshSession, hasRefresh, hasCreds] at obtained
  dsimp only at obtained
  split at obtained
  · next resp answered =>
      split at obtained
      · next success =>
          refine ⟨resp, answered, success, ?_⟩
          cases decoded : resp.json with
          | error e =>
              rw [decoded] at obtained
              cases obtained
          | ok value =>
              rw [decoded] at obtained
              exact congrArg Except.ok (Option.some.inj obtained)
      · cases obtained
  · cases obtained

theorem accepted_of_relogin {server : SessionServer} {creds : BotCredentials}
    {session : CreateSessionResponse} (obtained : relogin server creds = .ok session) :
    Accepted (server.createSession creds.loginUrl creds.identifier creds.password) session := by
  unfold relogin at obtained
  split at obtained
  · cases obtained
  · next resp answered =>
      split at obtained
      · next success =>
          refine ⟨resp, answered, success, ?_⟩
          cases decoded : resp.json with
          | error e =>
              rw [decoded] at obtained
              cases obtained
          | ok value =>
              rw [decoded] at obtained
              exact congrArg Except.ok (Except.ok.inj obtained)
      · cases obtained

/-- Strategy 1 obtains something only with a refresh token and credentials. -/
theorem exists_of_refreshSession {server : SessionServer} {auth : AuthState}
    {refreshed : RefreshSessionResponse} (obtained : auth.refreshSession server = some refreshed) :
    ∃ refreshJwt creds, auth.refreshJwt = some refreshJwt ∧ auth.credentials = some creds := by
  unfold refreshSession at obtained
  split at obtained
  · next refreshJwt creds hasRefresh hasCreds => exact ⟨refreshJwt, creds, hasRefresh, hasCreds⟩
  · cases obtained

end AuthState

section Renewed

variable {server : SessionServer} {state : LockSection}

theorem renewed_of_refreshSession {refreshed : RefreshSessionResponse}
    (obtained : state.auth.refreshSession server = some refreshed) :
    Renewed server state ⟨state.auth.store refreshed.accessJwt refreshed.refreshJwt,
      state.sent ++ Locked.refreshRequests state.auth⟩ := by
  obtain ⟨refreshJwt, creds, hasRefresh, hasCreds⟩ := AuthState.exists_of_refreshSession obtained
  have accepted := (AuthState.refreshSession_eq_some_iff hasRefresh hasCreds).mp obtained
  refine ⟨rfl, [], .refreshSession creds.refreshUrl refreshJwt, refreshed.refreshJwt, ?_,
    fun _ mem => absurd mem List.not_mem_nil, .refreshSession accepted,
    state.auth.refreshJwt_store _ _⟩
  rw [Locked.refreshRequests, hasRefresh, hasCreds, List.append_nil]

theorem renewed_of_relogin {creds : BotCredentials} {session : CreateSessionResponse}
    (failed : state.auth.refreshSession server = none)
    (hasCreds : state.auth.credentials = some creds)
    (obtained : AuthState.relogin server creds = .ok session) :
    Renewed server state ⟨state.auth.store session.accessJwt session.refreshJwt,
      state.sent ++ Locked.refreshRequests state.auth ++ Locked.loginRequests state.auth⟩ := by
  refine ⟨rfl, Locked.refreshRequests state.auth,
    .createSession creds.loginUrl creds.identifier creds.password, session.refreshJwt, ?_, ?_,
    .createSession (AuthState.accepted_of_relogin obtained), state.auth.refreshJwt_store _ _⟩
  · rw [Locked.loginRequests, hasCreds]
  · intro earlier mem accessJwt refreshJwt replied
    rw [Locked.refreshRequests, hasCreds] at mem
    cases hasRefresh : state.auth.refreshJwt with
    | none =>
        rw [hasRefresh] at mem
        exact nomatch mem
    | some stored =>
        rw [hasRefresh] at mem
        rw [List.mem_singleton.mp mem] at replied
        obtain ⟨accepted⟩ := replied
        rw [(AuthState.refreshSession_eq_some_iff hasRefresh hasCreds).mpr accepted] at failed
        cases failed

end Renewed

/-- How a section under the lock ends: the token was replaced already, nothing was obtained, or the
session is renewed. -/
theorem refreshSessionOrRelogin_section_cases (server : SessionServer) (failedToken : String)
    (before : LockSection) :
    let after := (Locked.refreshSessionOrRelogin server failedToken).run before
    (before.auth.accessJwt ≠ failedToken ∧ after = (.ok (), before)) ∨
      before.auth.accessJwt = failedToken ∧
        ((∃ err, after.1 = .error err) ∧ after.2.auth = before.auth ∨
          after.1 = .ok () ∧ Renewed server before after.2) := by
  rw [Locked.run_refreshSessionOrRelogin]
  by_cases replaced : before.auth.accessJwt ≠ failedToken
  · rw [if_pos replaced]
    exact .inl ⟨replaced, rfl⟩
  · rw [if_neg replaced]
    refine .inr ⟨not_not.mp replaced, ?_⟩
    cases server.build with
    | some e => exact .inl ⟨⟨_, rfl⟩, rfl⟩
    | none =>
        dsimp only
        cases refreshed : before.auth.refreshSession server with
        | some refreshed' => exact .inr ⟨rfl, renewed_of_refreshSession refreshed⟩
        | none =>
            dsimp only
            rw [Locked.run_relogin]
            cases hasCreds : before.auth.credentials with
            | none => exact .inl ⟨⟨_, rfl⟩, rfl⟩
            | some creds =>
                dsimp only
                cases obtained : AuthState.relogin server creds with
                | error err => exact .inl ⟨⟨err, rfl⟩, rfl⟩
                | ok session =>
                    exact .inr ⟨rfl, renewed_of_relogin refreshed hasCreds obtained⟩

/-! ## The states of a client -/

/-- The client that a login returns. -/
def CreateSessionResponse.connect (session : CreateSessionResponse)
    (pdsUrl identifier password : String) : AuthState :=
  let chatClient := AuthState.new session.accessJwt
  let chatClient :=
    match session.refreshJwt with
    | some refresh => chatClient.withRefreshToken refresh
    | none => chatClient
  chatClient.withCredentials pdsUrl identifier password

/-- `ChatClient::login_with_app_password`, with the error of building the chat client, if there
is one. -/
def loginWithAppPassword (server : SessionServer) (chatBuild : Option String)
    (pdsEndpoint identifier password : String) : Except SkybaseError (AuthState × String) :=
  let pdsUrl := Text.trimEndMatches pdsEndpoint '/'
  let loginUrl := pdsUrl ++ "/xrpc/com.atproto.server.createSession"
  match server.build with
  | some e => .error (.chat s!"Failed to build login HTTP client: {e}")
  | none =>
      match server.createSession loginUrl identifier password with
      | .error e => .error (.chat s!"createSession request failed: {e}")
      | .ok resp =>
          if resp.status.isSuccess then
            match resp.json, chatBuild with
            | .error e, _ => .error (.chat s!"Failed to parse createSession response: {e}")
            | .ok _, some e => .error (.chat s!"Failed to build chat HTTP client: {e}")
            | .ok session, none => .ok (session.connect pdsUrl identifier password, session.did)
          else
            .error (.chat
              s!"Failed to authenticate bot account ({identifier}) at {pdsUrl} (HTTP {resp.status.display}): {resp.text}")

/-- The state of a client from a constructor. -/
inductive Constructed : AuthState → Prop where
  | new (token : String) : Constructed (.new token)
  | login {server : SessionServer} {chatBuild : Option String}
      {pdsEndpoint identifier password did : String} {auth : AuthState} :
      loginWithAppPassword server chatBuild pdsEndpoint identifier password = .ok (auth, did) →
        Constructed auth

/-- The builders, on a client whose lock is free, and the refresh.  A builder that does not get
the lock changes nothing. -/
inductive ClientStep where
  | withRefreshToken (token : String)
  | withCredentials (pdsEndpoint identifier password : String)
  | lockTaken
  | refresh (server : SessionServer) (failedToken : String)

/-- One step. -/
def AuthState.next : Step AuthState ClientStep := fun auth step =>
  match step with
  | .withRefreshToken token => some (auth.withRefreshToken token)
  | .withCredentials pdsEndpoint identifier password =>
      some (auth.withCredentials pdsEndpoint identifier password)
  | .lockTaken => some auth
  | .refresh server failedToken =>
      some ((Locked.refreshSessionOrRelogin server failedToken).run ⟨auth, []⟩).2.auth

/-- The refresh token of the second session is the one of the first or one that is not blank. -/
def AuthState.Keeps (first second : AuthState) : Prop :=
  second.refreshJwt = first.refreshJwt ∨ ∃ token, NonBlank token ∧ second.refreshJwt = some token

namespace AuthState

theorem keeps_withRefreshToken (auth : AuthState) (token : String) :
    auth.Keeps (auth.withRefreshToken token) := by
  unfold Keeps withRefreshToken
  by_cases blank : (Text.trim token).isEmpty = true
  · rw [if_pos blank]
    exact .inl rfl
  · rw [if_neg blank]
    exact .inr ⟨token, Bool.eq_false_iff.mpr blank, rfl⟩

/-- Every step keeps the refresh token or stores one that is not blank. -/
theorem keeps_of_next {first second : AuthState} {step : ClientStep}
    (next : first.next step = some second) : first.Keeps second := by
  cases step with
  | withRefreshToken token =>
      have same : first.withRefreshToken token = second := Option.some.inj next
      rw [← same]
      exact first.keeps_withRefreshToken token
  | withCredentials pdsEndpoint identifier password =>
      cases next
      exact .inl rfl
  | lockTaken =>
      cases next
      exact .inl rfl
  | refresh server failedToken =>
      cases next
      obtain ⟨-, same⟩ | ⟨-, ⟨-, same⟩ | ⟨-, renewed⟩⟩ :=
        refreshSessionOrRelogin_section_cases server failedToken ⟨first, []⟩
      · rw [same]
        exact .inl rfl
      · rw [same]
        exact .inl rfl
      · obtain ⟨-, -, -, -, -, -, -, kept | ⟨token, -, nonBlank, stored⟩⟩ := renewed
        · exact .inl kept
        · exact .inr ⟨token, nonBlank, stored⟩

/-- No blank refresh token is stored. -/
def Sound (auth : AuthState) : Prop := ∀ token ∈ auth.refreshJwt, NonBlank token

theorem Keeps.sound {first second : AuthState} (keeps : first.Keeps second)
    (sound : first.Sound) : second.Sound := by
  unfold Sound
  obtain same | ⟨token, nonBlank, stored⟩ := keeps
  · rw [same]
    exact sound
  · rw [stored]
    rintro _ ⟨⟩
    exact nonBlank

theorem Keeps.isSome {first second : AuthState} (keeps : first.Keeps second)
    (present : first.refreshJwt.isSome = true) : second.refreshJwt.isSome = true := by
  obtain same | ⟨token, -, stored⟩ := keeps
  · rw [same]
    exact present
  · rw [stored]
    rfl

theorem sound_new (token : String) : (new token).Sound := fun _ mem => nomatch mem

theorem sound_withCredentials {auth : AuthState} (sound : auth.Sound)
    (pdsEndpoint identifier password : String) :
    (auth.withCredentials pdsEndpoint identifier password).Sound :=
  sound

theorem sound_connect (session : CreateSessionResponse) (pdsUrl identifier password : String) :
    (session.connect pdsUrl identifier password).Sound := by
  have start := sound_new session.accessJwt
  refine sound_withCredentials ?_ pdsUrl identifier password
  cases session.refreshJwt with
  | none => exact start
  | some refresh => exact (keeps_withRefreshToken _ refresh).sound start

theorem sound_of_constructed {auth : AuthState} (constructed : Constructed auth) : auth.Sound := by
  cases constructed with
  | new token => exact sound_new token
  | login returned =>
      unfold loginWithAppPassword at returned
      dsimp only at returned
      split at returned
      · cases returned
      · split at returned
        · cases returned
        · split at returned
          · split at returned
            · cases returned
            · cases returned
            · cases returned
              exact sound_connect _ _ _ _
          · cases returned

end AuthState

/-- A refresh that fails leaves the session as it was, one that comes too late does nothing, and
any other stores the tokens of the response that succeeded; so no client ever holds a blank
refresh token or loses the one it has. -/
theorem refreshSessionOrRelogin_atomic :
    (∀ (server : SessionServer) (failedToken : String) (before : LockSection),
      let after := (Locked.refreshSessionOrRelogin server failedToken).run before
      (∀ err, after.1 = .error err → after.2.auth = before.auth) ∧
        (after.1 = .ok () → before.auth.accessJwt ≠ failedToken → after.2 = before) ∧
        (after.1 = .ok () → before.auth.accessJwt = failedToken →
          Renewed server before after.2)) ∧
    ∀ (start : AuthState) (steps : List ClientStep) (auth : AuthState), Constructed start →
      run AuthState.next start steps = some auth →
        (∀ token, auth.refreshJwt = some token → NonBlank token) ∧
          ∀ (later : List ClientStep) (target : AuthState),
            run AuthState.next auth later = some target →
              auth.refreshJwt.isSome = true → target.refreshJwt.isSome = true := by
  constructor
  · intro server failedToken before after
    obtain ⟨replaced, same⟩ | ⟨current, ⟨⟨err, failed⟩, same⟩ | ⟨ok, renewed⟩⟩ :=
      refreshSessionOrRelogin_section_cases server failedToken before
    · refine ⟨fun err failed => ?_, fun _ _ => congrArg Prod.snd same,
        fun _ current => absurd current replaced⟩
      exact congrArg (fun result => result.2.auth) same
    · refine ⟨fun _ _ => same, fun ok => ?_, fun ok => ?_⟩
      · exact nomatch failed.symm.trans ok
      · exact nomatch failed.symm.trans ok
    · refine ⟨fun err failed => ?_, fun _ replaced => absurd current replaced, fun _ _ => renewed⟩
      exact nomatch failed.symm.trans ok
  · intro start steps auth constructed reached
    constructor
    · have kept : ∀ source step target, AuthState.Sound source →
          AuthState.next source step = some target → AuthState.Sound target :=
        fun _ _ _ sound next => (AuthState.keeps_of_next next).sound sound
      exact invariant_of_run kept (AuthState.sound_of_constructed constructed) reached
    · intro later target reached' present
      have kept : ∀ source step target, source.refreshJwt.isSome = true →
          AuthState.next source step = some target → target.refreshJwt.isSome = true :=
        fun _ _ _ held next => (AuthState.keeps_of_next next).isSome held
      exact invariant_of_run kept present reached'

/-- A refresh that times out is followed by a login, whose access token is stored. -/
theorem refreshSessionOrRelogin_atomic_fallback : ∃ (server : SessionServer) (before : LockSection),
    Renewed server before ((Locked.refreshSessionOrRelogin server "token1").run before).2 ∧
      ((Locked.refreshSessionOrRelogin server "token1").run before).2.sent.length = 2 :=
  ⟨⟨none, fun _ _ => .error "timeout", fun _ _ _ =>
      .ok ⟨⟨200, "200 OK"⟩, "", .ok ⟨"did:plc:bot", "token2", none⟩⟩⟩,
    ⟨⟨"token1", some "refresh1", some ⟨"https://pds.example", "bot", "secret"⟩⟩, []⟩,
    (refreshSessionOrRelogin_atomic.1 _ _ _).2.2 rfl rfl, rfl⟩

end Skybase.Chat
