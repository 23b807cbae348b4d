import Skybase.Repo.Client

/-!
# Retries of challenged requests

Whatever the servers answer and other requests do to the nonce cache, a call
sends at most two requests, and the second one only after a challenge.  The
check that a nonce is at hand for the retry asks the cache, not the challenge,
so that a challenge without a nonce is retried if the cache holds an old one.
-/

namespace Skybase.Repo

open Skybase.Json

/-! ## Iterations -/

/-- How the code reacts to a response: it ends with a success, it ends with an
error, or it tries again, which it does for the first challenge only and with a
cached nonce. -/
theorem onResponse_cases (decoder : Decoder) (attempts : Nat) (freshNonce : Option String)
    (resp : Response) :
    (resp.status.isSuccess = true ∧
        onResponse decoder attempts freshNonce resp = .done (.ok resp)) ∨
      (¬ resp.status.isSuccess = true ∧
        ∃ err, onResponse decoder attempts freshNonce resp = .done (.error err)) ∨
      (attempts < 2 ∧ resp.isRefusal = true ∧ resp.isChallenge decoder = true ∧
        freshNonce.isNone = false ∧ onResponse decoder attempts freshNonce resp = .again) := by
  unfold onResponse
  split
  · next success => exact Or.inl ⟨success, rfl⟩
  · next failure =>
      split
      · next refusal =>
          split
          · next challenge =>
              split
              · exact Or.inr (Or.inl ⟨failure, _, rfl⟩)
              · next first =>
                  split
                  · exact Or.inr (Or.inl ⟨failure, _, rfl⟩)
                  · next cached =>
                      exact Or.inr (Or.inr
                        ⟨Nat.lt_of_not_le first, refusal, challenge,
                          Bool.eq_false_iff.mpr cached, rfl⟩)
          · exact Or.inr (Or.inl ⟨failure, _, rfl⟩)
      · exact Or.inr (Or.inl ⟨failure, _, rfl⟩)

/-- The result is a success exactly if the last request was answered by it. -/
def Concludes (result : Except SkybaseError Response) (exchanges : List Exchange) : Prop :=
  ∀ resp, result = .ok resp ↔
    ∃ last, exchanges.getLast? = some last ∧ last.answer = .ok resp ∧
      resp.status.isSuccess = true

theorem concludes_error {err : SkybaseError} {exchanges : List Exchange}
    (failure : ∀ last ∈ exchanges.getLast?, ∀ resp, last.answer = .ok resp →
      ¬ resp.status.isSuccess = true) : Concludes (.error err) exchanges := by
  intro resp
  constructor
  · intro absurd
    cases absurd
  · rintro ⟨last, mem, answered, success⟩
    exact absurd success (failure last mem resp answered)

theorem concludes_ok {request : Request} {resp : Response}
    (success : resp.status.isSuccess = true) :
    Concludes (.ok resp) [⟨request, .ok resp⟩] := by
  intro other
  constructor
  · rintro ⟨⟩
    exact ⟨_, rfl, rfl, success⟩
  · rintro ⟨last, mem, same, _⟩
    have only : Exchange.mk request (.ok resp) = last := Option.some.inj mem
    rw [← only] at same
    cases same
    rfl

theorem Concludes.cons {result : Except SkybaseError Response} {first : Exchange}
    {later : List Exchange} (concludes : Concludes result later) {refused : Response}
    (answer : first.answer = .ok refused) (failure : ¬ refused.status.isSuccess = true) :
    Concludes result (first :: later) := by
  cases later with
  | cons second later =>
      intro resp
      rw [List.getLast?_cons_cons]
      exact concludes resp
  | nil =>
      cases result with
      | ok resp =>
          rcases (concludes resp).mp rfl with ⟨last, absurd, _⟩
          cases absurd
      | error err =>
          apply concludes_error
          rintro last ⟨⟩ resp answered
          have same : refused = resp := Except.ok.inj (answer.symm.trans answered)
          rw [← same]
          exact failure

/-- A request as every attempt of the call sends it. -/
structure Request.For (request : Request) (call : SendCall) : Prop where
  method : request.method = call.method
  url : call.parsedUrl.map Url.text = .ok request.url
  contentType : request.contentType = call.contentType
  body : request.body = call.bodyBytes

theorem SendCall.request_for {call : SendCall} {url : Url} (parsed : call.parsedUrl = .ok url)
    (session : OAuthSession) (dpopProof : String) :
    (call.request session url dpopProof).For call where
  method := rfl
  url := by
    rw [parsed]
    rfl
  contentType := rfl
  body := rfl

/-- What an iteration does: it ends the call with at most one request, or it
sends one that is challenged. -/
theorem turn_cases (decoder : Decoder) (session : OAuthSession) {call : SendCall} {url : Url}
    (parsed : call.parsedUrl = .ok url) (htu : String) (attempt : Attempt) (attempts : Nat)
    (cache : NonceCache) :
    (∃ result exchanges after,
      turn decoder session call url htu attempt attempts cache = (.done result, exchanges, after) ∧
        exchanges.length ≤ 1 ∧ (∀ exchange ∈ exchanges, exchange.request.For call) ∧
        Concludes result exchanges) ∨
      ∃ exchange resp after,
        turn decoder session call url htu attempt attempts cache = (.again, [exchange], after) ∧
          attempts < 2 ∧ exchange.request.For call ∧ exchange.answer = .ok resp ∧
          resp.isRefusal = true ∧ resp.isChallenge decoder = true := by
  unfold turn
  dsimp only
  split
  · refine Or.inl ⟨_, _, _, rfl, Nat.zero_le _, ?_, ?_⟩
    · intro exchange absurd
      cases absurd
    · apply concludes_error
      rintro last ⟨⟩
  · next dpopProof _ =>
      have sent : (call.request session url dpopProof).For call :=
        SendCall.request_for parsed session dpopProof
      have onlySent : ∀ answer,
          ∀ exchange ∈ [Exchange.mk (call.request session url dpopProof) answer],
            exchange.request.For call := by
        intro answer exchange mem
        rw [List.mem_singleton.mp mem]
        exact sent
      split
      · refine Or.inl ⟨_, _, _, rfl, Nat.le_refl _, onlySent _, ?_⟩
        apply concludes_error
        rintro last ⟨⟩ resp ⟨⟩
      · next resp answered =>
          rcases onResponse_cases decoder attempts
              (attempt.beforeCheck (recordNonce decoder url.origin resp
                (attempt.whileSending (attempt.beforeProof cache))) url.origin) resp with
            ⟨success, ended⟩ | ⟨failure, err, ended⟩ | ⟨first, refusal, challenge, _, continued⟩
          · rw [ended]
            exact Or.inl ⟨_, _, _, rfl, Nat.le_refl _, onlySent _, concludes_ok success⟩
          · rw [ended]
            refine Or.inl ⟨_, _, _, rfl, Nat.le_refl _, onlySent _, ?_⟩
            apply concludes_error
            rintro last ⟨⟩ other ⟨⟩
            exact failure
          · rw [continued]
            exact Or.inr ⟨_, resp, _, rfl, first, sent, rfl, refusal, challenge⟩

/-! ## Calls -/

/-- What holds of the outcome of a call. -/
structure Outcome.Bounded (decoder : Decoder) (call : SendCall) (outcome : Outcome) : Prop where
  atMostTwo : outcome.exchanges.length ≤ 2
  sameRequest : ∀ exchange ∈ outcome.exchanges, exchange.request.For call
  afterChallenge : ∀ before exchange next after,
    outcome.exchanges = before ++ exchange :: next :: after →
      ∃ resp, exchange.answer = .ok resp ∧ resp.isRefusal = true ∧
        resp.isChallenge decoder = true
  concludes : Concludes outcome.result outcome.exchanges

theorem Outcome.bounded_of_short {decoder : Decoder} {call : SendCall} {outcome : Outcome}
    (short : outcome.exchanges.length ≤ 1)
    (sameRequest : ∀ exchange ∈ outcome.exchanges, exchange.request.For call)
    (concludes : Concludes outcome.result outcome.exchanges) : outcome.Bounded decoder call where
  atMostTwo := short.trans (by decide)
  sameRequest := sameRequest
  afterChallenge before exchange next after split := by
    rw [split, List.length_append, List.length_cons, List.length_cons] at short
    omega
  concludes := concludes

/-- Two iterations are enough, and they end the call within its bounds. -/
theorem exists_sendLoop (decoder : Decoder) (session : OAuthSession) {call : SendCall} {url : Url}
    (parsed : call.parsedUrl = .ok url) (htu : String) (attempt : Nat → Attempt)
    (cache : NonceCache) :
    ∃ outcome : Outcome, outcome.Bounded decoder call ∧
      ∀ fuel, sendLoop decoder session call url htu attempt (fuel + 2) 0 cache = some outcome := by
  rcases turn_cases decoder session parsed htu (attempt 1) 1 cache with
    ⟨result, exchanges, after, ended, short, sameRequest, concludes⟩ |
      ⟨first, resp, middle, continued, _, firstFor, answered, refusal, challenge⟩
  · refine ⟨⟨result, exchanges, after⟩, Outcome.bounded_of_short short sameRequest concludes, ?_⟩
    intro fuel
    simp only [sendLoop, Nat.zero_add, ended]
  · rcases turn_cases decoder session parsed htu (attempt 2) 2 middle with
      ⟨result, exchanges, after, ended, short, sameRequest, concludes⟩ | ⟨_, _, _, _, third, _⟩
    · refine ⟨⟨result, first :: exchanges, after⟩, ?_, ?_⟩
      · have failure : ¬ resp.status.isSuccess = true := by
          rw [Response.isRefusal, Bool.or_eq_true] at refusal
          exact StatusCode.not_isSuccess refusal
        constructor
        · exact Nat.succ_le_succ short
        · rw [List.forall_mem_cons]
          exact ⟨firstFor, sameRequest⟩
        · intro before exchange next later split
          cases before with
          | nil =>
              obtain ⟨rfl, _⟩ := List.cons.inj split
              exact ⟨resp, answered, refusal, challenge⟩
          | cons other before =>
              have rest : exchanges = before ++ exchange :: next :: later := (List.cons.inj split).2
              rw [rest, List.length_append, List.length_cons, List.length_cons] at short
              omega
        · exact concludes.cons answered failure
      · intro fuel
        simp only [sendLoop, Nat.zero_add, Nat.reduceAdd, continued, ended, Option.map_some,
          List.singleton_append]
    · exact absurd third (lt_irrefl 2)

/-- The error of a call that sends nothing. -/
theorem Outcome.bounded_of_error (decoder : Decoder) (call : SendCall) (err : SkybaseError)
    (cache : NonceCache) : Outcome.Bounded decoder call ⟨.error err, [], cache⟩ := by
  apply bounded_of_short
  · exact Nat.zero_le 1
  · intro exchange absurd
    cases absurd
  · apply concludes_error
    rintro last ⟨⟩

/-- A session that has not expired.  For all answers, all contents of the nonce
cache and all changes of it, a call ends after at most two iterations, whatever
fuel it is given beyond them.  It has sent at most two requests with the method,
URL, content type and body of the call.  A request is followed by another one
only if its answer was a 400 or 401 and a challenge by its headers or by its
body.  The result is a response exactly if that is the answer to the last
request and its status is a success. -/
theorem sendWithNonceRetry_bounded (decoder : Decoder) (session : OAuthSession) (call : SendCall)
    (attempt : Nat → Attempt) (cache : NonceCache) (valid : session.expired = none) :
    ∃ outcome : Outcome,
      (∀ fuel, 2 ≤ fuel →
        sendWithNonceRetryContentType decoder session call attempt fuel cache = some outcome) ∧
      outcome.exchanges.length ≤ 2 ∧
      (∀ exchange ∈ outcome.exchanges,
        exchange.request.method = call.method ∧
          call.parsedUrl.map Url.text = .ok exchange.request.url ∧
          exchange.request.contentType = call.contentType ∧
          exchange.request.body = call.bodyBytes) ∧
      (∀ before exchange next after, outcome.exchanges = before ++ exchange :: next :: after →
        ∃ resp, exchange.answer = .ok resp ∧
          (resp.status.code = 401 ∨ resp.status.code = 400) ∧
          (isRsDpopNonceChallenge resp.headers = true ∨
            isUseDpopNonceError (decoder.value resp.errBytes) = true)) ∧
      ∀ resp, outcome.result = .ok resp ↔
        ∃ last, outcome.exchanges.getLast? = some last ∧ last.answer = .ok resp ∧
          200 ≤ resp.status.code ∧ resp.status.code < 300 := by
  have ended : ∃ outcome : Outcome, outcome.Bounded decoder call ∧ ∀ fuel, 2 ≤ fuel →
      sendWithNonceRetryContentType decoder session call attempt fuel cache = some outcome := by
    unfold sendWithNonceRetryContentType
    rw [valid]
    dsimp only
    cases parsed : call.parsedUrl with
    | error e => exact ⟨_, Outcome.bounded_of_error decoder call _ cache, fun _ _ => rfl⟩
    | ok url =>
        cases call.htu with
        | error e => exact ⟨_, Outcome.bounded_of_error decoder call _ cache, fun _ _ => rfl⟩
        | ok htu =>
            rcases exists_sendLoop decoder session parsed htu attempt cache with
              ⟨outcome, bounded, reached⟩
            refine ⟨outcome, bounded, ?_⟩
            intro fuel enough
            obtain ⟨more, rfl⟩ := Nat.exists_eq_add_of_le' enough
            exact reached more
  rcases ended with ⟨outcome, bounded, reached⟩
  refine ⟨outcome, reached, bounded.atMostTwo, ?_, ?_, ?_⟩
  · intro exchange mem
    have same := bounded.sameRequest exchange mem
    exact ⟨same.method, same.url, same.contentType, same.body⟩
  · intro before exchange next after split
    rcases bounded.afterChallenge before exchange next after split with
      ⟨resp, answered, refusal, challenge⟩
    rw [Response.isRefusal, Bool.or_eq_true, StatusCode.isUnauthorized, StatusCode.isBadRequest,
      beq_iff_eq, beq_iff_eq] at refusal
    rw [Response.isChallenge, Bool.or_eq_true] at challenge
    exact ⟨resp, answered, refusal, challenge⟩
  · intro resp
    have concluded := bounded.concludes resp
    rw [StatusCode.isSuccess, Bool.and_eq_true, decide_eq_true_eq, decide_eq_true_eq] at concluded
    exact concluded

/-! ## Challenges without a nonce -/

/-- No other request changes the cache meanwhile. -/
structure Attempt.Alone (attempt : Attempt) : Prop where
  beforeProof : attempt.beforeProof = id
  whileSending : attempt.whileSending = id
  beforeCheck : attempt.beforeCheck = id

/-- The response carries no nonce: the header is absent, is not a text or is
blank. -/
def Response.OmitsNonce (resp : Response) : Prop :=
  ∀ value text, resp.headers.get "DPoP-Nonce" = some value → value.toStr = some text →
    (Text.trim text).isEmpty = true

/-- Header names do not depend on case, so the second lookup finds nothing new. -/
theorem HeaderMap.get_dpopNonce (headers : HeaderMap) :
    HeaderMap.get headers "dpop-nonce" = HeaderMap.get headers "DPoP-Nonce" := by
  have lower : "dpop-nonce".toList.map Char.toLower = "DPoP-Nonce".toList.map Char.toLower := by
    decide
  simp only [HeaderMap.get, Text.eqIgnoreAsciiCase, lower]

theorem Response.newNonce_of_omitsNonce {decoder : Decoder}
    (blank : ∀ text, (Text.trim text).isEmpty = true → decoder.extractDpopNonce (some text) = none)
    {resp : Response} (omits : resp.OmitsNonce) : resp.newNonce decoder = none := by
  rw [newNonce, HeaderMap.get_dpopNonce]
  cases header : resp.headers.get "DPoP-Nonce" with
  | none => rfl
  | some value =>
      rw [Option.some_or, Option.bind_some]
      cases text_eq : value.toStr with
      | none => rfl
      | some text =>
          rw [Option.bind_some]
          exact blank text (omits value text header text_eq)

/-- An iteration that sends nothing fails at its proof. -/
theorem auth_of_turn_nil {decoder : Decoder} {session : OAuthSession} {call : SendCall} {url : Url}
    {htu : String} {attempt : Attempt} {attempts : Nat} {cache after : NonceCache}
    {result : Except SkybaseError Response}
    (ended : turn decoder session call url htu attempt attempts cache = (.done result, [], after)) :
    ∃ e, result = .error (.auth e) := by
  unfold turn at ended
  dsimp only at ended
  split at ended
  · next e _ =>
      cases ended
      exact ⟨e, rfl⟩
  · split at ended
    · cases ended
    · rw [Prod.mk.injEq, Prod.mk.injEq] at ended
      cases ended.2.1

/-- The first response is a challenge without a nonce.  A call that runs alone
sends one request and reports the omission exactly if no nonce is cached for the
origin of its URL. -/
theorem omittedNonce_iff (decoder : Decoder) (session : OAuthSession) (call : SendCall)
    (attempt : Nat → Attempt) (cache : NonceCache)
    (blank : ∀ text, (Text.trim text).isEmpty = true → decoder.extractDpopNonce (some text) = none)
    (valid : session.expired = none) {url : Url} {htu : String} (parsed : call.parsedUrl = .ok url)
    (normalized : call.htu = .ok htu) (alone : ∀ attempts, (attempt attempts).Alone)
    {dpopProof : String} {resp : Response}
    (proved : (attempt 1).createDpopProof call.method htu (cache url.origin) = .ok dpopProof)
    (answered : (attempt 1).answer (call.request session url dpopProof) = .ok resp)
    (refusal : resp.isRefusal = true) (challenge : resp.isChallenge decoder = true)
    (omits : resp.OmitsNonce) {fuel : Nat} (enough : 2 ≤ fuel) :
    (∃ exchange after,
        sendWithNonceRetryContentType decoder session call attempt fuel cache =
          some ⟨.error omittedNonce, [exchange], after⟩) ↔
      cache url.origin = none := by
  obtain ⟨more, rfl⟩ := Nat.exists_eq_add_of_le' enough
  have unrecorded : recordNonce decoder url.origin resp cache = cache := by
    rw [recordNonce, Response.newNonce_of_omitsNonce blank omits]
  have first : turn decoder session call url htu (attempt 1) 1 cache =
      (onResponse decoder 1 (cache url.origin) resp,
        [⟨call.request session url dpopProof, .ok resp⟩], cache) := by
    have undisturbed := alone 1
    simp only [turn, undisturbed.beforeProof, undisturbed.whileSending, undisturbed.beforeCheck,
      id_eq, proved, answered, unrecorded]
  have failure : ¬ resp.status.isSuccess = true := by
    rw [Response.isRefusal, Bool.or_eq_true] at refusal
    exact StatusCode.not_isSuccess refusal
  have reaction : onResponse decoder 1 (cache url.origin) resp =
      if (cache url.origin).isNone then .done (.error omittedNonce) else .again := by
    rw [onResponse, if_neg failure, if_pos refusal, if_pos challenge, if_neg (by decide)]
  simp only [sendWithNonceRetryContentType, valid, parsed, normalized]
  cases cached : cache url.origin with
  | none =>
      rw [cached, Option.isNone_none, if_pos rfl] at reaction
      rw [cached, reaction] at first
      constructor
      · exact fun _ => rfl
      · intro _
        exists ⟨call.request session url dpopProof, .ok resp⟩, cache
        simp only [sendLoop, Nat.zero_add, first]
  | some nonce =>
      rw [cached, Option.isNone_some, if_neg Bool.false_ne_true] at reaction
      rw [cached, reaction] at first
      constructor
      · rintro ⟨exchange, after, reached⟩
        rcases turn_cases decoder session parsed htu (attempt 2) 2 cache with
          ⟨result, exchanges, final, second, _⟩ | ⟨_, _, _, _, third, _⟩
        · simp only [sendLoop, Nat.zero_add, Nat.reduceAdd, first, second, Option.map_some,
            List.singleton_append, Option.some.injEq, Outcome.mk.injEq, List.cons.injEq] at reached
          obtain ⟨result_eq, ⟨_, rfl⟩, _⟩ := reached
          rcases auth_of_turn_nil second with ⟨e, rfl⟩
          cases result_eq
        · exact absurd third (lt_irrefl 2)
      · intro absurd
        cases absurd

/-! ## Creating a record -/

/-- The body of a challenge. -/
def challengeBody : List UInt8 := Text.bytes "\x7b\"error\":\"use_dpop_nonce\"\x7d"

/-- A decoder for the challenge. -/
def challengeDecoder : Decoder where
  extractDpopNonce header :=
    header.bind fun text => if (Text.trim text).isEmpty then none else some (Text.trim text)
  value bytes :=
    if bytes = challengeBody then some (.object [("error", .string "use_dpop_nonce")]) else none
  xrpcError bytes := if bytes = challengeBody then some ⟨some "use_dpop_nonce", none⟩ else none

/-- A challenge with the given headers. -/
def challenge (headers : HeaderMap) : Response :=
  ⟨⟨401, "401 Unauthorized"⟩, headers, [.ok challengeBody]⟩

/-- The response to a request that is granted. -/
def created : Response := ⟨⟨200, "200 OK"⟩, [], []⟩

/-- A session that has not expired. -/
def aliceSession : OAuthSession := ⟨none, "DPoP token"⟩

/-- A call that creates a record. -/
def createRecordCall : SendCall where
  method := "POST"
  urlStr := "https://pds.example.com/xrpc/com.atproto.repo.createRecord"
  contentType := "application/json"
  bodyBytes := none
  parsedUrl := .ok ⟨"https://pds.example.com/xrpc/com.atproto.repo.createRecord",
    "https://pds.example.com"⟩
  htu := .ok "https://pds.example.com/xrpc/com.atproto.repo.createRecord"

/-- An undisturbed attempt with the given response, whose proof shows its nonce. -/
def respondWith (resp : Response) : Attempt where
  beforeProof := id
  createDpopProof _ _ nonce := .ok (nonce.getD "no nonce")
  answer _ := .ok resp
  whileSending := id
  beforeCheck := id

/-- A challenge that brings a nonce, and a success. -/
theorem sendWithNonceRetry_bounded_created :
    let attempt : Nat → Attempt := fun attempts =>
      respondWith
        (if attempts = 1 then challenge [("dpop-nonce", Text.bytes "nonce1")] else created)
    ∃ outcome : Outcome,
      (∀ fuel, 2 ≤ fuel →
        sendWithNonceRetryContentType challengeDecoder aliceSession createRecordCall attempt fuel
          (fun _ => none) = some outcome) ∧
      outcome.result = .ok created ∧
      outcome.exchanges.map (fun exchange => exchange.request.dpop) = ["no nonce", "nonce1"] := by
  intro attempt
  rcases sendWithNonceRetry_bounded challengeDecoder aliceSession createRecordCall attempt
      (fun _ => none) rfl with ⟨outcome, reached, _⟩
  refine ⟨outcome, reached, ?_⟩
  have computed : some outcome = some _ := (reached 2 (Nat.le_refl 2)).symm.trans rfl
  cases computed
  exact ⟨rfl, rfl⟩

theorem omitsNonce_challenge : (challenge []).OmitsNonce := by
  intro value text absurd
  cases absurd

theorem isChallenge_challenge : (challenge []).isChallenge challengeDecoder = true := rfl

/-- A challenge without a nonce, to a client that has no nonce either. -/
theorem omittedNonce_emptyCache :
    ∃ exchange after,
      sendWithNonceRetryContentType challengeDecoder aliceSession createRecordCall
          (fun _ => respondWith (challenge [])) 2 (fun _ => none) =
        some ⟨.error omittedNonce, [exchange], after⟩ := by
  have blank : ∀ text, (Text.trim text).isEmpty = true →
      challengeDecoder.extractDpopNonce (some text) = none := by
    intro text isBlank
    simp only [challengeDecoder, Option.bind_some, isBlank, if_true]
  have decided := omittedNonce_iff challengeDecoder aliceSession createRecordCall
    (fun _ => respondWith (challenge [])) (fun _ => none) blank rfl rfl rfl
    (fun _ => ⟨rfl, rfl, rfl⟩) rfl rfl rfl isChallenge_challenge omitsNonce_challenge
    (Nat.le_refl 2)
  exact decided.mpr rfl

/-- A challenge without a nonce, to a client that holds a nonce from an earlier
response: the request is sent again with the same nonce. -/
theorem retried_staleNonce :
    (challenge []).OmitsNonce ∧ (challenge []).isRefusal = true ∧
      (challenge []).isChallenge challengeDecoder = true ∧
      ∃ outcome : Outcome,
        sendWithNonceRetryContentType challengeDecoder aliceSession createRecordCall
            (fun _ => respondWith (challenge [])) 2 (fun _ => some "stale") = some outcome ∧
          outcome.exchanges.map (fun exchange => exchange.request.dpop) = ["stale", "stale"] ∧
          outcome.result = .error retryLimitExceeded := by
  exact ⟨omitsNonce_challenge, rfl, isChallenge_challenge, _, rfl, rfl, rfl⟩

end Skybase.Repo
