import Mathlib.Logic.Function.Basic
import Skybase.Error
import Skybase.Http
import Skybase.Json.Value

/-!
# The repository client

Requests carry a DPoP proof that contains the nonce cached for the origin of
their URL.  A server that wants another nonce refuses a request with a
challenge, and the client tries once more.  The authentication library and the
transport are not part of the repository: an attempt takes what they do as an
argument, and with it how other requests change the shared nonce cache
meanwhile.
-/

namespace Skybase.Repo

open Skybase.Json

/-- `MAX_ERROR_BODY_BYTES`. -/
def maxErrorBodyBytes : Nat := 65536

/-- A response, with its body as the chunks that arrive until it ends or fails. -/
structure Response where
  status : StatusCode
  headers : HeaderMap
  chunks : List (Except String (List UInt8))

/-- `XrpcErrorResponse`. -/
structure XrpcErrorResponse where
  error : Option String
  message : Option String

/-- What the client takes from `skyauth` and `serde_json` when it looks at a
response. -/
structure Decoder where
  /-- `extract_dpop_nonce`. -/
  extractDpopNonce : Option String → Option String
  /-- `serde_json::from_slice` into a value, without the error. -/
  value : List UInt8 → Option Value
  /-- `serde_json::from_slice` into an `XrpcErrorResponse`, without the error. -/
  xrpcError : List UInt8 → Option XrpcErrorResponse

/-! ## Responses -/

/-- Whether a challenge is one of the scheme `DPoP` with the error
`use_dpop_nonce`. -/
def isDpopNonceChallenge (challenge : String) : Bool :=
  match Text.splitAtChar (Text.trim challenge) ' ' with
  | none => false
  | some (scheme, rest) =>
      Text.eqIgnoreAsciiCase scheme "DPoP" &&
        (Text.split (Text.trimStart rest) ',').any fun param =>
          match Text.splitOnce (Text.trim param) '=' with
          | none => false
          | some (key, value) =>
              Text.eqIgnoreAsciiCase (Text.trim key) "error" &&
                Text.eqIgnoreAsciiCase (Text.trimMatches (Text.trim value) '"') "use_dpop_nonce"

/-- `is_rs_dpop_nonce_challenge`. -/
def isRsDpopNonceChallenge (headers : HeaderMap) : Bool :=
  ((headers.getAll "www-authenticate").filterMap HeaderValue.toStr).any isDpopNonceChallenge

/-- `is_use_dpop_nonce_error`. -/
def isUseDpopNonceError (json : Option Value) : Bool :=
  match (json.bind fun value => value.get "error").bind Value.asStr with
  | some err => Text.eqIgnoreAsciiCase err "use_dpop_nonce"
  | none => false

/-- The loop of `read_error_bytes_bounded`, with its buffer. -/
def readErrorBytes (maxBytes : Nat) (buffer : List UInt8) :
    List (Except String (List UInt8)) → List UInt8
  | .ok chunk :: chunks =>
      if buffer.length + chunk.length > maxBytes then
        buffer ++ chunk.take (maxBytes - buffer.length)
      else readErrorBytes maxBytes (buffer ++ chunk) chunks
  | _ => buffer

/-- `read_error_bytes_bounded`. -/
def readErrorBytesBounded (resp : Response) (maxBytes : Nat) : List UInt8 :=
  readErrorBytes maxBytes [] resp.chunks

/-- `format_xrpc_error`. -/
def formatXrpcError (decoder : Decoder) (status : StatusCode) (bytes : List UInt8) : String :=
  match decoder.xrpcError bytes with
  | some xrpcErr =>
      let code := xrpcErr.error.getD status.display
      let msg := xrpcErr.message.getD "Unknown error"
      s!"PDS request failed with status {status.display}: {code} - {msg}"
  | none =>
      let trimmed := Text.trim (String.ofList (Text.fromUtf8Lossy bytes))
      if trimmed.isEmpty then s!"HTTP request failed with status: {status.display}"
      else s!"HTTP request failed with status {status.display}: {trimmed}"

namespace Response

/-- The nonce that a response brings. -/
def newNonce (decoder : Decoder) (resp : Response) : Option String :=
  (((resp.headers.get "DPoP-Nonce").or (resp.headers.get "dpop-nonce")).bind
    HeaderValue.toStr).bind fun val => decoder.extractDpopNonce (some val)

/-- The bytes of the body that the client looks at. -/
def errBytes (resp : Response) : List UInt8 := readErrorBytesBounded resp maxErrorBodyBytes

/-- Whether a refusal is a challenge, by its headers or by the JSON of its body. -/
def isChallenge (decoder : Decoder) (resp : Response) : Bool :=
  isRsDpopNonceChallenge resp.headers || isUseDpopNonceError (decoder.value resp.errBytes)

/-- Whether the status lets the client look for a challenge. -/
def isRefusal (resp : Response) : Bool := resp.status.isUnauthorized || resp.status.isBadRequest

end Response

/-! ## Requests -/

/-- The cached nonces by origin. -/
abbrev NonceCache := String → Option String

/-- A request as it is sent. -/
structure Request where
  method : String
  url : String
  authorization : String
  dpop : String
  contentType : String
  accept : String
  body : Option (List UInt8)

/-- `OAuthSession`, as far as the client uses it. -/
structure OAuthSession where
  /-- The message of the expiry, if the session has expired. -/
  expired : Option String
  dpopAuthHeader : String

/-- A parsed URL: its text and the serialization of its origin. -/
structure Url where
  text : String
  origin : String

/-- The arguments of `send_with_nonce_retry_content_type`, and what the URL
parser and `normalize_htu` make of the URL. -/
structure SendCall where
  method : String
  urlStr : String
  contentType : String
  bodyBytes : Option (List UInt8)
  parsedUrl : Except String Url
  htu : Except String String

/-- What one iteration of the loop meets. -/
structure Attempt where
  /-- Other requests, before the cached nonce is read. -/
  beforeProof : NonceCache → NonceCache
  /-- `create_dpop_proof` on a method, a URL and a nonce. -/
  createDpopProof : String → String → Option String → Except String String
  /-- The answer to a request, or the error of the transport. -/
  answer : Request → Except String Response
  /-- Other requests, until the new nonce is recorded. -/
  whileSending : NonceCache → NonceCache
  /-- Other requests, until the cached nonce is read again. -/
  beforeCheck : NonceCache → NonceCache

/-- A request that was sent, and its answer. -/
structure Exchange where
  request : Request
  answer : Except String Response

/-- How an iteration of the loop ends. -/
inductive Turn where
  | done (result : Except SkybaseError Response)
  | again

/-- What a call returns, the requests it sent, and the cache it leaves. -/
structure Outcome where
  result : Except SkybaseError Response
  exchanges : List Exchange
  cache : NonceCache

/-- The error of a second challenge. -/
def retryLimitExceeded : SkybaseError :=
  .repo "DPoP nonce challenge retry limit exceeded (max 1 retry)"

/-- The error of a challenge for which no nonce is cached. -/
def omittedNonce : SkybaseError :=
  .repo "PDS issued use_dpop_nonce challenge but omitted DPoP-Nonce header"

/-- Steps 6 to 8 of an iteration, with the nonce that is cached after step 5. -/
def onResponse (decoder : Decoder) (attempts : Nat) (freshNonce : Option String)
    (resp : Response) : Turn :=
  if resp.status.isSuccess then .done (.ok resp)
  else if resp.isRefusal then
    if resp.isChallenge decoder then
      if attempts ≥ 2 then .done (.error retryLimitExceeded)
      else if freshNonce.isNone then .done (.error omittedNonce)
      else .again
    else .done (.error (.repo (formatXrpcError decoder resp.status resp.errBytes)))
  else .done (.error (.repo (formatXrpcError decoder resp.status resp.errBytes)))

/-- The request that an attempt builds. -/
def SendCall.request (call : SendCall) (session : OAuthSession) (url : Url) (dpopProof : String) :
    Request where
  method := call.method
  url := url.text
  authorization := session.dpopAuthHeader
  dpop := dpopProof
  contentType := call.contentType
  accept := "application/json"
  body := call.bodyBytes

/-- Step 5 of an iteration. -/
def recordNonce (decoder : Decoder) (origin : String) (resp : Response) (cache : NonceCache) :
    NonceCache :=
  match resp.newNonce decoder with
  | some nonce => Function.update cache origin (some nonce)
  | none => cache

/-- One iteration of the loop: how it ends, the request it sent, if it did, and
the cache after it. -/
def turn (decoder : Decoder) (session : OAuthSession) (call : SendCall) (url : Url) (htu : String)
    (attempt : Attempt) (attempts : Nat) (cache : NonceCache) :
    Turn × List Exchange × NonceCache :=
  let cache := attempt.beforeProof cache
  match attempt.createDpopProof call.method htu (cache url.origin) with
  | .error e => (.done (.error (.auth e)), [], cache)
  | .ok dpopProof =>
      let request := call.request session url dpopProof
      match attempt.answer request with
      | .error e => (.done (.error (.network e)), [⟨request, .error e⟩], cache)
      | .ok resp =>
          let cache := recordNonce decoder url.origin resp (attempt.whileSending cache)
          let cache := attempt.beforeCheck cache
          (onResponse decoder attempts (cache url.origin) resp, [⟨request, .ok resp⟩], cache)

/-- The loop, from an iteration on; `none` if the fuel does not suffice. -/
def sendLoop (decoder : Decoder) (session : OAuthSession) (call : SendCall) (url : Url)
    (htu : String) (attempt : Nat → Attempt) : Nat → Nat → NonceCache → Option Outcome
  | 0, _, _ => none
  | fuel + 1, attempts, cache =>
      let attempts := attempts + 1
      match turn decoder session call url htu (attempt attempts) attempts cache with
      | (.done result, exchanges, cache) => some ⟨result, exchanges, cache⟩
      | (.again, exchanges, cache) =>
          (sendLoop decoder session call url htu attempt fuel attempts cache).map fun later =>
            { later with exchanges := exchanges ++ later.exchanges }

/-- `PdsRepoClient::send_with_nonce_retry_content_type`, with fuel for its loop. -/
def sendWithNonceRetryContentType (decoder : Decoder) (session : OAuthSession) (call : SendCall)
    (attempt : Nat → Attempt) (fuel : Nat) (cache : NonceCache) : Option Outcome :=
  match session.expired with
  | some e => some ⟨.error (.auth e), [], cache⟩
  | none =>
      match call.parsedUrl with
      | .error e => some ⟨.error (.repo s!"Invalid request URL '{call.urlStr}': {e}"), [], cache⟩
      | .ok url =>
          match call.htu with
          | .error e => some ⟨.error (.auth e), [], cache⟩
          | .ok htu => sendLoop decoder session call url htu attempt fuel 0 cache

end Skybase.Repo
