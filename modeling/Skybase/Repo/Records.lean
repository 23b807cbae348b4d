import Skybase.Json.Serde
import Skybase.Repo.Client
import Skybase.Repo.Types

/-!
# The record methods of the repository client

The methods that write and read records prepare a request, which may fail
before anything is sent, send it with at most one retry and read the response.
The URL parser, the text codec of JSON and the transport are arguments.
-/

namespace Skybase.Repo

open Skybase.Json
open Skybase.Json.Serde

/-! ## Payloads -/

namespace Payload

/-- The names of the fields of `CreateRecordRequest`. -/
def createNames : List String := ["repo", "collection", "rkey", "validate", "record", "swapCommit"]

/-- The names of the fields of `PutRecordRequest`. -/
def putNames : List String :=
  ["repo", "collection", "rkey", "validate", "record", "swapRecord", "swapCommit"]

/-- The names of the fields of `DeleteRecordRequest`. -/
def deleteNames : List String := ["repo", "collection", "rkey", "swapRecord", "swapCommit"]

/-- A `CreateRecordRequest` of the client, which swaps no commit. -/
def create (did collection : String) (rkey : Option String) (validate : Bool) (record : Value) :
    Value :=
  structTree createNames
    [some (.string did), some (.string collection), rkey.map .string, some (.bool validate),
      some record, none]

/-- A `PutRecordRequest` of the client. -/
def put (did collection rkey : String) (validate : Bool) (record : Value) : Value :=
  structTree putNames
    [some (.string did), some (.string collection), some (.string rkey), some (.bool validate),
      some record, none, none]

/-- A `DeleteRecordRequest` of the client. -/
def delete (did collection rkey : String) : Value :=
  structTree deleteNames
    [some (.string did), some (.string collection), some (.string rkey), none, none]

end Payload

/-- `CreateRecordResult`, and `PutRecordResult`, which has the same fields. -/
structure RecordResult where
  uri : String
  cid : String
deriving DecidableEq

/-- `RecordView`. -/
structure RecordView where
  uri : String
  cid : String
  value : Value

def RecordView.names : List String := ["uri", "cid", "value"]

def RecordView.deserialize (tree : Value) : Option RecordView :=
  match structFields RecordView.names tree with
  | some [uri, cid, value] => do
      pure {
        uri := ← required readString uri
        cid := ← required readString cid
        value := ← required readValue value }
  | _ => none

/-! ## Other crates -/

/-- What the client takes from the `url` crate, and `normalize_htu`. -/
structure UrlCrate where
  Parsed : Type
  /-- `Url::parse`. -/
  parse : String → Except String Parsed
  path : Parsed → String
  setPath : Parsed → String → Parsed
  /-- `query_pairs_mut().append_pair`. -/
  appendPair : Parsed → String → String → Parsed
  asStr : Parsed → String
  /-- `origin().ascii_serialization()`. -/
  origin : Parsed → String
  normalizeHtu : String → Except String String

/-- What the client takes from `serde_json` for bodies. -/
structure BodyCodec where
  /-- `to_vec` of a tree. -/
  toVec : Value → List UInt8
  /-- The tree of a body. -/
  fromSlice : List UInt8 → Except String Value
  /-- The error of a derived implementation that refuses a tree. -/
  mismatch : Value → String

/-- The crates that the client stands on. -/
structure Crates where
  url : UrlCrate
  body : BodyCodec
  decoder : Decoder

/-! ## The client -/

/-- `MAX_SUCCESS_BODY_BYTES`. -/
def maxSuccessBodyBytes : Nat := 1048576

/-- `PdsRepoClient`: what it reads of its session, and the override. -/
structure PdsRepoClient where
  session : OAuthSession
  /-- `session.sub()`. -/
  did : String
  /-- `session.pds_endpoint()`. -/
  sessionEndpoint : Option String
  endpointOverride : Option String

/-- `PdsRepoClient::pds_endpoint`. -/
def PdsRepoClient.pdsEndpoint (client : PdsRepoClient) : Except SkybaseError String :=
  match client.endpointOverride with
  | some ep => .ok ep
  | none =>
      match client.sessionEndpoint with
      | some ep => .ok ep
      | none => .error (.repo "No PDS endpoint found in OAuthSession or client")

/-- `PdsRepoClient::build_xrpc_url`. -/
def PdsRepoClient.buildXrpcUrl (crate : UrlCrate) (client : PdsRepoClient) (nsid : String) :
    Except SkybaseError String := do
  let endpoint ← client.pdsEndpoint
  let trimmedEndpoint := Text.trimEndMatches endpoint '/'
  match crate.parse trimmedEndpoint with
  | .error e => .error (.repo s!"Invalid PDS endpoint URL '{trimmedEndpoint}': {e}")
  | .ok url =>
      let basePath := Text.trimEndMatches (crate.path url) '/'
      let fullPath := if basePath.isEmpty then s!"/xrpc/{nsid}" else s!"{basePath}/xrpc/{nsid}"
      .ok (crate.asStr (crate.setPath url fullPath))

/-- The call of `send_with_nonce_retry_content_type` for a URL. -/
def UrlCrate.sendCall (crate : UrlCrate) (method urlStr contentType : String)
    (bodyBytes : Option (List UInt8)) : SendCall where
  method := method
  urlStr := urlStr
  contentType := contentType
  bodyBytes := bodyBytes
  parsedUrl := (crate.parse urlStr).map fun url => ⟨crate.asStr url, crate.origin url⟩
  htu := crate.normalizeHtu urlStr

/-! ## Reading responses -/

/-- The loop of `read_bounded_bytes`, with its buffer. -/
def readBounded (maxBytes : Nat) (buffer : List UInt8) :
    List (Except String (List UInt8)) → Except SkybaseError (List UInt8)
  | [] => .ok buffer
  | .error e :: _ => .error (.network e)
  | .ok chunk :: chunks =>
      if buffer.length + chunk.length > maxBytes then
        .error (.repo s!"HTTP response body exceeded maximum limit of {maxBytes} bytes")
      else readBounded maxBytes (buffer ++ chunk) chunks

/-- `read_bounded_bytes`. -/
def readBoundedBytes (resp : Response) (maxBytes : Nat) : Except SkybaseError (List UInt8) :=
  readBounded maxBytes [] resp.chunks

/-- The tree of the body of a success. -/
def BodyCodec.tree (codec : BodyCodec) (resp : Response) : Except SkybaseError Value := do
  let respBytes ← readBoundedBytes resp maxSuccessBodyBytes
  (codec.fromSlice respBytes).mapError .serialization

/-- A text of the response that must not be blank. -/
def resultField (value : Value) (method name : String) : Except SkybaseError String :=
  match ((value.get name).bind Value.asStr).filter fun s => !(Text.trim s).isEmpty with
  | some s => .ok s
  | none => .error (.repo s!"Missing or empty '{name}' in {method} response")

/-- What `create_record` and `put_record` make of a success. -/
def BodyCodec.readRecordResult (codec : BodyCodec) (method : String) (resp : Response) :
    Except SkybaseError RecordResult := do
  let tree ← codec.tree resp
  let uri ← resultField tree.canonicalize method "uri"
  let cid ← resultField tree.canonicalize method "cid"
  .ok ⟨uri, cid⟩

/-- What `get_record` makes of a success. -/
def BodyCodec.readRecordView (codec : BodyCodec) (resp : Response) :
    Except SkybaseError RecordView := do
  let tree ← codec.tree resp
  match RecordView.deserialize tree with
  | some view => .ok view
  | none => .error (.serialization (codec.mismatch tree))

/-- What `upload_blob` makes of a success. -/
def BodyCodec.readBlob (codec : BodyCodec) (resp : Response) : Except SkybaseError Value := do
  let tree ← codec.tree resp
  match tree.canonicalize.get "blob" with
  | some blob => .ok blob
  | none => .error (.repo "Missing 'blob' in uploadBlob response")

/-! ## Methods -/

variable {α : Type}

/-- What a method returns, the requests it sent, and the nonce cache it leaves. -/
structure Called (α : Type) where
  result : Except SkybaseError α
  exchanges : List Exchange
  cache : NonceCache

/-- The shape of the methods: prepare, send and read; `fuel` is that of the
loop of the retries. -/
def PdsRepoClient.call (crates : Crates) (client : PdsRepoClient)
    (prepared : Except SkybaseError SendCall) (read : Response → Except SkybaseError α)
    (attempt : Nat → Attempt) (fuel : Nat) (cache : NonceCache) : Option (Called α) :=
  match prepared with
  | .error e => some ⟨.error e, [], cache⟩
  | .ok call =>
      (sendWithNonceRetryContentType crates.decoder client.session call attempt fuel cache).map
        fun outcome => ⟨outcome.result.bind read, outcome.exchanges, outcome.cache⟩

/-- A POST of a JSON body to a method of the PDS. -/
def PdsRepoClient.post (crates : Crates) (client : PdsRepoClient) (nsid : String)
    (payload : Value) : Except SkybaseError SendCall := do
  let bodyBytes := crates.body.toVec payload
  let url ← client.buildXrpcUrl crates.url nsid
  .ok (crates.url.sendCall "POST" url "application/json" (some bodyBytes))

namespace PdsRepoClient

/-- The request of `create_record`.  The record is its tree, or the error of its
serialization. -/
def prepareCreate (crates : Crates) (client : PdsRepoClient) (collection : String)
    (rkey : Option String) (record : Except String Value) (validate : Bool) :
    Except SkybaseError SendCall := do
  if let some rk := rkey then validateRkey rk
  let tree ← record.mapError .serialization
  client.post crates "com.atproto.repo.createRecord"
    (Payload.create client.did collection rkey validate tree)

/-- `PdsRepoClient::create_record`. -/
def createRecord (crates : Crates) (client : PdsRepoClient) (collection : String)
    (rkey : Option String) (record : Except String Value) (validate : Bool) :
    (Nat → Attempt) → Nat → NonceCache → Option (Called RecordResult) :=
  client.call crates (client.prepareCreate crates collection rkey record validate)
    (crates.body.readRecordResult "createRecord")

/-- The request of `put_record`. -/
def preparePut (crates : Crates) (client : PdsRepoClient) (collection rkey : String)
    (record : Except String Value) (validate : Bool) : Except SkybaseError SendCall := do
  validateRkey rkey
  let tree ← record.mapError .serialization
  client.post crates "com.atproto.repo.putRecord"
    (Payload.put client.did collection rkey validate tree)

/-- `PdsRepoClient::put_record`. -/
def putRecord (crates : Crates) (client : PdsRepoClient) (collection rkey : String)
    (record : Except String Value) (validate : Bool) :
    (Nat → Attempt) → Nat → NonceCache → Option (Called RecordResult) :=
  client.call crates (client.preparePut crates collection rkey record validate)
    (crates.body.readRecordResult "putRecord")

/-- The request of `delete_record`. -/
def prepareDelete (crates : Crates) (client : PdsRepoClient) (collection rkey : String) :
    Except SkybaseError SendCall := do
  validateRkey rkey
  client.post crates "com.atproto.repo.deleteRecord" (Payload.delete client.did collection rkey)

/-- `PdsRepoClient::delete_record`. -/
def deleteRecord (crates : Crates) (client : PdsRepoClient) (collection rkey : String) :
    (Nat → Attempt) → Nat → NonceCache → Option (Called Unit) :=
  client.call crates (client.prepareDelete crates collection rkey) fun _ => .ok ()

/-- The request of `get_record`. -/
def prepareGet (crates : Crates) (client : PdsRepoClient) (repo collection rkey : String) :
    Except SkybaseError SendCall := do
  validateRkey rkey
  let urlStr ← client.buildXrpcUrl crates.url "com.atproto.repo.getRecord"
  match crates.url.parse urlStr with
  | .error e => .error (.repo s!"Invalid URL '{urlStr}': {e}")
  | .ok parsed =>
      let parsed := crates.url.appendPair parsed "repo" repo
      let parsed := crates.url.appendPair parsed "collection" collection
      let parsed := crates.url.appendPair parsed "rkey" rkey
      .ok (crates.url.sendCall "GET" (crates.url.asStr parsed) "application/json" none)

/-- `PdsRepoClient::get_record`. -/
def getRecord (crates : Crates) (client : PdsRepoClient) (repo collection rkey : String) :
    (Nat → Attempt) → Nat → NonceCache → Option (Called RecordView) :=
  client.call crates (client.prepareGet crates repo collection rkey) crates.body.readRecordView

/-- The request of `upload_blob`. -/
def prepareUpload (crates : Crates) (client : PdsRepoClient) (mimeType : String)
    (bytes : List UInt8) : Except SkybaseError SendCall := do
  let url ← client.buildXrpcUrl crates.url "com.atproto.repo.uploadBlob"
  .ok (crates.url.sendCall "POST" url mimeType (some bytes))

/-- `PdsRepoClient::upload_blob`. -/
def uploadBlob (crates : Crates) (client : PdsRepoClient) (mimeType : String)
    (bytes : List UInt8) : (Nat → Attempt) → Nat → NonceCache → Option (Called Value) :=
  client.call crates (client.prepareUpload crates mimeType bytes) crates.body.readBlob

end PdsRepoClient

end Skybase.Repo
