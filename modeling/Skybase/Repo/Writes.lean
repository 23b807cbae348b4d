import Skybase.Repo.NonceRetry
import Skybase.Repo.Records

/-!
# Writes happen at most once

However the transport cuts, loses or delays what the PDS answers, a method of
the client sends its request at most twice, and the PDS has carried out at most
one of them.  A method that returns a result has read it from the answer to the
request that was carried out.
-/

namespace Skybase.Repo

open Skybase.Json
open Skybase.Json.Serde

variable {α : Type}

/-! ## Bodies -/

/-- The bytes of a body that arrive, and the failure that ends them. -/
def arrived : List (Except String (List UInt8)) → List UInt8 × Option String
  | [] => ([], none)
  | .error e :: _ => ([], some e)
  | .ok chunk :: chunks => (chunk ++ (arrived chunks).1, (arrived chunks).2)

/-- A body up to a limit, in terms of what arrives. -/
def boundedBody (maxBytes : Nat) (bytes : List UInt8) (failure : Option String) :
    Except SkybaseError (List UInt8) :=
  if bytes.length > maxBytes then
    .error (.repo s!"HTTP response body exceeded maximum limit of {maxBytes} bytes")
  else failure.elim (.ok bytes) fun e => .error (.network e)

/-- What is read of a body depends on what arrives, not on the chunks. -/
theorem readBounded_eq {maxBytes : Nat} (chunks : List (Except String (List UInt8)))
    {buffer : List UInt8} (short : buffer.length ≤ maxBytes) :
    readBounded maxBytes buffer chunks =
      boundedBody maxBytes (buffer ++ (arrived chunks).1) (arrived chunks).2 := by
  induction chunks generalizing buffer with
  | nil =>
      rw [readBounded, arrived, List.append_nil, boundedBody, if_neg (Nat.not_lt.mpr short)]
      rfl
  | cons first chunks ih =>
      cases first with
      | error e =>
          rw [readBounded, arrived, List.append_nil, boundedBody, if_neg (Nat.not_lt.mpr short)]
          rfl
      | ok chunk =>
          rw [readBounded, arrived, ← List.append_assoc]
          split
          · next long =>
              have exceeds : (buffer ++ chunk ++ (arrived chunks).1).length > maxBytes := by
                rw [List.length_append, List.length_append]
                omega
              rw [boundedBody, if_pos exceeds]
          · next fits =>
              apply ih
              rw [List.length_append]
              exact Nat.not_lt.mp fits

theorem readErrorBytes_eq {maxBytes : Nat} (chunks : List (Except String (List UInt8)))
    {buffer : List UInt8} (short : buffer.length ≤ maxBytes) :
    readErrorBytes maxBytes buffer chunks = (buffer ++ (arrived chunks).1).take maxBytes := by
  induction chunks generalizing buffer with
  | nil => rw [readErrorBytes, arrived, List.append_nil, List.take_of_length_le short]; nofun
  | cons first chunks ih =>
      cases first with
      | error e =>
          rw [readErrorBytes, arrived, List.append_nil, List.take_of_length_le short]
          nofun
      | ok chunk =>
          rw [readErrorBytes, arrived, ← List.append_assoc]
          split
          · next long =>
              rw [List.append_assoc, List.take_append, List.take_of_length_le short,
                List.take_append_of_le_length]
              omega
          · next fits =>
              apply ih
              rw [List.length_append]
              exact Nat.not_lt.mp fits

/-- A response whose body arrives as one chunk. -/
def Response.merge (resp : Response) : Response :=
  { resp with
    chunks := .ok (arrived resp.chunks).1 :: ((arrived resp.chunks).2.map Except.error).toList }

theorem arrived_merge (resp : Response) : arrived resp.merge.chunks = arrived resp.chunks := by
  rw [Response.merge]
  cases failure : (arrived resp.chunks).2 with
  | none =>
      rw [Option.map_none, Option.toList_none, arrived, arrived, List.append_nil, ← failure]
  | some e =>
      rw [Option.map_some, Option.toList_some, arrived, arrived, List.append_nil, ← failure]

theorem readBoundedBytes_merge (resp : Response) (maxBytes : Nat) :
    readBoundedBytes resp.merge maxBytes = readBoundedBytes resp maxBytes := by
  rw [readBoundedBytes, readBoundedBytes, readBounded_eq _ (Nat.zero_le _),
    readBounded_eq _ (Nat.zero_le _), arrived_merge]

theorem errBytes_merge (resp : Response) : resp.merge.errBytes = resp.errBytes := by
  rw [Response.errBytes, Response.errBytes, readErrorBytesBounded, readErrorBytesBounded,
    readErrorBytes_eq _ (Nat.zero_le _), readErrorBytes_eq _ (Nat.zero_le _), arrived_merge]

/-! ## Calls do not see the chunks -/

/-- An exchange whose answer arrives as one chunk. -/
def Exchange.merge (exchange : Exchange) : Exchange :=
  { exchange with answer := exchange.answer.map Response.merge }

/-- An iteration that meets the same, in one chunk. -/
def Attempt.merge (attempt : Attempt) : Attempt :=
  { attempt with answer := fun request => (attempt.answer request).map Response.merge }

/-- The end of an iteration with its response in one chunk. -/
def Turn.merge : Turn → Turn
  | .done result => .done (result.map Response.merge)
  | .again => .again

theorem onResponse_merge (decoder : Decoder) (attempts : Nat) (freshNonce : Option String)
    (resp : Response) :
    onResponse decoder attempts freshNonce resp.merge =
      (onResponse decoder attempts freshNonce resp).merge := by
  have challenge : resp.merge.isChallenge decoder = resp.isChallenge decoder := by
    rw [Response.isChallenge, Response.isChallenge, errBytes_merge]
    rfl
  have refusal : resp.merge.isRefusal = resp.isRefusal := rfl
  have status : resp.merge.status = resp.status := rfl
  rw [onResponse, onResponse, challenge, refusal, status, errBytes_merge]
  split
  · rfl
  · split
    · split
      · split
        · rfl
        · split <;> rfl
      · rfl
    · rfl

section Merge

variable (decoder : Decoder) (session : OAuthSession) (call : SendCall)

theorem turn_merge (url : Url) (htu : String) (attempt : Attempt) (attempts : Nat)
    (cache : NonceCache) :
    turn decoder session call url htu attempt.merge attempts cache =
      ((turn decoder session call url htu attempt attempts cache).1.merge,
        (turn decoder session call url htu attempt attempts cache).2.1.map Exchange.merge,
        (turn decoder session call url htu attempt attempts cache).2.2) := by
  unfold turn
  dsimp only [Attempt.merge]
  split
  · rfl
  · next dpopProof _ =>
      cases attempt.answer (call.request session url dpopProof) with
      | error e => rfl
      | ok resp =>
          dsimp only [Except.map]
          rw [onResponse_merge]
          rfl

/-- What a call returns, with its response in one chunk. -/
def Outcome.merge (outcome : Outcome) : Outcome :=
  ⟨outcome.result.map Response.merge, outcome.exchanges.map Exchange.merge, outcome.cache⟩

theorem sendLoop_merge (url : Url) (htu : String) (attempt : Nat → Attempt) (fuel attempts : Nat)
    (cache : NonceCache) :
    sendLoop decoder session call url htu (fun n => (attempt n).merge) fuel attempts cache =
      (sendLoop decoder session call url htu attempt fuel attempts cache).map Outcome.merge := by
  induction fuel generalizing attempts cache with
  | zero => rfl
  | succ fuel ih =>
      rw [sendLoop, sendLoop]
      rw [turn_merge]
      rcases turn decoder session call url htu (attempt (attempts + 1)) (attempts + 1) cache with
        ⟨result | _, exchanges, after⟩
      · rfl
      · dsimp only [Turn.merge]
        rw [ih, Option.map_map, Option.map_map]
        congr 1
        funext later
        simp only [Function.comp_apply, Outcome.merge, List.map_append]

theorem sendWithNonceRetry_merge (attempt : Nat → Attempt) (fuel : Nat) (cache : NonceCache) :
    sendWithNonceRetryContentType decoder session call (fun n => (attempt n).merge) fuel cache =
      (sendWithNonceRetryContentType decoder session call attempt fuel cache).map
        Outcome.merge := by
  unfold sendWithNonceRetryContentType
  split
  · rfl
  · split
    · rfl
    · split
      · rfl
      · exact sendLoop_merge decoder session call _ _ attempt fuel 0 cache

end Merge

/-- What a method shows of its work: the result, the requests and the cache. -/
def Called.shown (called : Called α) : Except SkybaseError α × List Request × NonceCache :=
  (called.result, called.exchanges.map Exchange.request, called.cache)

/-- Attempts that differ at most in how bodies are cut into chunks. -/
def SameButChunks (attempt other : Nat → Attempt) : Prop :=
  ∀ n, (attempt n).merge = (other n).merge

theorem shown_call_merge (crates : Crates) (client : PdsRepoClient)
    (prepared : Except SkybaseError SendCall) {read : Response → Except SkybaseError α}
    (reads : ∀ resp, read resp.merge = read resp) (attempt : Nat → Attempt) (fuel : Nat)
    (cache : NonceCache) :
    (client.call crates prepared read (fun n => (attempt n).merge) fuel cache).map Called.shown =
      (client.call crates prepared read attempt fuel cache).map Called.shown := by
  unfold PdsRepoClient.call
  cases prepared with
  | error e => rfl
  | ok call =>
      dsimp only
      rw [sendWithNonceRetry_merge, Option.map_map, Option.map_map, Option.map_map]
      congr 1
      funext outcome
      rcases outcome with ⟨result, exchanges, after⟩
      have requests : exchanges.map (Exchange.request ∘ Exchange.merge) =
          exchanges.map Exchange.request := rfl
      cases result with
      | error e =>
          simp only [Function.comp_apply, Outcome.merge, Called.shown, List.map_map, requests]
          rfl
      | ok resp =>
          simp only [Function.comp_apply, Outcome.merge, Called.shown, List.map_map, requests]
          exact congrArg (fun result => (result, _, after)) (reads resp)

theorem shown_call_congr (crates : Crates) (client : PdsRepoClient)
    (prepared : Except SkybaseError SendCall) {read : Response → Except SkybaseError α}
    (reads : ∀ resp, read resp.merge = read resp) {attempt other : Nat → Attempt}
    (same : SameButChunks attempt other) (fuel : Nat) (cache : NonceCache) :
    (client.call crates prepared read attempt fuel cache).map Called.shown =
      (client.call crates prepared read other fuel cache).map Called.shown := by
  rw [← shown_call_merge crates client prepared reads attempt, funext same]
  exact shown_call_merge crates client prepared reads other fuel cache

theorem tree_merge (codec : BodyCodec) (resp : Response) :
    codec.tree resp.merge = codec.tree resp := by
  rw [BodyCodec.tree, BodyCodec.tree, readBoundedBytes_merge]

/-- How the transport cuts the bodies of the responses into chunks changes
nothing: not the result of a method, not the requests that it sends and not the
nonces that it leaves, whatever the bodies hold and wherever they are cut off. -/
theorem methods_sameButChunks (crates : Crates) (client : PdsRepoClient)
    {attempt other : Nat → Attempt} (same : SameButChunks attempt other) (fuel : Nat)
    (cache : NonceCache) :
    (∀ collection rkey record validate,
        (client.createRecord crates collection rkey record validate attempt fuel cache).map
            Called.shown =
          (client.createRecord crates collection rkey record validate other fuel cache).map
            Called.shown) ∧
      (∀ collection rkey record validate,
        (client.putRecord crates collection rkey record validate attempt fuel cache).map
            Called.shown =
          (client.putRecord crates collection rkey record validate other fuel cache).map
            Called.shown) ∧
      (∀ collection rkey,
        (client.deleteRecord crates collection rkey attempt fuel cache).map Called.shown =
          (client.deleteRecord crates collection rkey other fuel cache).map Called.shown) ∧
      (∀ repo collection rkey,
        (client.getRecord crates repo collection rkey attempt fuel cache).map Called.shown =
          (client.getRecord crates repo collection rkey other fuel cache).map Called.shown) ∧
      ∀ mimeType bytes,
        (client.uploadBlob crates mimeType bytes attempt fuel cache).map Called.shown =
          (client.uploadBlob crates mimeType bytes other fuel cache).map Called.shown := by
  have results (method : String) (resp : Response) :
      crates.body.readRecordResult method resp.merge =
        crates.body.readRecordResult method resp := by
    rw [BodyCodec.readRecordResult, BodyCodec.readRecordResult, tree_merge]
  have views (resp : Response) :
      crates.body.readRecordView resp.merge = crates.body.readRecordView resp := by
    rw [BodyCodec.readRecordView, BodyCodec.readRecordView, tree_merge]
  have blobs (resp : Response) : crates.body.readBlob resp.merge = crates.body.readBlob resp := by
    rw [BodyCodec.readBlob, BodyCodec.readBlob, tree_merge]
  refine ⟨?_, ?_, ?_, ?_, ?_⟩
  · intro collection rkey record validate
    exact shown_call_congr crates client _ (results _) same fuel cache
  · intro collection rkey record validate
    exact shown_call_congr crates client _ (results _) same fuel cache
  · intro collection rkey
    exact shown_call_congr crates client _ (fun _ => rfl) same fuel cache
  · intro repo collection rkey
    exact shown_call_congr crates client _ views same fuel cache
  · intro mimeType bytes
    exact shown_call_congr crates client _ blobs same fuel cache

/-- Crates that take URLs and bodies as they are. -/
def plainCrates : Crates where
  url :=
    { Parsed := String
      parse := .ok
      path := fun _ => ""
      setPath := fun endpoint path => endpoint ++ path
      appendPair := fun url name value => url ++ name ++ value
      asStr := id
      origin := id
      normalizeHtu := .ok }
  body :=
    { toVec := fun _ => []
      fromSlice := fun _ => .error "EOF while parsing a value"
      mismatch := fun _ => "invalid type" }
  decoder := challengeDecoder

/-- The client of a session that has not expired. -/
def alice : PdsRepoClient := ⟨aliceSession, "did:plc:alice", some "https://pds.example.com", none⟩

/-- The challenge in two chunks. -/
def cutChallenge : Response :=
  { challenge [] with chunks := [.ok (challengeBody.take 9), .ok (challengeBody.drop 9)] }

theorem merge_cutChallenge : cutChallenge.merge = (challenge []).merge := by
  have whole : arrived cutChallenge.chunks = arrived (challenge []).chunks := by
    simp only [cutChallenge, challenge, arrived, List.append_nil, List.take_append_drop]
  rw [Response.merge, Response.merge, whole]
  rfl

/-- A challenge is recognized across the border of two chunks. -/
theorem methods_sameButChunks_challenge :
    (alice.deleteRecord plainCrates "app.bsky.feed.post" "post1"
        (fun _ => respondWith cutChallenge) 2 fun _ => none).map Called.shown =
      (alice.deleteRecord plainCrates "app.bsky.feed.post" "post1"
        (fun _ => respondWith (challenge [])) 2 fun _ => none).map Called.shown := by
  have same : SameButChunks (fun _ => respondWith cutChallenge)
      fun _ => respondWith (challenge []) := by
    intro n
    have answers : (fun _ : Request => (Except.ok cutChallenge.merge : Except String Response)) =
        fun _ => .ok (challenge []).merge := by
      rw [merge_cutChallenge]
    exact congrArg (fun answer => { respondWith (challenge []) with answer }) answers
  exact (methods_sameButChunks plainCrates alice same 2 fun _ => none).2.2.1 _ _

/-! ## The PDS -/

/-- A PDS: what it answers to a request, and what it becomes.  A request that it
does not grant changes nothing. -/
structure Pds where
  State : Type
  execute : State → Request → Response × State
  refuses : ∀ state request, ¬ (execute state request).1.status.isSuccess = true →
    (execute state request).2 = state

/-- A PDS meets the requests of the client: it answers a request, or the
transport fails before or after the request is carried out. -/
inductive Pds.Serves (pds : Pds) : pds.State → List Exchange → pds.State → Prop
  | idle (state : pds.State) : Serves pds state [] state
  | answered {state after : pds.State} {request : Request} {rest : List Exchange}
      (later : Serves pds (pds.execute state request).2 rest after) :
      Serves pds state (⟨request, .ok (pds.execute state request).1⟩ :: rest) after
  | lost {state after : pds.State} {request : Request} {rest : List Exchange} (e : String)
      (later : Serves pds state rest after) : Serves pds state (⟨request, .error e⟩ :: rest) after
  | unheard {state after : pds.State} {request : Request} {rest : List Exchange} (e : String)
      (later : Serves pds (pds.execute state request).2 rest after) :
      Serves pds state (⟨request, .error e⟩ :: rest) after

namespace Pds

variable {pds : Pds}

/-- Requests that are refused leave the PDS as it was. -/
theorem Serves.state_eq {state middle : pds.State} {exchanges : List Exchange}
    (serves : pds.Serves state exchanges middle)
    (refused : ∀ exchange ∈ exchanges, ∃ resp, exchange.answer = .ok resp ∧
      ¬ resp.status.isSuccess = true) : middle = state := by
  induction serves with
  | idle state => rfl
  | answered later ih =>
      rw [List.forall_mem_cons] at refused
      rcases refused.1 with ⟨resp, answered, failure⟩
      cases answered
      rw [ih refused.2]
      exact pds.refuses _ _ failure
  | lost e later ih =>
      rcases refused _ List.mem_cons_self with ⟨resp, absurd, _⟩
      cases absurd
  | unheard e later ih =>
      rcases refused _ List.mem_cons_self with ⟨resp, absurd, _⟩
      cases absurd

theorem Serves.append {state after : pds.State} {first second : List Exchange}
    (serves : pds.Serves state (first ++ second) after) :
    ∃ middle, pds.Serves state first middle ∧ pds.Serves middle second after := by
  induction first generalizing state with
  | nil => exact ⟨state, .idle state, serves⟩
  | cons exchange first ih =>
      cases serves with
      | answered later =>
          rcases ih later with ⟨middle, served, rest⟩
          exact ⟨middle, .answered served, rest⟩
      | lost e later =>
          rcases ih later with ⟨middle, served, rest⟩
          exact ⟨middle, .lost e served, rest⟩
      | unheard e later =>
          rcases ih later with ⟨middle, served, rest⟩
          exact ⟨middle, .unheard e served, rest⟩

theorem Serves.last {state after : pds.State} {exchange : Exchange}
    (serves : pds.Serves state [exchange] after) :
    (exchange.answer = .ok (pds.execute state exchange.request).1 ∧
        after = (pds.execute state exchange.request).2) ∨
      (∃ e, exchange.answer = .error e) ∧
        (after = state ∨ after = (pds.execute state exchange.request).2) := by
  cases serves with
  | answered later =>
      cases later
      exact Or.inl ⟨rfl, rfl⟩
  | lost e later =>
      cases later
      exact Or.inr ⟨⟨e, rfl⟩, Or.inl rfl⟩
  | unheard e later =>
      cases later
      exact Or.inr ⟨⟨e, rfl⟩, Or.inr rfl⟩

end Pds

/-- What a PDS makes of the exchanges of a call: nothing before the last one
changes it. -/
theorem Outcome.Bounded.served {decoder : Decoder} {call : SendCall} {outcome : Outcome}
    (bounded : outcome.Bounded decoder call) {pds : Pds} {state after : pds.State}
    (serves : pds.Serves state outcome.exchanges after) :
    (outcome.exchanges = [] ∧ after = state) ∨
      ∃ last, outcome.exchanges.getLast? = some last ∧ pds.Serves state [last] after := by
  rcases List.eq_nil_or_concat outcome.exchanges with empty | ⟨before, last, split⟩
  · rw [empty] at serves
    cases serves
    exact Or.inl ⟨empty, rfl⟩
  · rw [List.concat_eq_append] at split
    rw [split] at serves
    rcases serves.append with ⟨middle, first, second⟩
    have refused : ∀ exchange ∈ before, ∃ resp, exchange.answer = .ok resp ∧
        ¬ resp.status.isSuccess = true := by
      intro exchange mem
      rcases List.append_of_mem mem with ⟨front, back, rfl⟩
      obtain ⟨next, later, follows⟩ : ∃ next later, back ++ [last] = next :: later := by
        cases back with
        | nil => exact ⟨last, [], rfl⟩
        | cons next back => exact ⟨next, back ++ [last], rfl⟩
      rw [List.append_assoc, List.cons_append, follows] at split
      rcases bounded.afterChallenge front exchange next later split with
        ⟨resp, answered, refusal, _⟩
      rw [Response.isRefusal, Bool.or_eq_true] at refusal
      exact ⟨resp, answered, StatusCode.not_isSuccess refusal⟩
    obtain rfl := first.state_eq refused
    refine Or.inr ⟨last, ?_, second⟩
    rw [split, List.getLast?_append, List.getLast?_singleton]
    rfl

/-! ## Writes -/

/-- The methods that write records, with their arguments. -/
inductive Write where
  | create (collection : String) (rkey : Option String) (record : Except String Value)
      (validate : Bool)
  | put (collection rkey : String) (record : Except String Value) (validate : Bool)
  | delete (collection rkey : String)

/-- What a method makes of its result. -/
def Called.map {β : Type} (f : α → β) (called : Called α) : Called β :=
  ⟨called.result.map f, called.exchanges, called.cache⟩

namespace Write

/-- The record key that is asked for. -/
def rkey : Write → Option String
  | create _ rkey _ _ => rkey
  | put _ rkey _ _ => some rkey
  | delete _ rkey => some rkey

/-- The method of the PDS. -/
def nsid : Write → String
  | create _ _ _ _ => "com.atproto.repo.createRecord"
  | put _ _ _ _ => "com.atproto.repo.putRecord"
  | delete _ _ => "com.atproto.repo.deleteRecord"

/-- The names of the fields of the payload. -/
def names : Write → List String
  | create _ _ _ _ => Payload.createNames
  | put _ _ _ _ => Payload.putNames
  | delete _ _ => Payload.deleteNames

/-- The fields of the payload, unless the record fails to serialize. -/
def fields (did : String) : Write → Except String (List (Option Value))
  | create collection rkey record validate =>
      record.map fun tree =>
        [some (.string did), some (.string collection), rkey.map .string, some (.bool validate),
          some tree, none]
  | put collection rkey record validate =>
      record.map fun tree =>
        [some (.string did), some (.string collection), some (.string rkey),
          some (.bool validate), some tree, none, none]
  | delete collection rkey =>
      .ok [some (.string did), some (.string collection), some (.string rkey), none, none]

/-- The method that is called; a deletion has no result. -/
def run (crates : Crates) (client : PdsRepoClient) (attempt : Nat → Attempt) (fuel : Nat)
    (cache : NonceCache) : Write → Option (Called (Option RecordResult))
  | create collection rkey record validate =>
      (client.createRecord crates collection rkey record validate attempt fuel cache).map
        (Called.map some)
  | put collection rkey record validate =>
      (client.putRecord crates collection rkey record validate attempt fuel cache).map
        (Called.map some)
  | delete collection rkey =>
      (client.deleteRecord crates collection rkey attempt fuel cache).map
        (Called.map fun _ => none)

/-- The request that is prepared. -/
def prepare (crates : Crates) (client : PdsRepoClient) : Write → Except SkybaseError SendCall
  | create collection rkey record validate =>
      client.prepareCreate crates collection rkey record validate
  | put collection rkey record validate => client.preparePut crates collection rkey record validate
  | delete collection rkey => client.prepareDelete crates collection rkey

/-- What is read of a success. -/
def read (crates : Crates) : Write → Response → Except SkybaseError (Option RecordResult)
  | create _ _ _ _ => fun resp => (crates.body.readRecordResult "createRecord" resp).map some
  | put _ _ _ _ => fun resp => (crates.body.readRecordResult "putRecord" resp).map some
  | delete _ _ => fun _ => .ok none

theorem map_call {β : Type} (crates : Crates) (client : PdsRepoClient)
    (prepared : Except SkybaseError SendCall) (read : Response → Except SkybaseError α) (f : α → β)
    (attempt : Nat → Attempt) (fuel : Nat) (cache : NonceCache) :
    (client.call crates prepared read attempt fuel cache).map (Called.map f) =
      client.call crates prepared (fun resp => (read resp).map f) attempt fuel cache := by
  unfold PdsRepoClient.call
  cases prepared with
  | error e => rfl
  | ok call =>
      dsimp only
      rw [Option.map_map]
      congr 1
      funext outcome
      rcases outcome with ⟨result, exchanges, after⟩
      cases result <;> rfl

theorem run_eq_call (crates : Crates) (client : PdsRepoClient) (write : Write)
    (attempt : Nat → Attempt) (fuel : Nat) (cache : NonceCache) :
    write.run crates client attempt fuel cache =
      client.call crates (write.prepare crates client) (write.read crates) attempt fuel cache := by
  cases write with
  | create collection rkey record validate => exact map_call ..
  | put collection rkey record validate => exact map_call ..
  | delete collection rkey => exact map_call ..

theorem post_eq_ok {crates : Crates} {client : PdsRepoClient} {nsid : String} {payload : Value}
    {call : SendCall} (posted : client.post crates nsid payload = .ok call) :
    ∃ url, client.buildXrpcUrl crates.url nsid = .ok url ∧
      call = crates.url.sendCall "POST" url "application/json"
        (some (crates.body.toVec payload)) := by
  rcases Except.bind_eq_ok_iff.mp posted with ⟨url, built, done⟩
  cases done
  exact ⟨url, built, rfl⟩

/-- A record that is posted serializes. -/
theorem post_record_eq_ok {crates : Crates} {client : PdsRepoClient} {nsid : String}
    {record : Except String Value} {payload : Value → Value} {call : SendCall}
    (posted : (do
      let tree ← record.mapError SkybaseError.serialization
      client.post crates nsid (payload tree)) = .ok call) :
    ∃ tree url, record = .ok tree ∧ client.buildXrpcUrl crates.url nsid = .ok url ∧
      call = crates.url.sendCall "POST" url "application/json"
        (some (crates.body.toVec (payload tree))) := by
  rcases Except.bind_eq_ok_iff.mp posted with ⟨tree, serialized, posted⟩
  rcases post_eq_ok posted with ⟨url, built, call_eq⟩
  cases record with
  | error e => cases serialized
  | ok written =>
      cases serialized
      exact ⟨_, url, rfl, built, call_eq⟩

/-- A request is prepared only for a valid record key and a record that
serializes. -/
theorem prepare_eq_ok {crates : Crates} {client : PdsRepoClient} {write : Write} {call : SendCall}
    (prepared : write.prepare crates client = .ok call) :
    (∀ rk ∈ write.rkey, validateRkey rk = .ok ()) ∧
      ∃ values url, write.fields client.did = .ok values ∧
        client.buildXrpcUrl crates.url write.nsid = .ok url ∧
        call = crates.url.sendCall "POST" url "application/json"
          (some (crates.body.toVec (structTree write.names values))) := by
  have only {rkey rk : String} (validated : validateRkey rkey = .ok ()) (mem : rk ∈ some rkey) :
      validateRkey rk = .ok () := by
    cases Option.mem_def.mp mem
    exact validated
  cases write with
  | create collection rkey record validate =>
      cases rkey with
      | none =>
          rcases post_record_eq_ok prepared with ⟨tree, url, rfl, built, call_eq⟩
          refine ⟨?_, _, url, rfl, built, call_eq⟩
          intro rk absurd
          cases absurd
      | some rkey =>
          rcases Except.bind_eq_ok_iff.mp prepared with ⟨_, validated, prepared⟩
          rcases post_record_eq_ok prepared with ⟨tree, url, rfl, built, call_eq⟩
          exact ⟨fun rk mem => only validated mem, _, url, rfl, built, call_eq⟩
  | put collection rkey record validate =>
      rcases Except.bind_eq_ok_iff.mp prepared with ⟨_, validated, prepared⟩
      rcases post_record_eq_ok prepared with ⟨tree, url, rfl, built, call_eq⟩
      exact ⟨fun rk mem => only validated mem, _, url, rfl, built, call_eq⟩
  | delete collection rkey =>
      rcases Except.bind_eq_ok_iff.mp prepared with ⟨_, validated, prepared⟩
      rcases post_eq_ok prepared with ⟨url, built, call_eq⟩
      exact ⟨fun rk mem => only validated mem, _, url, rfl, built, call_eq⟩

theorem nodup_names (write : Write) : write.names.Nodup := by
  cases write with
  | create collection rkey record validate => simp [names, Payload.createNames]
  | put collection rkey record validate => simp [names, Payload.putNames]
  | delete collection rkey => simp [names, Payload.deleteNames]

theorem length_names {write : Write} {did : String} {values : List (Option Value)}
    (fields : write.fields did = .ok values) : write.names.length = values.length := by
  cases write with
  | create collection rkey record validate => cases record <;> cases fields; rfl
  | put collection rkey record validate => cases record <;> cases fields; rfl
  | delete collection rkey => cases fields; rfl

end Write

/-- Bodies are read as they were written but for their doubles. -/
def BodyCodec.Lawful (codec : BodyCodec) (again : U64 → U64) : Prop :=
  ∀ tree : Value, tree.depth ≤ 127 → codec.fromSlice (codec.toVec tree) = .ok (tree.reread again)

/-- A call ends after at most two iterations, within its bounds. -/
theorem exists_send (decoder : Decoder) (session : OAuthSession) (call : SendCall)
    (attempt : Nat → Attempt) (cache : NonceCache) :
    ∃ outcome : Outcome, outcome.Bounded decoder call ∧ ∀ fuel, 2 ≤ fuel →
      sendWithNonceRetryContentType decoder session call attempt fuel cache = some outcome := by
  unfold sendWithNonceRetryContentType
  cases session.expired with
  | some e => exact ⟨_, Outcome.bounded_of_error decoder call _ cache, fun _ _ => rfl⟩
  | none =>
      cases parsed : call.parsedUrl with
      | error e => exact ⟨_, Outcome.bounded_of_error decoder call _ cache, fun _ _ => rfl⟩
      | ok url =>
          cases call.htu with
          | error e => exact ⟨_, Outcome.bounded_of_error decoder call _ cache, fun _ _ => rfl⟩
          | ok htu =>
              rcases exists_sendLoop decoder session parsed htu attempt cache with
                ⟨outcome, bounded, reached⟩
              refine ⟨outcome, bounded, ?_⟩
              intro fuel enough
              obtain ⟨more, rfl⟩ := Nat.exists_eq_add_of_le' enough
              exact reached more

/-- A request of a write: its record key is valid, it goes to the method of the
PDS, its body is the payload as the client serializes it, and the PDS reads from
it the fields of the payload. -/
structure Write.Asks (crates : Crates) (client : PdsRepoClient) (write : Write)
    (request : Request) : Prop where
  method : request.method = "POST"
  contentType : request.contentType = "application/json"
  url : ∃ urlStr, client.buildXrpcUrl crates.url write.nsid = .ok urlStr ∧
    (crates.url.parse urlStr).map crates.url.asStr = .ok request.url
  valid : ∀ rk ∈ write.rkey, validateRkey rk = .ok ()
  fields : ∃ values, write.fields client.did = .ok values ∧
    request.body = some (crates.body.toVec (structTree write.names values)) ∧
    ∀ again, crates.body.Lawful again → (structTree write.names values).depth ≤ 127 →
      ∃ tree, crates.body.fromSlice (crates.body.toVec (structTree write.names values)) = .ok tree ∧
        structFields write.names tree = some (values.map (Option.map (Value.reread again)))

theorem Write.asks_of_prepared {crates : Crates} {client : PdsRepoClient} {write : Write}
    {call : SendCall} (prepared : write.prepare crates client = .ok call) {request : Request}
    (sent : request.For call) : write.Asks crates client request := by
  rcases write.prepare_eq_ok prepared with ⟨valid, values, urlStr, fields, built, rfl⟩
  refine
    { method := sent.method
      contentType := sent.contentType
      url := ⟨urlStr, built, ?_⟩
      valid := valid
      fields := ⟨values, fields, sent.body, ?_⟩ }
  · have parsed := sent.url
    cases crate : crates.url.parse urlStr with
    | error e =>
        rw [UrlCrate.sendCall, crate] at parsed
        cases parsed
    | ok url =>
        rw [UrlCrate.sendCall, crate] at parsed
        exact parsed
  · intro again lawful shallow
    refine ⟨_, lawful _ shallow, ?_⟩
    rw [reread_structTree, structFields_structTree write.nodup_names]
    rw [List.length_map]
    exact Write.length_names fields

/-- The result of a bounded call is read from the answer to the last request. -/
theorem Outcome.Bounded.read_eq_ok_iff {decoder : Decoder} {call : SendCall} {outcome : Outcome}
    (bounded : outcome.Bounded decoder call) {read : Response → Except SkybaseError α}
    {result : α} :
    outcome.result.bind read = .ok result ↔
      ∃ last resp, outcome.exchanges.getLast? = some last ∧ last.answer = .ok resp ∧
        resp.status.isSuccess = true ∧ read resp = .ok result := by
  constructor
  · intro returned
    rcases Except.bind_eq_ok_iff.mp returned with ⟨resp, ended, result_eq⟩
    rcases (bounded.concludes resp).mp ended with ⟨last, isLast, answered, success⟩
    exact ⟨last, resp, isLast, answered, success, result_eq⟩
  · rintro ⟨last, resp, isLast, answered, success, result_eq⟩
    have ended := (bounded.concludes resp).mpr ⟨last, isLast, answered, success⟩
    exact Except.bind_eq_ok_iff.mpr ⟨resp, ended, result_eq⟩

/-- A PDS carries out at most the last request of a call, and a result is read
from its answer to it. -/
theorem Outcome.Bounded.once {decoder : Decoder} {call : SendCall} {outcome : Outcome}
    (bounded : outcome.Bounded decoder call) (read : Response → Except SkybaseError α) {pds : Pds}
    {state after : pds.State} (serves : pds.Serves state outcome.exchanges after) :
    (after = state ∨ ∃ exchange ∈ outcome.exchanges,
        after = (pds.execute state exchange.request).2) ∧
      ∀ result, outcome.result.bind read = .ok result ↔
        ∃ last, outcome.exchanges.getLast? = some last ∧
          last.answer = .ok (pds.execute state last.request).1 ∧
          (pds.execute state last.request).1.status.isSuccess = true ∧
          read (pds.execute state last.request).1 = .ok result ∧
          after = (pds.execute state last.request).2 := by
  rcases bounded.served serves with ⟨empty, rfl⟩ | ⟨last, isLast, served⟩
  · refine ⟨Or.inl rfl, ?_⟩
    intro result
    rw [bounded.read_eq_ok_iff, empty]
    constructor
    · rintro ⟨last, _, absurd, _⟩
      cases absurd
    · rintro ⟨last, absurd, _⟩
      cases absurd
  · have mem := List.mem_of_getLast? isLast
    rcases served.last with ⟨answered, executed⟩ | ⟨⟨e, failed⟩, unknown⟩
    · refine ⟨Or.inr ⟨last, mem, executed⟩, ?_⟩
      intro result
      rw [bounded.read_eq_ok_iff]
      constructor
      · rintro ⟨other, resp, isOther, otherAnswered, success, result_eq⟩
        cases isLast.symm.trans isOther
        cases answered.symm.trans otherAnswered
        exact ⟨last, isLast, answered, success, result_eq, executed⟩
      · rintro ⟨other, isOther, otherAnswered, success, result_eq, _⟩
        exact ⟨other, _, isOther, otherAnswered, success, result_eq⟩
    · refine ⟨unknown.imp_right fun executed => ⟨last, mem, executed⟩, ?_⟩
      intro result
      rw [bounded.read_eq_ok_iff]
      constructor
      · rintro ⟨other, resp, isOther, otherAnswered, _⟩
        cases isLast.symm.trans isOther
        cases failed.symm.trans otherAnswered
      · rintro ⟨other, isOther, otherAnswered, _⟩
        cases isLast.symm.trans isOther
        cases failed.symm.trans otherAnswered

/-- A write happens at most once.  Whatever a PDS answers and the transport
loses, and whatever other requests do to the nonces, a write ends with at most
two requests, each of them with the arguments of the write, and the PDS has
carried out at most one.  The write returns a result exactly if the PDS granted
the last request and the result can be read from its answer; the PDS then has
carried out this request.  Nothing is sent for an invalid record key. -/
theorem write_at_most_once (crates : Crates) (client : PdsRepoClient) (write : Write)
    (attempt : Nat → Attempt) (cache : NonceCache) :
    ∃ called, (∀ fuel, 2 ≤ fuel → write.run crates client attempt fuel cache = some called) ∧
      called.exchanges.length ≤ 2 ∧
      (∀ exchange ∈ called.exchanges, write.Asks crates client exchange.request) ∧
      ∀ (pds : Pds) (state after : pds.State), pds.Serves state called.exchanges after →
        (after = state ∨ ∃ exchange ∈ called.exchanges,
          after = (pds.execute state exchange.request).2) ∧
        ∀ result, called.result = .ok result ↔
          ∃ last, called.exchanges.getLast? = some last ∧
            last.answer = .ok (pds.execute state last.request).1 ∧
            (pds.execute state last.request).1.status.isSuccess = true ∧
            write.read crates (pds.execute state last.request).1 = .ok result ∧
            after = (pds.execute state last.request).2 := by
  simp only [Write.run_eq_call]
  unfold PdsRepoClient.call
  cases prepared : write.prepare crates client with
  | error e =>
      refine ⟨⟨.error e, [], cache⟩, fun _ _ => rfl, Nat.zero_le 2, ?_, ?_⟩
      · intro exchange absurd
        cases absurd
      · intro pds state after serves
        have nothing : Outcome.Bounded crates.decoder _ ⟨.error e, [], cache⟩ :=
          Outcome.bounded_of_error crates.decoder (crates.url.sendCall "" "" "" none) e cache
        exact nothing.once (write.read crates) serves
  | ok call =>
      rcases exists_send crates.decoder client.session call attempt cache with
        ⟨outcome, bounded, reached⟩
      refine ⟨⟨outcome.result.bind (write.read crates), outcome.exchanges, outcome.cache⟩, ?_,
        bounded.atMostTwo, ?_, ?_⟩
      · intro fuel enough
        dsimp only
        rw [reached fuel enough]
        rfl
      · intro exchange mem
        exact Write.asks_of_prepared prepared (bounded.sameRequest exchange mem)
      · intro pds state after serves
        exact bounded.once (write.read crates) serves

end Skybase.Repo
