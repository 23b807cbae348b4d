import Skybase.Json.Value

/-!
# Records and store operations

The payloads that callers hand to the record store and the rows they get back.
-/

namespace Skybase.Index

open Skybase.Json

/-- `RecordInput`: the payload for creating or updating a record. -/
structure RecordInput where
  uri : String
  cid : String
  did : String
  collection : String
  rkey : String
  recordJson : Value
  indexedAt : U64

/-- The canonical URI `at://{did}/{collection}/{rkey}`. -/
def atUri (did collection rkey : String) : String :=
  s!"at://{did}/{collection}/{rkey}"

/-- `RecordInput::new`: the URI is generated from its parts. -/
def RecordInput.new (did collection rkey cid : String) (recordJson : Value)
    (indexedAt : U64) : RecordInput where
  uri := atUri did collection rkey
  cid := cid
  did := did
  collection := collection
  rkey := rkey
  recordJson := recordJson
  indexedAt := indexedAt

/-- A post, for concrete runs. -/
def alicePost (indexedAt : U64) : RecordInput :=
  .new "did:plc:alice" "app.bsky.feed.post" "r1" "cid1" .null indexedAt

/-- `RecordRow`: a record as the store returns and announces it. -/
structure RecordRow where
  uri : String
  cid : String
  did : String
  collection : String
  rkey : String
  recordJson : Value
  indexedAt : U64
  isDeleted : Bool

/-- The live row that carries exactly the fields of the input. -/
def RecordInput.toRow (input : RecordInput) : RecordRow where
  uri := input.uri
  cid := input.cid
  did := input.did
  collection := input.collection
  rkey := input.rkey
  recordJson := input.recordJson
  indexedAt := input.indexedAt
  isDeleted := false

/-- `StoreOperation`: one mutation of an atomic batch. -/
inductive StoreOperation where
  | upsert (input : RecordInput)
  | delete (uri : String) (indexedAt : U64)

namespace StoreOperation

/-- The URI an operation is about. -/
def uri : StoreOperation → String
  | .upsert input => input.uri
  | .delete uri _ => uri

/-- The timestamp of an operation. -/
def indexedAt : StoreOperation → U64
  | .upsert input => input.indexedAt
  | .delete _ indexedAt => indexedAt

/-- Whether an operation is an upsert. -/
def isUpsert : StoreOperation → Bool
  | .upsert _ => true
  | .delete _ _ => false

end StoreOperation

/-- `BatchStats`: what a batch did. -/
structure BatchStats where
  upserted : Nat
  deleted : Nat
  skipped : Nat
deriving DecidableEq

/-- `BatchStats::default`. -/
def BatchStats.default : BatchStats := ⟨0, 0, 0⟩

end Skybase.Index
