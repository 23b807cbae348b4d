import Skybase.Index.Store
import Skybase.Repo.Types

/-!
# Jetstream events

The events of the firehose, the lenient parser of their frames, and the
translation of a commit into a write to the record store.  The decoding of the
JSON text into the raw envelope and the reading of the clock are parameters of
the parser.
-/

namespace Skybase.Ingest

open Skybase.Index
open Skybase.Json

/-- `normalize_indexed_at`. -/
def normalizeIndexedAt (timeUs : U64) : U64 := timeUs

/-! ## Events -/

/-- `CommitOperation`. -/
inductive CommitOperation where
  | create
  | update
  | delete
deriving DecidableEq

namespace CommitOperation

/-- `CommitOperation::from_str_loose`. -/
def fromStrLoose (s : String) : Option CommitOperation :=
  if Text.eqIgnoreAsciiCase s "create" then some .create
  else if Text.eqIgnoreAsciiCase s "update" then some .update
  else if Text.eqIgnoreAsciiCase s "delete" then some .delete
  else none

/-- `CommitOperation::as_str`. -/
def asStr : CommitOperation → String
  | .create => "create"
  | .update => "update"
  | .delete => "delete"

end CommitOperation

/-- `RawJetstreamCommit`. -/
structure RawJetstreamCommit where
  operation : String
  collection : String
  rkey : String
  cid : Option String
  record : Option Value

/-- `RawJetstreamMessage`. -/
structure RawJetstreamMessage where
  did : Option String
  timeUs : Option U64
  kind : Option String
  commit : Option RawJetstreamCommit

/-- `JetstreamCommit`. -/
structure JetstreamCommit where
  did : String
  timeUs : U64
  collection : String
  rkey : String
  operation : CommitOperation
  cid : Option String
  record : Option Value

namespace JetstreamCommit

/-- `JetstreamCommit::uri`. -/
def uri (commit : JetstreamCommit) : String := atUri commit.did commit.collection commit.rkey

/-- `JetstreamCommit::to_record_input`. -/
def toRecordInput (commit : JetstreamCommit) (indexedAtTimestamp : Option U64) :
    Option RecordInput :=
  if commit.operation = .delete then none
  else
    commit.record.map fun recordJson =>
      { uri := commit.uri
        cid := commit.cid.getD ""
        did := commit.did
        collection := commit.collection
        rkey := commit.rkey
        recordJson := recordJson
        indexedAt := indexedAtTimestamp.getD (normalizeIndexedAt commit.timeUs) }

end JetstreamCommit

/-- `JetstreamEvent`. -/
inductive JetstreamEvent where
  | commit (commit : JetstreamCommit)
  | heartbeat (timeUs : U64)
  | other (kind : String) (did : Option String) (timeUs : U64)

/-- `JetstreamEvent::time_us`. -/
def JetstreamEvent.timeUs : JetstreamEvent → U64
  | .commit c => c.timeUs
  | .heartbeat timeUs => timeUs
  | .other _ _ timeUs => timeUs

/-! ## Parsing of frames -/

/-- `MAX_FUTURE_SKEW_US`. -/
def maxFutureSkewUs : U64 := 5 * 365 * 86400 * 1000000

/-- `is_valid_time_us`, for a reading of the clock that is zero where the
source falls back to zero. -/
def isValidTimeUs (nowUs timeUs : U64) : Bool :=
  !(decide (nowUs > 0) && decide (timeUs > nowUs.saturatingAdd maxFutureSkewUs))

/-- `is_valid_did`. -/
def isValidDid (did : String) : Bool :=
  let trimmed := Text.trim did
  if !Text.startsWith trimmed "did:" || Text.len trimmed < 7 then false
  else if (Text.split trimmed ':').length < 3 then false
  else
    trimmed.toList.all fun ch =>
      ch.isAlphanum || ch == ':' || ch == '.' || ch == '_' || ch == '-' || ch == '%'

/-- `is_valid_collection`. -/
def isValidCollection (coll : String) : Bool :=
  let trimmed := Text.trim coll
  if trimmed.isEmpty || Text.len trimmed > 317 || !Text.contains trimmed '.' then false
  else
    (Text.split trimmed '.').all fun part =>
      !part.isEmpty && part.toList.all fun ch => ch.isAlphanum || ch == '-'

/-- What the parser returns for a commit frame it discards. -/
def heartbeatOrNone (timeUs : U64) : Option JetstreamEvent :=
  if timeUs > 0 then some (.heartbeat timeUs) else none

/-- `parse_jetstream_frame`.  `decode` is the deserialization of the envelope
and `nowUs` the clock in microseconds. -/
def parseJetstreamFrame (decode : String → Except String RawJetstreamMessage) (nowUs : U64)
    (text : String) : Option JetstreamEvent :=
  let trimmed := Text.trim text
  if trimmed.isEmpty then none
  else
    match decode trimmed with
    | .error _ => none
    | .ok msg =>
        let timeUs := msg.timeUs.getD 0
        if timeUs > 0 && !isValidTimeUs nowUs timeUs then none
        else if msg.kind = some "commit" then
          match msg.did with
          | none => heartbeatOrNone timeUs
          | some did =>
              if (Text.trim did).isEmpty then heartbeatOrNone timeUs
              else
                match msg.commit with
                | none => heartbeatOrNone timeUs
                | some commit =>
                    if !isValidDid did || !isValidCollection commit.collection ||
                        !(Repo.validateRkey commit.rkey).isOk then
                      heartbeatOrNone timeUs
                    else
                      match CommitOperation.fromStrLoose commit.operation with
                      | none => heartbeatOrNone timeUs
                      | some operation =>
                          some (.commit
                            { did := did
                              timeUs := timeUs
                              collection := commit.collection
                              rkey := commit.rkey
                              operation := operation
                              cid := commit.cid
                              record := commit.record })
        else
          match msg.kind with
          | none => if timeUs > 0 then some (.heartbeat timeUs) else none
          | some kind => if timeUs > 0 then some (.other kind msg.did timeUs) else none

/-- `parse_jetstream_commit`. -/
def parseJetstreamCommit (decode : String → Except String RawJetstreamMessage) (nowUs : U64)
    (text : String) : Option JetstreamCommit :=
  match parseJetstreamFrame decode nowUs text with
  | some (.commit commit) => some commit
  | _ => none

/-- A commit frame with a valid timestamp, valid identifiers and a known
operation parses to its commit; without a timestamp its time is zero. -/
theorem parseJetstreamCommit_of_valid {decode : String → Except String RawJetstreamMessage}
    {nowUs : U64} {text did : String} {msg : RawJetstreamMessage} {raw : RawJetstreamCommit}
    {operation : CommitOperation} (nonempty : (Text.trim text).isEmpty = false)
    (decoded : decode (Text.trim text) = .ok msg)
    (timely : isValidTimeUs nowUs (msg.timeUs.getD 0) = true)
    (kind : msg.kind = some "commit") (hasDid : msg.did = some did)
    (didNonempty : (Text.trim did).isEmpty = false) (hasCommit : msg.commit = some raw)
    (validDid : isValidDid did = true) (validCollection : isValidCollection raw.collection = true)
    (validRkey : (Repo.validateRkey raw.rkey).isOk = true)
    (known : CommitOperation.fromStrLoose raw.operation = some operation) :
    parseJetstreamCommit decode nowUs text =
      some
        { did := did
          timeUs := msg.timeUs.getD 0
          collection := raw.collection
          rkey := raw.rkey
          operation := operation
          cid := raw.cid
          record := raw.record } := by
  simp only [parseJetstreamCommit, parseJetstreamFrame, nonempty, decoded, timely, kind, hasDid,
    didNonempty, hasCommit, validDid, validCollection, validRkey, known, Bool.not_true,
    Bool.and_false, Bool.or_self, Bool.false_eq_true, if_false, if_true]

/-! ## Applying a commit -/

/-- `sync_commit_to_store`. -/
def syncCommitToStore (serde : SerdeJson) (sqlite : SqliteAnswer) (store : RecordStore)
    (commit : JetstreamCommit) : Except SkybaseError Unit × RecordStore :=
  match commit.operation with
  | .create | .update =>
      match commit.toRecordInput none with
      | none => (.error (.index s!"Missing record payload for commit '{commit.uri}'"), store)
      | some input => store.upsertRecord serde sqlite input
  | .delete =>
      let (result, after) := store.softDeleteRecord sqlite commit.uri commit.timeUs
      (result.map fun _ => (), after)

end Skybase.Ingest
