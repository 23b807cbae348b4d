import Skybase.Index.Uri
import Skybase.Ingest.Batching
import Skybase.Ingest.Frames

/-!
# The identity of ingested records

Two of the validators of the parser check a trimmed copy of the value that is
stored as it came.  What they let through is still free of slashes, so the URI
of a parsed commit determines its identifiers, and so does the URI of every row
that parsed commits can leave in the store.
-/

namespace Skybase.Ingest

open Skybase.Index
open Skybase.Json

/-! ## What the validators let through -/

/-- Whatever surrounds a trimmed text without slashes has none either. -/
theorem slash_not_mem_of_trim {text : String} (trimmed : '/' ∉ (Text.trim text).toList) :
    '/' ∉ text.toList := by
  intro mem
  rcases Text.mem_trim_or_isWhitespace mem with inside | white
  · exact trimmed inside
  · exact absurd white (by decide)

theorem notBlank_of_isValidDid {did : String} (valid : isValidDid did = true) :
    (Text.trim did).isEmpty = false := by
  unfold isValidDid at valid
  dsimp only at valid
  split at valid
  · cases valid
  · next long =>
      rw [Bool.eq_false_iff]
      intro empty
      rw [String.isEmpty_iff.mp empty] at long
      exact long (by decide)

theorem notBlank_of_isValidCollection {coll : String} (valid : isValidCollection coll = true) :
    (Text.trim coll).isEmpty = false := by
  unfold isValidCollection at valid
  dsimp only at valid
  split at valid
  · cases valid
  · next long =>
      rw [Bool.eq_false_iff]
      intro empty
      exact long (by simp [empty])

theorem isUriPart_of_isValidDid {did : String} (valid : isValidDid did = true) :
    IsUriPart did := by
  unfold isValidDid at valid
  dsimp only at valid
  split at valid
  · cases valid
  · next long =>
      split at valid
      · cases valid
      · constructor
        · rw [Bool.eq_false_iff]
          intro empty
          rw [String.isEmpty_iff.mp empty] at long
          exact long (by decide)
        · apply slash_not_mem_of_trim
          intro mem
          exact absurd (List.all_eq_true.mp valid '/' mem) (by decide)

theorem isUriPart_of_isValidCollection {coll : String} (valid : isValidCollection coll = true) :
    IsUriPart coll := by
  unfold isValidCollection at valid
  dsimp only at valid
  split at valid
  · cases valid
  · next long =>
      constructor
      · rw [Bool.eq_false_iff]
        intro empty
        rw [String.isEmpty_iff.mp empty] at long
        exact long (by decide)
      · apply slash_not_mem_of_trim
        intro mem
        rcases Text.exists_mem_split mem (by decide : '/' ≠ '.') with ⟨part, partMem, inside⟩
        have checked := List.all_eq_true.mp valid part partMem
        rw [Bool.and_eq_true] at checked
        exact absurd (List.all_eq_true.mp checked.2 '/' inside) (by decide)

theorem isUriPart_of_validateRkey {rkey : String} (valid : (Repo.validateRkey rkey).isOk = true) :
    IsUriPart rkey := by
  unfold Repo.validateRkey at valid
  split at valid
  · cases valid
  · next long =>
      split at valid
      · cases valid
      · next legal =>
          constructor
          · rw [Bool.eq_false_iff]
            exact fun empty => long (Or.inl (String.isEmpty_iff.mp empty))
          · intro mem
            have slashByte : (0x2F : UInt8) ∈ Text.bytes rkey :=
              List.mem_flatMap.mpr ⟨'/', mem, by decide⟩
            exact absurd (List.find?_eq_none.mp legal _ slashByte) (by decide)

/-! ## Parsed commits -/

/-- The parser returns the commit for some text, at some reading of the clock. -/
def Parsed (decode : String → Except String RawJetstreamMessage) (commit : JetstreamCommit) :
    Prop :=
  ∃ nowUs text, parseJetstreamFrame decode nowUs text = some (.commit commit)

namespace JetstreamCommit

/-- The identifiers of a commit. -/
def identifiers (commit : JetstreamCommit) : String × String × String :=
  (commit.did, commit.collection, commit.rkey)

end JetstreamCommit

variable {decode : String → Except String RawJetstreamMessage}

/-- The identifiers of a parsed commit can be read off its URI. -/
theorem Parsed.parseAtUri_uri {commit : JetstreamCommit} (parsed : Parsed decode commit) :
    parseAtUri commit.uri = some commit.identifiers := by
  rcases parsed with ⟨nowUs, text, parsed⟩
  rcases exists_carries_of_parsed parsed with ⟨msg, did, raw, operation, _, carries, rfl⟩
  exact parseAtUri_atUri (isUriPart_of_isValidDid carries.validDid)
    (isUriPart_of_isValidCollection carries.validCollection)
    (isUriPart_of_validateRkey carries.validRkey)

theorem Parsed.uri_eq_iff {first second : JetstreamCommit} (firstParsed : Parsed decode first)
    (secondParsed : Parsed decode second) :
    first.uri = second.uri ↔ first.identifiers = second.identifiers := by
  constructor
  · intro same
    have firstRead := firstParsed.parseAtUri_uri
    rw [same, secondParsed.parseAtUri_uri] at firstRead
    exact (Option.some.inj firstRead).symm
  · intro same
    rw [JetstreamCommit.identifiers, JetstreamCommit.identifiers, Prod.mk.injEq, Prod.mk.injEq]
      at same
    rcases same with ⟨did_eq, collection_eq, rkey_eq⟩
    rw [JetstreamCommit.uri, JetstreamCommit.uri, did_eq, collection_eq, rkey_eq]

/-- The operation of a parsed commit is an upsert under the URI of its own
identifiers, or a delete. -/
theorem Parsed.identified {commit : JetstreamCommit} (parsed : Parsed decode commit)
    {op : StoreOperation} (asked : commit.toOperation = some op) : op.Identified := by
  unfold JetstreamCommit.toOperation at asked
  split at asked
  · cases asked
    trivial
  · rcases Option.map_eq_some_iff.mp asked with ⟨input, converted, rfl⟩
    unfold JetstreamCommit.toRecordInput at converted
    split at converted
    · cases converted
    · rcases Option.map_eq_some_iff.mp converted with ⟨recordJson, _, rfl⟩
      exact parsed.parseAtUri_uri

/-! ## Runs of ingestion -/

/-- A call that applies commits, with the answers of SQLite. -/
inductive IngestCall where
  | applySingleCommit (sqlite : SingleAnswers) (commit : JetstreamCommit)
  | flushCommitBatch (sqlite : BatchAnswers) (buffer : List JetstreamCommit)
  | syncCommitToStore (sqlite : SqliteAnswer) (commit : JetstreamCommit)

namespace IngestCall

/-- The commits that a call applies. -/
def commits : IngestCall → List JetstreamCommit
  | applySingleCommit _ commit => [commit]
  | flushCommitBatch _ buffer => buffer
  | syncCommitToStore _ commit => [commit]

/-- Carry out a call. -/
def execute (serde : SerdeJson) (worker : Worker) : IngestCall → Worker
  | applySingleCommit sqlite commit => Ingest.applySingleCommit serde sqlite commit worker
  | flushCommitBatch sqlite buffer => Ingest.flushCommitBatch serde sqlite buffer worker
  | syncCommitToStore sqlite commit =>
      { worker with store := (Ingest.syncCommitToStore serde sqlite worker.store commit).2 }

/-- Whether it fails or not, a call runs operations of its commits. -/
theorem records_execute (serde : SerdeJson) (worker : Worker) (call : IngestCall) :
    ∃ ops, (call.execute serde worker).store.records =
        runOperations serde worker.store.records ops ∧
      ∀ op ∈ ops, ∃ commit ∈ call.commits, commit.toOperation = some op := by
  cases call with
  | applySingleCommit sqlite commit =>
      rw [execute, applySingleCommit_eq]
      rcases writeCommit_cases serde sqlite.write commit worker with
        ⟨_, written, written_eq, store_eq, _⟩ | ⟨_, _, written, written_eq, records_eq, _, _⟩
      · rw [written_eq]
        exact ⟨[], congrArg RecordStore.records store_eq, by simp⟩
      · rw [written_eq]
        refine ⟨commit.toOperation.toList, ?_, ?_⟩
        · simp only [Worker.records_persist, Worker.store_track, records_eq, applyCommit]
          cases commit.toOperation <;> rfl
        · intro op mem
          exact ⟨commit, List.mem_singleton_self commit, Option.mem_toList.mp mem⟩
  | flushCommitBatch sqlite buffer =>
      rw [execute, flushCommitBatch_eq]
      rcases writeBatch_cases serde sqlite buffer worker with
        ⟨_, written, written_eq, store_eq, _⟩ | ⟨_, written, written_eq, store_eq, _⟩
      · rw [written_eq]
        exact ⟨[], congrArg RecordStore.records store_eq, by simp⟩
      · rw [written_eq]
        refine ⟨buffer.filterMap JetstreamCommit.toOperation, ?_, ?_⟩
        · cases latestTime buffer with
          | none => exact congrArg RecordStore.records store_eq
          | some latest => exact congrArg RecordStore.records store_eq
        · intro op mem
          exact List.mem_filterMap.mp mem
  | syncCommitToStore sqlite commit =>
      simp only [execute, store_syncCommitToStore]
      cases asked : commit.toOperation with
      | none => exact ⟨[], rfl, by simp⟩
      | some op =>
          rw [Option.elim_some, RecordStore.execute_eq]
          rcases op.statementWith_cases serde sqlite worker.store.records with
            ⟨error, failed⟩ | ⟨announcement, succeeded⟩
          · rw [failed]
            exact ⟨[], rfl, by simp⟩
          · rw [succeeded]
            refine ⟨[op], rfl, ?_⟩
            intro other mem
            rw [List.mem_singleton.mp mem]
            exact ⟨commit, List.mem_singleton_self commit, asked⟩

end IngestCall

/-- A worker after a list of calls. -/
def runIngestCalls (serde : SerdeJson) (worker : Worker) (calls : List IngestCall) : Worker :=
  calls.foldl (IngestCall.execute serde) worker

/-- Calls on parsed commits keep the rows identified. -/
theorem identified_runIngestCalls (serde : SerdeJson) {worker : Worker}
    (identified : worker.store.records.Identified) {calls : List IngestCall}
    (parsed : ∀ call ∈ calls, ∀ commit ∈ call.commits, Parsed decode commit) :
    (runIngestCalls serde worker calls).store.records.Identified := by
  induction calls generalizing worker with
  | nil => exact identified
  | cons call calls ih =>
      apply ih
      · rcases call.records_execute serde worker with ⟨ops, records_eq, asked⟩
        rw [records_eq]
        apply identified_runOperations serde identified
        intro op mem
        rcases asked op mem with ⟨commit, commitMem, op_eq⟩
        exact (parsed call List.mem_cons_self commit commitMem).identified op_eq
      · exact fun later mem => parsed later (List.mem_cons_of_mem call mem)

/-- The identity of ingested records.  Parsed commits have the same URI exactly
if they have the same identifiers, and the URI parses to them.  Whatever calls
on parsed commits fill an empty store, every row can be identified by its URI,
and no two rows have the same identifiers. -/
theorem identity_of_parsed (decode : String → Except String RawJetstreamMessage)
    (serde : SerdeJson) :
    (∀ first second, Parsed decode first → Parsed decode second →
        (first.uri = second.uri ↔ first.identifiers = second.identifiers)) ∧
      (∀ commit, Parsed decode commit → parseAtUri commit.uri = some commit.identifiers) ∧
      ∀ worker calls, worker.store.records = ∅ →
        (∀ call ∈ calls, ∀ commit ∈ IngestCall.commits call, Parsed decode commit) →
        (runIngestCalls serde worker calls).store.records.Identified ∧
          ∀ first second firstRow secondRow,
            (runIngestCalls serde worker calls).store.records.lookup first = some firstRow →
            (runIngestCalls serde worker calls).store.records.lookup second = some secondRow →
            (firstRow.did, firstRow.collection, firstRow.rkey) =
              (secondRow.did, secondRow.collection, secondRow.rkey) →
            first = second := by
  refine ⟨fun _ _ => Parsed.uri_eq_iff, fun _ => Parsed.parseAtUri_uri, ?_⟩
  intro worker calls empty parsed
  have start : worker.store.records.Identified := by
    rw [empty]
    exact Records.identified_empty
  have identified := identified_runIngestCalls serde start parsed
  exact ⟨identified, fun _ _ _ _ => identified.uri_eq⟩

end Skybase.Ingest
