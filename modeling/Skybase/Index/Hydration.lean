import Skybase.Index.Calls
import Skybase.Index.Query
import Skybase.Index.Sequence
import Skybase.Json.Compact
import Skybase.Transition.Core

/-!
# Hydration

Rows hold their payload as text, which the store parses whenever it reads the
row.  Writing a value never fails, but values beyond the recursion limit of the
parser cannot be read again: a row with one makes `get_record` on its URI and
every query that selects it fail.  Without such payloads every row of every
reachable store can be read.
-/

namespace Skybase.Index

open Skybase.Json
open Skybase.Transition (Along run)

/-! ## Calls -/

namespace RecordStore

/-- What `upsert_records_batch` can do: nothing, if it fails, or the batch. -/
theorem upsertRecordsBatch_cases (serde : SerdeJson) (sqlite : BatchAnswers)
    (records : List RecordInput) (store : RecordStore) :
    (∃ err, store.upsertRecordsBatch serde sqlite records = (.error err, store)) ∨
      store.upsertRecordsBatch serde sqlite records =
        (.ok (), store.afterBatch serde (records.map .upsert) none) := by
  unfold upsertRecordsBatch
  split
  · exact Or.inl ⟨_, rfl⟩
  · rcases applyOperationsBatch_cases serde sqlite (records.map .upsert) none store with
      ⟨err, failed⟩ | ⟨stats, succeeded⟩
    · rw [failed]
      exact Or.inl ⟨err, rfl⟩
    · rw [succeeded]
      exact Or.inr rfl

/-- What `soft_delete_records_batch` can do: nothing, if it fails, or the batch. -/
theorem softDeleteRecordsBatch_cases (serde : SerdeJson) (sqlite : BatchAnswers)
    (items : List (String × U64)) (store : RecordStore) :
    (∃ err, store.softDeleteRecordsBatch serde sqlite items = (.error err, store)) ∨
      ∃ deleted, store.softDeleteRecordsBatch serde sqlite items =
        (.ok deleted,
          store.afterBatch serde (items.map fun (uri, indexedAt) => .delete uri indexedAt)
            none) := by
  unfold softDeleteRecordsBatch
  dsimp only
  rcases applyOperationsBatch_cases serde sqlite
      (items.map fun (uri, indexedAt) => .delete uri indexedAt) none store with
    ⟨err, failed⟩ | ⟨stats, succeeded⟩
  · rw [failed]
    exact Or.inl ⟨err, rfl⟩
  · rw [succeeded]
    exact Or.inr ⟨stats.deleted, rfl⟩

end RecordStore

/-- A public call that writes, with the answers of SQLite. -/
inductive StoreCall where
  | write (call : WriteCall)
  | upsertRecordsBatch (sqlite : BatchAnswers) (records : List RecordInput)
  | softDeleteRecordsBatch (sqlite : BatchAnswers) (items : List (String × U64))
  | softDeleteRecordUnversioned (sqlite : SqliteAnswer) (uri : String)
  | hardDeleteRecord (sqlite : SqliteAnswer) (uri : String)
  | setMeta (sqlite : SqliteAnswer) (key value : String)
  | setCursor (sqlite : SqliteAnswer) (cursor : U64)

namespace StoreCall

/-- The store after a call. -/
def execute (serde : SerdeJson) (store : RecordStore) : StoreCall → RecordStore
  | write call => call.after serde store
  | upsertRecordsBatch sqlite records => (store.upsertRecordsBatch serde sqlite records).2
  | softDeleteRecordsBatch sqlite items => (store.softDeleteRecordsBatch serde sqlite items).2
  | softDeleteRecordUnversioned sqlite uri => (store.softDeleteRecordUnversioned sqlite uri).2
  | hardDeleteRecord sqlite uri => (store.hardDeleteRecord sqlite uri).2
  | setMeta sqlite key value => (store.setMeta sqlite key value).2
  | setCursor sqlite cursor => (store.setCursor sqlite cursor).2

/-- The versioned operations that a call performs. -/
def performed (serde : SerdeJson) (store : RecordStore) : StoreCall → List StoreOperation
  | write call => call.performed serde store
  | upsertRecordsBatch sqlite records =>
      if (store.upsertRecordsBatch serde sqlite records).1.isOk then records.map .upsert else []
  | softDeleteRecordsBatch sqlite items =>
      if (store.softDeleteRecordsBatch serde sqlite items).1.isOk then
        items.map fun (uri, indexedAt) => .delete uri indexedAt
      else []
  | _ => []

/-- One call; none is ever refused. -/
def step (serde : SerdeJson) (store : RecordStore) (call : StoreCall) : Option RecordStore :=
  some (call.execute serde store)

/-- Every upsert that the call performs and that takes effect on the table it
finds carries a payload that the parser can read. -/
def EffectiveUpsertsShallow (serde : SerdeJson) (store : RecordStore) (call : StoreCall) : Prop :=
  ∀ before input after, call.performed serde store = before ++ .upsert input :: after →
    (StoreOperation.upsert input).accepted serde (runOperations serde store.records before) = true →
      input.recordJson.depth ≤ 127

/-- A call that runs operations runs those that it performs. -/
theorem records_execute_cases (serde : SerdeJson) (store : RecordStore) (call : StoreCall) :
    (call.execute serde store).records =
        runOperations serde store.records (call.performed serde store) ∨
      (∃ sqlite uri, call = softDeleteRecordUnversioned sqlite uri) ∨
      ∃ sqlite uri, call = hardDeleteRecord sqlite uri := by
  cases call with
  | write call => exact Or.inl (call.records_after serde store)
  | upsertRecordsBatch sqlite records =>
      apply Or.inl
      rw [execute, performed]
      rcases store.upsertRecordsBatch_cases serde sqlite records with ⟨err, failed⟩ | succeeded
      · rw [failed]
        rfl
      · rw [succeeded]
        rfl
  | softDeleteRecordsBatch sqlite items =>
      apply Or.inl
      rw [execute, performed]
      rcases store.softDeleteRecordsBatch_cases serde sqlite items with
        ⟨err, failed⟩ | ⟨deleted, succeeded⟩
      · rw [failed]
        rfl
      · rw [succeeded]
        rfl
  | softDeleteRecordUnversioned sqlite uri => exact Or.inr (Or.inl ⟨sqlite, uri, rfl⟩)
  | hardDeleteRecord sqlite uri => exact Or.inr (Or.inr ⟨sqlite, uri, rfl⟩)
  | setMeta sqlite key value => exact Or.inl (by cases sqlite <;> rfl)
  | setCursor sqlite cursor => exact Or.inl (by cases sqlite <;> rfl)

end StoreCall

/-! ## Rows that can be read -/

/-- The payload of a row parses and its timestamp came from a `u64`. -/
structure Row.Sound (serde : SerdeJson) (row : Row) : Prop where
  payload : ∃ value, serde.fromStr row.recordJson = .ok value
  timestamp : ∃ indexedAt : U64, row.indexedAt = indexedAt.toInt

theorem Row.Sound.readable {serde : SerdeJson} {row : Row} (sound : row.Sound serde)
    (uri : String) : row.Readable serde uri := by
  rcases sound.payload with ⟨value, parsed⟩
  rcases sound.timestamp with ⟨indexedAt, time_eq⟩
  unfold Row.Readable RecordStore.mapRecordRow
  rw [parsed, time_eq]
  dsimp only
  rw [u64TryFrom_toInt]
  exact ⟨_, rfl⟩

/-- Every row of the table is sound. -/
def Records.Hydrates (serde : SerdeJson) (records : Records) : Prop :=
  ∀ uri row, records.lookup uri = some row → row.Sound serde

namespace Records.Hydrates

variable {serde : SerdeJson} {records : Records}

theorem empty (serde : SerdeJson) : Records.Hydrates serde ∅ := by
  intro uri row absurd
  rw [Finmap.lookup_empty] at absurd
  cases absurd

theorem insert (hydrates : records.Hydrates serde) (uri : String) {row : Row}
    (sound : row.Sound serde) : Records.Hydrates serde (Finmap.insert uri row records) := by
  intro other stored found
  by_cases same : other = uri
  · subst same
    rw [Finmap.lookup_insert] at found
    cases found
    exact sound
  · rw [Finmap.lookup_insert_of_ne _ same] at found
    exact hydrates other stored found

theorem erase (hydrates : records.Hydrates serde) (uri : String) :
    Records.Hydrates serde (Finmap.erase uri records) := by
  intro other stored found
  by_cases same : other = uri
  · subst same
    rw [Finmap.lookup_erase] at found
    cases found
  · rw [Finmap.lookup_erase_ne same] at found
    exact hydrates other stored found

/-- A versioned statement keeps the rows sound, if an upsert that takes effect
has a payload that parses. -/
theorem exec (hydrates : records.Hydrates serde) {op : StoreOperation}
    (parses : ∀ input, op = .upsert input → op.accepted serde records = true →
      ∃ value, serde.fromStr (serde.text input.recordJson) = .ok value) :
    (op.exec serde records).Hydrates serde := by
  by_cases fits : FitsI64 op.indexedAt
  · cases op with
    | upsert input =>
        rw [StoreOperation.exec, StoreOperation.statement_upsert_of_fits serde records fits]
        split
        · next accepts =>
            apply hydrates.insert
            constructor
            · apply parses input rfl
              rw [StoreOperation.accepted, decide_eq_true fits, Bool.true_and]
              exact accepts
            · exact ⟨input.indexedAt, rfl⟩
        · exact hydrates
    | delete uri indexedAt =>
        rw [StoreOperation.exec,
          StoreOperation.statement_delete_of_fits serde records uri indexedAt fits]
        cases found : records.lookup uri with
        | none => exact hydrates
        | some stored =>
            dsimp only
            split
            · exact hydrates.insert uri ⟨(hydrates uri stored found).payload, indexedAt, rfl⟩
            · exact hydrates
  · rw [op.exec_of_not_fits serde records fits]
    exact hydrates

theorem runOperations (hydrates : records.Hydrates serde) {ops : List StoreOperation}
    (parses : ∀ before input after, ops = before ++ .upsert input :: after →
      (StoreOperation.upsert input).accepted serde (runOperations serde records before) = true →
        ∃ value, serde.fromStr (serde.text input.recordJson) = .ok value) :
    (Index.runOperations serde records ops).Hydrates serde := by
  induction ops generalizing records with
  | nil => exact hydrates
  | cons op ops ih =>
      rw [runOperations_cons]
      apply ih
      · apply hydrates.exec
        rintro input rfl accepted
        exact parses [] input ops rfl accepted
      · intro before input after split accepted
        exact parses (op :: before) input after (by rw [split, List.cons_append]) accepted

theorem softDeleteUnversioned (hydrates : records.Hydrates serde) (uri : String) :
    (records.softDeleteUnversioned uri).2.Hydrates serde := by
  unfold Records.softDeleteUnversioned
  cases found : records.lookup uri with
  | none => exact hydrates
  | some stored =>
      dsimp only
      split
      · have sound := hydrates uri stored found
        exact hydrates.insert uri ⟨sound.payload, sound.timestamp⟩
      · exact hydrates

theorem hardDelete (hydrates : records.Hydrates serde) (uri : String) :
    (records.hardDelete uri).2.Hydrates serde := by
  unfold Records.hardDelete
  cases records.lookup uri with
  | none => exact hydrates
  | some stored => exact hydrates.erase uri

end Records.Hydrates

/-- A call whose effective upserts can be read keeps the rows sound. -/
theorem hydrates_execute {serde : SerdeJson} (limited : serde.Limited) {store : RecordStore}
    (hydrates : store.records.Hydrates serde) {call : StoreCall}
    (shallow : call.EffectiveUpsertsShallow serde store) :
    (call.execute serde store).records.Hydrates serde := by
  rcases call.records_execute_cases serde store with
    performed | ⟨sqlite, uri, rfl⟩ | ⟨sqlite, uri, rfl⟩
  · rw [performed]
    apply hydrates.runOperations
    intro before input after split accepted
    exact limited.reads input.recordJson (shallow before input after split accepted)
  · have executed :
        ((StoreCall.softDeleteRecordUnversioned sqlite uri).execute serde store).records =
          (softDeleteUnversionedStatement sqlite uri store.records).2 := by
      rw [StoreCall.execute, RecordStore.softDeleteRecordUnversioned, RecordStore.execute_eq]
    rw [executed]
    cases sqlite with
    | some err => exact hydrates
    | none => exact hydrates.softDeleteUnversioned uri
  · have executed : ((StoreCall.hardDeleteRecord sqlite uri).execute serde store).records =
        (hardDeleteStatement sqlite uri store.records).2 := by
      rw [StoreCall.execute, RecordStore.hardDeleteRecord, RecordStore.execute_eq]
    rw [executed]
    cases sqlite with
    | some err => exact hydrates
    | none => exact hydrates.hardDelete uri

/-- The tables of a run whose effective upserts can be read are sound. -/
theorem hydrates_run {serde : SerdeJson} (limited : serde.Limited) {calls : List StoreCall}
    {store : RecordStore}
    (reached : run (StoreCall.step serde) RecordStore.empty calls = some store)
    (shallow : Along (StoreCall.step serde)
      (fun source call => call.EffectiveUpsertsShallow serde source) RecordStore.empty calls) :
    store.records.Hydrates serde := by
  have preserved : ∀ (source : RecordStore) (call : StoreCall) (target : RecordStore),
      source.records.Hydrates serde → call.EffectiveUpsertsShallow serde source →
      call.step serde source = some target → target.records.Hydrates serde := by
    intro source call target hydrates guarded stepped
    cases stepped
    exact hydrates_execute limited hydrates guarded
  exact Transition.invariant_of_along preserved (Records.Hydrates.empty serde) shallow reached

/-! ## Reads -/

/-- SQLite delivers nothing but rows of the table. -/
def DeliversStored (sqlite : Sqlite) : Prop :=
  ∀ select records, ∀ entry ∈ (sqlite select records).1, records.lookup entry.1 = some entry.2

theorem scan_deliversStored : DeliversStored scan := by
  rintro select records ⟨uri, row⟩ mem
  rcases List.mem_filterMap.mp mem with ⟨key, _, delivered⟩
  rcases Option.map_eq_some_iff.mp delivered with ⟨found, filtered, same⟩
  obtain ⟨rfl, rfl⟩ := Prod.mk.inj same
  exact (Option.filter_eq_some_iff.mp filtered).1

/-- No read of the store fails at turning a row into a record: both lookups
succeed, and a statement fails only where SQLite does. -/
structure RecordStore.Hydrates (serde : SerdeJson) (store : RecordStore) : Prop where
  getRecord : ∀ uri, ∃ found, store.getRecord serde uri = .ok found
  getRecordIncludingDeleted : ∀ uri, ∃ found, store.getRecordIncludingDeleted serde uri = .ok found
  queryRaw : ∀ sqlite, DeliversStored sqlite → ∀ select, ∃ results,
    store.queryRaw serde sqlite select =
      match (sqlite select store.records).2 with
      | some err => .error (.storage err)
      | none => .ok results

/-- Sound rows do not fail a read. -/
theorem RecordStore.hydrates_of_records {serde : SerdeJson} {store : RecordStore}
    (sound : store.records.Hydrates serde) : store.Hydrates serde where
  getRecord uri := by
    unfold RecordStore.getRecord Records.selectActive
    cases selected : (store.records.lookup uri).filter fun row => !row.isDeleted with
    | none => exact ⟨none, rfl⟩
    | some row =>
        have found := (Option.filter_eq_some_iff.mp selected).1
        rcases (sound uri row found).readable uri with ⟨result, mapped⟩
        exact ⟨some result, congrArg (Except.map some) mapped⟩
  getRecordIncludingDeleted uri := by
    unfold RecordStore.getRecordIncludingDeleted
    cases found : store.records.lookup uri with
    | none => exact ⟨none, rfl⟩
    | some row =>
        rcases (sound uri row found).readable uri with ⟨result, mapped⟩
        exact ⟨some result, congrArg (Except.map some) mapped⟩
  queryRaw sqlite delivers select := by
    have allMapped : ∀ entry ∈ (sqlite select store.records).1,
        ∃ result, mapRecordRow serde entry.1 entry.2 = .ok result := by
      intro entry mem
      exact (sound entry.1 entry.2 (delivers select store.records entry mem)).readable entry.1
    rcases Except.mapM_ok_of_forall allMapped with ⟨results, mapped⟩
    refine ⟨results, ?_⟩
    unfold RecordStore.queryRaw
    dsimp only
    rw [mapped]
    rfl

/-! ## Upserts -/

/-- An upsert that passes the guard of its statement succeeds and leaves the
row of its input. -/
theorem RecordStore.upsertRecord_of_touches (serde : SerdeJson) {sqlite : SqliteAnswer}
    {input : RecordInput} {store : RecordStore}
    (touches : (ClientCall.upsertRecord sqlite input).Touches store.records) :
    (store.upsertRecord serde sqlite input).1 = .ok () ∧
      (store.upsertRecord serde sqlite input).2.records.lookup input.uri =
        some (input.row serde) := by
  rcases upsertStatement_outcome serde sqlite input store.records with ⟨untouched, _⟩ | ⟨_, told⟩
  · exact absurd touches untouched
  · obtain ⟨written, found, columns_eq⟩ := told.holds input.toRow rfl
    have written_eq : input.row serde = written := (Prod.mk.inj columns_eq).2
    rw [upsertRecord, execute_eq]
    dsimp only
    constructor
    · have alone := told.alone
      cases result : (upsertStatement serde sqlite input store.records).1 with
      | error err =>
          rw [result] at alone
          cases alone
      | ok announcement => rfl
    · rw [found, written_eq]

/-- After an upsert that takes effect, `get_record` reads the row of its input. -/
theorem RecordStore.getRecord_upsertRecord (serde : SerdeJson) {sqlite : SqliteAnswer}
    {input : RecordInput} {store : RecordStore}
    (touches : (ClientCall.upsertRecord sqlite input).Touches store.records) :
    (store.upsertRecord serde sqlite input).2.getRecord serde input.uri =
      (mapRecordRow serde input.uri (input.row serde)).map some := by
  have found := (upsertRecord_of_touches serde touches).2
  have selected : (store.upsertRecord serde sqlite input).2.records.selectActive input.uri =
      some (input.row serde) := by
    rw [Records.selectActive, found]
    rfl
  rw [getRecord, selected]

/-- A payload beyond the recursion limit makes its record unreadable. -/
theorem RecordStore.getRecord_upsertRecord_of_deep {serde : SerdeJson} (limited : serde.Limited)
    {sqlite : SqliteAnswer} {input : RecordInput} {store : RecordStore}
    (touches : (ClientCall.upsertRecord sqlite input).Touches store.records)
    (deep : 127 < input.recordJson.depth) :
    ∃ err, (store.upsertRecord serde sqlite input).2.getRecord serde input.uri =
      .error (.serialization err) := by
  rcases limited.rejects input.recordJson deep with ⟨err, rejected⟩
  rw [getRecord_upsertRecord serde touches, mapRecordRow, RecordInput.row, RecordInput.boundRow,
    rejected]
  exact ⟨err, rfl⟩

/-- The record that an upsert has just written is read back unchanged exactly
if its payload is within the recursion limit. -/
theorem RecordStore.getRecord_upsertRecord_iff {serde : SerdeJson} (limited : serde.Limited)
    {sqlite : SqliteAnswer} {input : RecordInput} {store : RecordStore}
    (canonical : input.recordJson.Canonical) (floatFree : input.recordJson.FloatFree)
    (touches : (ClientCall.upsertRecord sqlite input).Touches store.records) :
    (store.upsertRecord serde sqlite input).2.getRecord serde input.uri = .ok (some input.toRow) ↔
      input.recordJson.depth ≤ 127 := by
  constructor
  · intro read
    by_contra deep
    rcases getRecord_upsertRecord_of_deep limited touches (Nat.lt_of_not_le deep) with
      ⟨err, failed⟩
    rw [failed] at read
    cases read
  · intro shallow
    have parsed : serde.fromStr (serde.text input.recordJson) = .ok input.recordJson :=
      limited.readsBack input.recordJson canonical floatFree shallow
    rw [getRecord_upsertRecord serde touches, mapRecordRow, RecordInput.row, RecordInput.boundRow,
      parsed]
    dsimp only
    rw [u64TryFrom_toInt]
    rfl

/-- Reading back what was written.  In every store, an upsert that takes effect
returns `Ok`, and `get_record` then returns the row of its input exactly if the
payload is at most 127 levels deep.  In every store that the public writes
reach, if none of the upserts that took effect went deeper, no read fails at a
row. -/
theorem getRecord_upsertRecord_and_hydrates_run {serde : SerdeJson} (limited : serde.Limited) :
    (∀ (store : RecordStore) (sqlite : SqliteAnswer) (input : RecordInput),
      input.recordJson.Canonical → input.recordJson.FloatFree →
      (ClientCall.upsertRecord sqlite input).Touches store.records →
        (store.upsertRecord serde sqlite input).1 = .ok () ∧
          ((store.upsertRecord serde sqlite input).2.getRecord serde input.uri =
              .ok (some input.toRow) ↔
            input.recordJson.depth ≤ 127)) ∧
      ∀ calls store, run (StoreCall.step serde) RecordStore.empty calls = some store →
        Along (StoreCall.step serde)
          (fun source call => call.EffectiveUpsertsShallow serde source) RecordStore.empty calls →
        store.Hydrates serde := by
  constructor
  · intro store sqlite input canonical floatFree touches
    constructor
    · exact (RecordStore.upsertRecord_of_touches serde touches).1
    · exact RecordStore.getRecord_upsertRecord_iff limited canonical floatFree touches
  · intro calls store reached shallow
    exact RecordStore.hydrates_of_records (hydrates_run limited reached shallow)

/-- A post that quotes another one. -/
def quotePost : RecordInput :=
  { alicePost 1 with
    recordJson := .object [("embed", .object [("record", .object [("uri", .string "at://bob")])]),
      ("langs", .array [.string "en", .string "pt"]), ("likes", .number (.posInt 3)),
      ("text", .string "say \"hi\"")] }

/-- The post of a nested payload is read back, and the store that holds it has no
row that fails a read. -/
theorem getRecord_upsertRecord_and_hydrates_run_quotePost :
    let after := (RecordStore.empty.upsertRecord Compact.codec none quotePost).2
    after.getRecord Compact.codec quotePost.uri = .ok (some quotePost.toRow) ∧
      after.Hydrates Compact.codec := by
  obtain ⟨readsBack, hydrates⟩ := getRecord_upsertRecord_and_hydrates_run Compact.codec_limited
  have touches :
      (ClientCall.upsertRecord none quotePost).Touches RecordStore.empty.records := by
    refine ⟨rfl, by decide, ?_⟩
    intro stored absurd
    cases absurd
  have canonical : quotePost.recordJson.Canonical := by
    simp only [quotePost, Value.Canonical, Value.CanonicalMembers, Value.CanonicalElements]
    decide
  have floatFree : quotePost.recordJson.FloatFree := by
    simp only [quotePost, Value.FloatFree, Value.AllNumbers, Value.AllNumbersOfElements,
      Value.AllNumbersOfMembers, Number.IsInteger, and_true]
  have shallow : quotePost.recordJson.depth ≤ 127 := by decide
  constructor
  · exact (readsBack _ none quotePost canonical floatFree touches).2.mpr shallow
  · apply hydrates [.write (.upsertRecord none quotePost)] _ rfl
    refine ⟨?_, fun _ _ => trivial⟩
    intro before input after split _
    have mem : StoreOperation.upsert input ∈ [.upsert quotePost] := by
      have performed : StoreOperation.upsert input ∈
          (WriteCall.upsertRecord none quotePost).performed Compact.codec
            RecordStore.empty := by
        change _ ∈ (StoreCall.write _).performed Compact.codec RecordStore.empty
        rw [split]
        exact List.mem_append_right _ List.mem_cons_self
      rw [WriteCall.performed] at performed
      split at performed
      · exact performed
      · cases performed
    cases List.mem_singleton.mp mem
    exact shallow

/-- Arrays in each other. -/
def nestedArrays : Nat → Value
  | 0 => .null
  | levels + 1 => .array [nestedArrays levels]

theorem depth_nestedArrays (levels : Nat) : (nestedArrays levels).depth = levels := by
  induction levels with
  | zero => rfl
  | succ levels ih =>
      rw [nestedArrays, Value.depth, Value.depthOfElements, Value.depthOfElements, ih, max_eq_left]
      exact Nat.zero_le _

theorem canonical_nestedArrays (levels : Nat) : (nestedArrays levels).Canonical := by
  induction levels with
  | zero => trivial
  | succ levels ih => exact ⟨ih, trivial⟩

theorem floatFree_nestedArrays (levels : Nat) : (nestedArrays levels).FloatFree := by
  induction levels with
  | zero => trivial
  | succ levels ih => exact ⟨ih, trivial⟩

/-- A post whose payload nests 128 arrays. -/
def deepPost : RecordInput := { alicePost 1 with recordJson := nestedArrays 128 }

/-- The upsert of the deep post returns `Ok` on an empty store, and the record
can then not be read. -/
theorem getRecord_deepPost :
    let upserted := RecordStore.empty.upsertRecord Compact.codec none deepPost
    deepPost.recordJson.Canonical ∧ deepPost.recordJson.FloatFree ∧ FitsI64 deepPost.indexedAt ∧
      upserted.1 = .ok () ∧
      ∃ err, upserted.2.getRecord Compact.codec deepPost.uri = .error (.serialization err) := by
  have fits : FitsI64 deepPost.indexedAt := by decide
  have touches : (ClientCall.upsertRecord none deepPost).Touches RecordStore.empty.records := by
    refine ⟨rfl, fits, ?_⟩
    intro stored absurd
    cases absurd
  have deep : 127 < deepPost.recordJson.depth := by
    change 127 < (nestedArrays 128).depth
    rw [depth_nestedArrays]
    decide
  refine ⟨canonical_nestedArrays 128, floatFree_nestedArrays 128, fits, ?_, ?_⟩
  · exact (RecordStore.upsertRecord_of_touches Compact.codec touches).1
  · exact RecordStore.getRecord_upsertRecord_of_deep Compact.codec_limited touches deep

end Skybase.Index
