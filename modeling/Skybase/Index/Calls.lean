import Skybase.Index.Batch

/-!
# Runs of versioned calls

Clients write through `upsert_record`, `soft_delete_record` and
`apply_operations_batch`; the connection lock puts their calls in some order.
A run of calls executes the operations of the calls that succeed, one after
the other.  Along every run the stored timestamps never decrease, stale
operations change nothing, and operations on one URI leave the rows of the
others alone.
-/

namespace Skybase.Index

open Skybase.Json
open Skybase.Register (Op)

/-- A versioned write of a client, with the answers of SQLite to it. -/
inductive WriteCall where
  | upsertRecord (sqlite : SqliteAnswer) (input : RecordInput)
  | softDeleteRecord (sqlite : SqliteAnswer) (uri : String) (indexedAt : U64)
  | applyOperationsBatch (sqlite : BatchAnswers) (operations : List StoreOperation)
      (cursor : Option U64)

namespace WriteCall

/-- The operations a call asks for. -/
def operations : WriteCall → List StoreOperation
  | .upsertRecord _ input => [.upsert input]
  | .softDeleteRecord _ uri indexedAt => [.delete uri indexedAt]
  | .applyOperationsBatch _ operations _ => operations

/-- SQLite does not fail the call. -/
def FaultFree : WriteCall → Prop
  | .upsertRecord sqlite _ => sqlite = none
  | .softDeleteRecord sqlite _ _ => sqlite = none
  | .applyOperationsBatch sqlite _ _ => sqlite = BatchAnswers.ok

/-- The result of a call, without the value it returns, and the store after it. -/
def execute (serde : SerdeJson) (store : RecordStore) :
    WriteCall → Except SkybaseError Unit × RecordStore
  | .upsertRecord sqlite input => store.upsertRecord serde sqlite input
  | .softDeleteRecord sqlite uri indexedAt =>
      let (result, after) := store.softDeleteRecord sqlite uri indexedAt
      (result.map fun _ => (), after)
  | .applyOperationsBatch sqlite operations cursor =>
      let (result, after) := store.applyOperationsBatch serde sqlite operations cursor
      (result.map fun _ => (), after)

/-- The store after a call. -/
def after (serde : SerdeJson) (store : RecordStore) (call : WriteCall) : RecordStore :=
  (call.execute serde store).2

/-- The operations a call performs: all of them if it returns `Ok`, else none. -/
def performed (serde : SerdeJson) (store : RecordStore) (call : WriteCall) :
    List StoreOperation :=
  if (call.execute serde store).1.isOk then call.operations else []

theorem execute_upsertRecord (serde : SerdeJson) (store : RecordStore) (sqlite : SqliteAnswer)
    (input : RecordInput) :
    (upsertRecord sqlite input).execute serde store =
      ((((StoreOperation.upsert input).statementWith serde sqlite store.records).1.map fun _ => ()),
        (store.execute ((StoreOperation.upsert input).statementWith serde sqlite)).2) := by
  rw [execute, RecordStore.upsertRecord_eq]

theorem execute_softDeleteRecord (serde : SerdeJson) (store : RecordStore)
    (sqlite : SqliteAnswer) (uri : String) (indexedAt : U64) :
    (softDeleteRecord sqlite uri indexedAt).execute serde store =
      ((((StoreOperation.delete uri indexedAt).statementWith serde sqlite store.records).1.map
          fun _ => ()),
        (store.execute ((StoreOperation.delete uri indexedAt).statementWith serde sqlite)).2) := by
  rw [execute, RecordStore.softDeleteRecord_eq serde]
  dsimp only
  cases ((StoreOperation.delete uri indexedAt).statementWith serde sqlite store.records).1 <;> rfl

/-- A call fails and leaves the table alone, or returns `Ok` and executes its
operations. -/
theorem execute_cases (serde : SerdeJson) (store : RecordStore) (call : WriteCall) :
    (∃ err, (call.execute serde store).1 = .error err ∧
        (call.after serde store).records = store.records) ∨
      ((call.execute serde store).1 = .ok () ∧
        (call.after serde store).records =
          runOperations serde store.records call.operations) := by
  cases call with
  | upsertRecord sqlite input =>
      rw [after, execute_upsertRecord, RecordStore.execute_eq]
      rcases StoreOperation.statementWith_cases serde sqlite (.upsert input) store.records with
        ⟨err, failed⟩ | ⟨announcement, succeeded⟩
      · rw [failed]
        exact Or.inl ⟨err, rfl, rfl⟩
      · rw [succeeded]
        exact Or.inr ⟨rfl, rfl⟩
  | softDeleteRecord sqlite uri indexedAt =>
      rw [after, execute_softDeleteRecord, RecordStore.execute_eq]
      rcases StoreOperation.statementWith_cases serde sqlite (.delete uri indexedAt)
        store.records with ⟨err, failed⟩ | ⟨announcement, succeeded⟩
      · rw [failed]
        exact Or.inl ⟨err, rfl, rfl⟩
      · rw [succeeded]
        exact Or.inr ⟨rfl, rfl⟩
  | applyOperationsBatch sqlite operations cursor =>
      rw [after, execute]
      rcases RecordStore.applyOperationsBatch_cases serde sqlite operations cursor store with
        ⟨err, failed⟩ | ⟨stats, succeeded⟩
      · rw [failed]
        exact Or.inl ⟨err, rfl, rfl⟩
      · rw [succeeded]
        exact Or.inr ⟨rfl, rfl⟩

/-- A call performs its operations on the table. -/
theorem records_after (serde : SerdeJson) (store : RecordStore) (call : WriteCall) :
    (call.after serde store).records =
      runOperations serde store.records (call.performed serde store) := by
  unfold performed
  rcases execute_cases serde store call with ⟨err, failed, unchanged⟩ | ⟨succeeded, executed⟩
  · rw [failed, unchanged]
    rfl
  · rw [succeeded, executed]
    rfl

/-- Without a failure of SQLite, and with timestamps that `i64` holds, a call
performs everything it asks for. -/
theorem performed_of_faultFree (serde : SerdeJson) (store : RecordStore) {call : WriteCall}
    (faultFree : call.FaultFree) (fits : ∀ op ∈ call.operations, FitsI64 op.indexedAt) :
    call.performed serde store = call.operations := by
  have succeeds : (call.execute serde store).1 = .ok () := by
    cases call with
    | upsertRecord sqlite input =>
        cases faultFree
        obtain ⟨announcement, succeeded⟩ :=
          (StoreOperation.upsert input).statement_ok_of_fits serde store.records
            (fits _ List.mem_cons_self)
        rw [execute_upsertRecord]
        exact congrArg (fun outcome => Except.map (fun _ => ()) (Prod.fst outcome)) succeeded
    | softDeleteRecord sqlite uri indexedAt =>
        cases faultFree
        obtain ⟨announcement, succeeded⟩ :=
          (StoreOperation.delete uri indexedAt).statement_ok_of_fits serde store.records
            (fits _ List.mem_cons_self)
        rw [execute_softDeleteRecord]
        exact congrArg (fun outcome => Except.map (fun _ => ()) (Prod.fst outcome)) succeeded
    | applyOperationsBatch sqlite operations cursor =>
        cases faultFree
        obtain ⟨stats, applied⟩ :=
          RecordStore.applyOperationsBatch_ok serde operations cursor store
        rw [execute, applied]
        rfl
  rw [performed, succeeds]
  rfl

end WriteCall

/-- The store after a run of calls. -/
def runCalls (serde : SerdeJson) (store : RecordStore) (calls : List WriteCall) : RecordStore :=
  calls.foldl (WriteCall.after serde) store

/-- The operations that a run of calls performs, in order. -/
def performedBy (serde : SerdeJson) : RecordStore → List WriteCall → List StoreOperation
  | _, [] => []
  | store, call :: calls =>
      call.performed serde store ++ performedBy serde (call.after serde store) calls

/-- The operations that a run of calls asks for. -/
def operationsOf (calls : List WriteCall) : List StoreOperation :=
  calls.flatMap WriteCall.operations

/-- A run of calls leaves the table that the statements of the performed
operations leave. -/
theorem records_runCalls (serde : SerdeJson) (store : RecordStore) (calls : List WriteCall) :
    (runCalls serde store calls).records =
      runOperations serde store.records (performedBy serde store calls) := by
  induction calls generalizing store with
  | nil => rfl
  | cons call calls ih =>
      rw [performedBy, runOperations_append, ← WriteCall.records_after]
      exact ih (call.after serde store)

theorem performedBy_of_faultFree (serde : SerdeJson) (store : RecordStore)
    {calls : List WriteCall} (faultFree : ∀ call ∈ calls, call.FaultFree)
    (fits : ∀ op ∈ operationsOf calls, FitsI64 op.indexedAt) :
    performedBy serde store calls = operationsOf calls := by
  induction calls generalizing store with
  | nil => rfl
  | cons call calls ih =>
      rw [operationsOf, List.flatMap_cons] at fits ⊢
      have first := WriteCall.performed_of_faultFree serde store
        (faultFree call List.mem_cons_self) fun op mem => fits op (List.mem_append_left _ mem)
      have rest := ih (call.after serde store)
        (fun later mem => faultFree later (List.mem_cons_of_mem call mem))
        fun op mem => fits op (List.mem_append_right _ mem)
      rw [performedBy, first, rest]
      rfl

/-! ## Safety of runs -/

/-- A row that exists is never replaced by an older one. -/
theorem lookup_runOperations_le (serde : SerdeJson) {records : Records} {uri : String} {row : Row}
    (found : records.lookup uri = some row) (ops : List StoreOperation) :
    ∃ next, (runOperations serde records ops).lookup uri = some next ∧
      row.indexedAt ≤ next.indexedAt := by
  have cell_eq : cellAt uri records = some row.cell := by rw [cellAt, found, Option.map_some]
  rcases Register.run_some row.cell (opsAt serde uri ops) with ⟨final, reached, grown⟩
  rw [← cell_eq, ← cellAt_runOperations, cellAt] at reached
  rcases Option.map_eq_some_iff.mp reached with ⟨next, next_eq, rfl⟩
  exact ⟨next, next_eq, grown⟩

/-- A stale operation leaves the row of its URI entirely unchanged. -/
theorem lookup_exec_of_stale (serde : SerdeJson) {records : Records} {op : StoreOperation}
    {row : Row} (found : records.lookup op.uri = some row)
    (stale : op.indexedAt.toInt < row.indexedAt) :
    (op.exec serde records).lookup op.uri = some row := by
  have cell_eq : cellAt op.uri records = some row.cell := by rw [cellAt, found, Option.map_some]
  rw [← found]
  apply lookup_eq_of_cellAt_eq
  by_cases fits : FitsI64 op.indexedAt
  · rw [op.cellAt_exec_self serde records fits, cell_eq]
    apply Register.step_of_lt
    rw [StoreOperation.version_registerOp]
    exact stale
  · rw [op.exec_of_not_fits serde records fits]

/-- The operations of a list that are about a URI. -/
def onUri (uri : String) (ops : List StoreOperation) : List StoreOperation :=
  ops.filter fun op => op.uri = uri

theorem mem_onUri_iff {uri : String} {ops : List StoreOperation} {op : StoreOperation} :
    op ∈ onUri uri ops ↔ op ∈ ops ∧ op.uri = uri := by
  simp only [onUri, List.mem_filter, decide_eq_true_eq]

theorem opsAt_eq_map_onUri (serde : SerdeJson) (uri : String) {ops : List StoreOperation}
    (fits : ∀ op ∈ ops, FitsI64 op.indexedAt) :
    opsAt serde uri ops = (onUri uri ops).map (StoreOperation.registerOp serde) := by
  rw [opsAt, onUri]
  congr 1
  apply List.filter_congr
  intro op mem
  simp only [fits op mem, and_true]

/-- An upsert that no earlier operation on its URI exceeds and every later one
precedes decides the row. -/
theorem lookup_of_newest_upsert (serde : SerdeJson) {records : Records} {uri : String}
    {ops before after : List StoreOperation} {input : RecordInput}
    (fits : ∀ op ∈ ops, FitsI64 op.indexedAt) (absent : records.lookup uri = none)
    (split : onUri uri ops = before ++ .upsert input :: after)
    (earlier : ∀ op ∈ before, op.indexedAt ≤ input.indexedAt)
    (later : ∀ op ∈ after, op.indexedAt < input.indexedAt) :
    (runOperations serde records ops).lookup uri = some (input.row serde) := by
  have empty : cellAt uri records = none := by rw [cellAt, absent, Option.map_none]
  have reached : cellAt uri (runOperations serde records ops) = some (input.row serde).cell := by
    rw [cellAt_runOperations, opsAt_eq_map_onUri serde uri fits, split, List.map_append,
      List.map_cons, empty]
    apply Register.run_of_newest_put
    · intro old absurd
      cases absurd
    · intro op mem
      rcases List.mem_map.mp mem with ⟨source, sourceMem, rfl⟩
      rw [StoreOperation.version_registerOp, U64.toInt_le_toInt_iff]
      exact earlier source sourceMem
    · intro op mem
      obtain ⟨source, sourceMem, rfl⟩ := List.mem_map.mp mem
      rw [StoreOperation.version_registerOp, U64.toInt_lt_toInt_iff]
      exact later source sourceMem
  rcases Option.map_eq_some_iff.mp reached with ⟨row, row_eq, cell_eq⟩
  rw [row_eq, Row.cell_injective cell_eq]

/-- Last writer wins, as far as the guards of the statements promise it.  A run
of calls executes what its successful calls ask for.  Along it no row ever gets
older, a stale operation leaves its row alone and every operation leaves the
rows of the other URIs alone.  On a URI that is absent at the start and only
upserted, the last one of the newest upserts decides the row. -/
theorem runCalls_lastWriterWins (serde : SerdeJson) (store : RecordStore)
    (calls : List WriteCall) :
    (runCalls serde store calls).records =
        runOperations serde store.records (performedBy serde store calls) ∧
      ((∀ call ∈ calls, call.FaultFree) → (∀ op ∈ operationsOf calls, FitsI64 op.indexedAt) →
        performedBy serde store calls = operationsOf calls) ∧
      (∀ first middle last, performedBy serde store calls = first ++ middle ++ last →
        ∀ uri row, (runOperations serde store.records first).lookup uri = some row →
          ∃ next, (runOperations serde store.records (first ++ middle)).lookup uri = some next ∧
            row.indexedAt ≤ next.indexedAt) ∧
      (∀ before op after, performedBy serde store calls = before ++ op :: after →
        (∀ row, (runOperations serde store.records before).lookup op.uri = some row →
          op.indexedAt.toInt < row.indexedAt →
            (runOperations serde store.records (before ++ [op])).lookup op.uri = some row) ∧
        ∀ uri, op.uri ≠ uri →
          (runOperations serde store.records (before ++ [op])).lookup uri =
            (runOperations serde store.records before).lookup uri) ∧
      ∀ uri, store.records.lookup uri = none →
        (∀ op ∈ performedBy serde store calls, FitsI64 op.indexedAt) →
        onUri uri (performedBy serde store calls) ≠ [] →
        (∀ op ∈ onUri uri (performedBy serde store calls), op.isUpsert = true) →
          ∃ before input after,
            onUri uri (performedBy serde store calls) = before ++ .upsert input :: after ∧
              (∀ op ∈ before, op.indexedAt ≤ input.indexedAt) ∧
              (∀ op ∈ after, op.indexedAt < input.indexedAt) ∧
              (runCalls serde store calls).records.lookup uri = some (input.row serde) := by
  refine ⟨records_runCalls serde store calls, performedBy_of_faultFree serde store, ?_, ?_, ?_⟩
  · intro first middle last _ uri row found
    rw [runOperations_append]
    exact lookup_runOperations_le serde found middle
  · intro before op after _
    rw [runOperations_append, runOperations_cons, runOperations_nil]
    exact ⟨fun row found stale => lookup_exec_of_stale serde found stale,
      fun uri other => op.lookup_exec_of_ne serde _ other⟩
  · intro uri absent fits nonempty upserts
    obtain ⟨before, op, after, split, earlier, later⟩ :=
      Register.exists_newest StoreOperation.indexedAt nonempty
    cases op with
    | delete other indexedAt =>
        have absurd := upserts (.delete other indexedAt) (by rw [split]; simp)
        cases absurd
    | upsert input =>
        exists before, input, after, split, earlier, later
        rw [records_runCalls]
        exact lookup_of_newest_upsert serde fits absent split earlier later

end Skybase.Index
