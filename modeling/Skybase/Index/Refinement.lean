import Skybase.Index.Store
import Skybase.Register.Core

/-!
# The record table refines a register for each URI

Every row is a register cell: its version is `indexed_at`, its payload the
other columns, and a soft-deleted row is a dead cell.  A versioned statement
performs one register operation on the register of its own URI, and an
out-of-range timestamp none at all.  The notification a statement leaves to
publish describes exactly how it changed the live view.
-/

namespace Skybase.Index

open Skybase.Feed
open Skybase.Json
open Skybase.Register (Cell Op)

/-! ## Rows as register cells -/

/-- The columns that an upsert replaces as a whole. -/
structure Content where
  cid : String
  did : String
  collection : String
  rkey : String
  recordJson : String
deriving DecidableEq

/-- The register cell of a row. -/
def Row.cell (row : Row) : Cell Int Content where
  version := row.indexedAt
  payload := ⟨row.cid, row.did, row.collection, row.rkey, row.recordJson⟩
  live := !row.isDeleted

theorem Row.cell_injective : Function.Injective Row.cell := by
  rintro ⟨⟩ ⟨⟩ equal
  simp_all [Row.cell]

/-- The register of a URI. -/
def cellAt (uri : String) (records : Records) : Option (Cell Int Content) :=
  (records.lookup uri).map Row.cell

theorem lookup_eq_of_cellAt_eq {first second : Records} {uri : String}
    (same : cellAt uri first = cellAt uri second) : first.lookup uri = second.lookup uri :=
  Option.map_injective Row.cell_injective same

/-- The columns an input is stored with. -/
def RecordInput.content (serde : SerdeJson) (input : RecordInput) : Content :=
  ⟨input.cid, input.did, input.collection, input.rkey, serde.text input.recordJson⟩

/-- The row an input is stored as. -/
def RecordInput.row (serde : SerdeJson) (input : RecordInput) : Row :=
  input.boundRow (serde.text input.recordJson) input.indexedAt.toInt

namespace StoreOperation

/-- The register operation a store operation stands for. -/
def registerOp (serde : SerdeJson) : StoreOperation → Op Int Content
  | .upsert input => .put input.indexedAt.toInt (input.content serde)
  | .delete _ indexedAt => .remove indexedAt.toInt

@[simp]
theorem version_registerOp (serde : SerdeJson) (op : StoreOperation) :
    (op.registerOp serde).version = op.indexedAt.toInt := by
  cases op <;> rfl

@[simp]
theorem isPut_registerOp (serde : SerdeJson) (op : StoreOperation) :
    (op.registerOp serde).isPut = op.isUpsert := by
  cases op <;> rfl

/-- The statement of a store operation, as `upsert_record` and
`soft_delete_record` execute it. -/
def statementWith (serde : SerdeJson) (sqlite : SqliteAnswer) :
    StoreOperation → Records → Except SkybaseError (Option ChangeNotification) × Records
  | .upsert input => upsertStatement serde sqlite input
  | .delete uri indexedAt => softDeleteStatement sqlite uri indexedAt

/-- The statement when SQLite does not fail. -/
def statement (serde : SerdeJson) (op : StoreOperation) :
    Records → Except SkybaseError (Option ChangeNotification) × Records :=
  op.statementWith serde none

/-- The table after the statement. -/
def exec (serde : SerdeJson) (records : Records) (op : StoreOperation) : Records :=
  (op.statement serde records).2

/-- What the statement leaves to publish. -/
def announced (serde : SerdeJson) (records : Records) (op : StoreOperation) :
    Option ChangeNotification :=
  (op.statement serde records).1.toOption.join

/-- Whether the statement passes its guards and touches its row. -/
def accepted (serde : SerdeJson) (records : Records) (op : StoreOperation) : Bool :=
  decide (FitsI64 op.indexedAt) &&
    Register.accepts (cellAt op.uri records) (op.registerOp serde)

end StoreOperation

/-- The table after the statements of the operations, in order. -/
def runOperations (serde : SerdeJson) (records : Records) (ops : List StoreOperation) : Records :=
  ops.foldl (StoreOperation.exec serde) records

@[simp]
theorem runOperations_nil (serde : SerdeJson) (records : Records) :
    runOperations serde records [] = records :=
  rfl

@[simp]
theorem runOperations_cons (serde : SerdeJson) (records : Records) (op : StoreOperation)
    (ops : List StoreOperation) :
    runOperations serde records (op :: ops) = runOperations serde (op.exec serde records) ops :=
  rfl

@[simp]
theorem runOperations_append (serde : SerdeJson) (records : Records)
    (first second : List StoreOperation) :
    runOperations serde records (first ++ second) =
      runOperations serde (runOperations serde records first) second :=
  List.foldl_append

/-! ## One statement -/

theorem Records.upsert_eq (serde : SerdeJson) (records : Records) (input : RecordInput) :
    records.upsert input.uri (input.row serde) =
      if Register.accepts (cellAt input.uri records)
          (.put input.indexedAt.toInt (input.content serde))
      then (1, records.insert input.uri (input.row serde)) else (0, records) := by
  unfold Records.upsert cellAt
  cases records.lookup input.uri with
  | none => rfl
  | some stored =>
      have guard : Register.accepts (some stored.cell)
          (.put input.indexedAt.toInt (input.content serde)) = true ↔
            (input.row serde).indexedAt ≥ stored.indexedAt :=
        Register.accepts_put_iff stored.cell _ _
      simp only [Option.map_some, guard]

theorem Records.softDelete_eq_of_lookup {records : Records} {uri : String} {stored : Row}
    (found : records.lookup uri = some stored) (indexedAt : Int) :
    records.softDelete uri indexedAt =
      if Register.accepts (some stored.cell) (.remove indexedAt : Op Int Content) then
        (some stored.deletedMeta,
          records.insert uri { stored with isDeleted := true, indexedAt := indexedAt })
      else (none, records) := by
  have guard : Register.accepts (some stored.cell) (.remove indexedAt : Op Int Content) = true ↔
      indexedAt ≥ stored.indexedAt ∧ stored.isDeleted = false := by
    rw [Register.accepts_remove_iff, Row.cell, Bool.not_eq_true']
  unfold Records.softDelete
  simp only [found, guard]

/-- The columns of a row as a subscriber holds it. -/
def RecordRow.columns (serde : SerdeJson) (row : RecordRow) : String × Row :=
  (row.uri,
    { cid := row.cid
      did := row.did
      collection := row.collection
      rkey := row.rkey
      recordJson := serde.text row.recordJson
      indexedAt := row.indexedAt.toInt
      isDeleted := row.isDeleted })

/-- A notification as a change of the stored columns. -/
def ChangeNotification.columnChange (serde : SerdeJson) (notification : ChangeNotification) :
    Change String (String × Row) :=
  notification.change.map (RecordRow.columns serde)

/-- What a statement that touches its row announces. -/
def StoreOperation.columnChange (op : StoreOperation) (row : Row) : Change String (String × Row) :=
  if op.isUpsert then .set op.uri (op.uri, row) else .clear op.uri

namespace StoreOperation

/-- An out-of-range timestamp fails before the statement runs. -/
theorem statement_of_not_fits (serde : SerdeJson) (records : Records) {op : StoreOperation}
    (overflow : ¬ FitsI64 op.indexedAt) :
    op.statement serde records =
      (.error (.indexedAtOutOfRange tryFromIntError), records) := by
  cases op with
  | upsert input =>
      have failed : i64TryFrom input.indexedAt = .error tryFromIntError :=
        i64TryFrom_of_not_fits overflow
      simp only [statement, statementWith, upsertStatement, serde.toString_eq_text, failed]
  | delete uri indexedAt =>
      have failed : i64TryFrom indexedAt = .error tryFromIntError :=
        i64TryFrom_of_not_fits overflow
      simp only [statement, statementWith, softDeleteStatement, failed]

theorem statement_upsert_of_fits (serde : SerdeJson) (records : Records) {input : RecordInput}
    (fits : FitsI64 input.indexedAt) :
    (upsert input).statement serde records =
      if Register.accepts (cellAt input.uri records) ((upsert input).registerOp serde) then
        (.ok (some (.upsert input.toRow)), records.insert input.uri (input.row serde))
      else (.ok none, records) := by
  have upserted := Records.upsert_eq serde records input
  have bound : input.boundRow (serde.text input.recordJson) input.indexedAt.toInt =
      input.row serde := rfl
  simp only [statement, statementWith, upsertStatement, serde.toString_eq_text,
    i64TryFrom_of_fits fits, bound, upserted, registerOp]
  by_cases accepts : Register.accepts (cellAt input.uri records)
      (.put input.indexedAt.toInt (input.content serde)) = true
  · simp only [accepts, if_true]
    rfl
  · simp only [accepts]
    rfl

theorem statement_delete_of_fits (serde : SerdeJson) (records : Records) (uri : String)
    (indexedAt : U64) (fits : FitsI64 indexedAt) :
    (delete uri indexedAt).statement serde records =
      match records.lookup uri with
      | none => (.ok none, records)
      | some stored =>
          if Register.accepts (some stored.cell) (.remove indexedAt.toInt : Op Int Content) then
            (.ok (some (.delete uri stored.did stored.collection stored.rkey)),
              records.insert uri
                { stored with isDeleted := true, indexedAt := indexedAt.toInt })
          else (.ok none, records) := by
  simp only [statement, statementWith, softDeleteStatement, i64TryFrom_of_fits fits]
  cases found : records.lookup uri with
  | none => simp only [Records.softDelete, found, deleteNotification, Option.map_none]
  | some stored =>
      simp only [Records.softDelete_eq_of_lookup found]
      by_cases accepts : Register.accepts (some stored.cell)
          (.remove indexedAt.toInt : Op Int Content) = true
      · simp only [accepts, if_true]
        rfl
      · simp only [accepts]
        rfl

/-- A statement that SQLite fails returns an error and leaves the table alone. -/
theorem statementWith_some (serde : SerdeJson) (err : String) (op : StoreOperation)
    (records : Records) :
    ∃ error, op.statementWith serde (some err) records = (.error error, records) := by
  cases op with
  | upsert input =>
      simp only [statementWith, upsertStatement, serde.toString_eq_text]
      cases i64TryFrom input.indexedAt with
      | error e => exact ⟨_, rfl⟩
      | ok indexedAtI64 => exact ⟨_, rfl⟩
  | delete uri indexedAt =>
      simp only [statementWith, softDeleteStatement]
      cases i64TryFrom indexedAt with
      | error e => exact ⟨_, rfl⟩
      | ok indexedAtI64 => exact ⟨_, rfl⟩

theorem statement_ok_of_fits (serde : SerdeJson) (records : Records) {op : StoreOperation}
    (fits : FitsI64 op.indexedAt) :
    ∃ announcement, op.statement serde records = (.ok announcement, op.exec serde records) := by
  have succeeds : ∃ announcement, (op.statement serde records).1 = .ok announcement := by
    cases op with
    | upsert input =>
        rw [statement_upsert_of_fits serde records fits]
        split
        · exact ⟨_, rfl⟩
        · exact ⟨_, rfl⟩
    | delete uri indexedAt =>
        rw [statement_delete_of_fits serde records uri indexedAt fits]
        cases records.lookup uri with
        | none => exact ⟨_, rfl⟩
        | some stored =>
            dsimp only
            split
            · exact ⟨_, rfl⟩
            · exact ⟨_, rfl⟩
  rcases succeeds with ⟨announcement, ok_eq⟩
  exact ⟨announcement, Prod.ext ok_eq rfl⟩

/-- A statement fails and leaves the table alone, or does what it does when
SQLite does not fail. -/
theorem statementWith_cases (serde : SerdeJson) (sqlite : SqliteAnswer) (op : StoreOperation)
    (records : Records) :
    (∃ error, op.statementWith serde sqlite records = (.error error, records)) ∨
      ∃ announcement, op.statementWith serde sqlite records =
        (.ok announcement, op.exec serde records) := by
  cases sqlite with
  | some err => exact Or.inl (statementWith_some serde err op records)
  | none =>
      by_cases fits : FitsI64 op.indexedAt
      · exact Or.inr (statement_ok_of_fits serde records fits)
      · exact Or.inl ⟨_, statement_of_not_fits serde records fits⟩

/-- What a versioned statement can do: nothing, or one register operation on
the row of its URI, which it announces. -/
theorem statement_cases (serde : SerdeJson) (records : Records) (op : StoreOperation) :
    (op.accepted serde records = false ∧ op.exec serde records = records ∧
        op.announced serde records = none) ∨
      (op.accepted serde records = true ∧ ∃ row notification,
        op.exec serde records = records.insert op.uri row ∧
          some row.cell = Register.write (cellAt op.uri records) (op.registerOp serde) ∧
          op.announced serde records = some notification ∧
          notification.columnChange serde = op.columnChange row) := by
  by_cases fits : FitsI64 op.indexedAt
  · cases op with
    | upsert input =>
        have statement_eq := statement_upsert_of_fits serde records fits
        cases accepts : Register.accepts (cellAt input.uri records)
            ((upsert input).registerOp serde) with
        | false =>
            rw [accepts, if_neg Bool.false_ne_true] at statement_eq
            have silent : announced serde records (upsert input) = none := by
              rw [announced, statement_eq]
              rfl
            have rejected : accepted serde records (upsert input) = false :=
              (congrArg _ accepts).trans (Bool.and_false _)
            exact Or.inl ⟨rejected, congrArg Prod.snd statement_eq, silent⟩
        | true =>
            rw [accepts, if_pos rfl] at statement_eq
            have told : announced serde records (upsert input) = some (.upsert input.toRow) := by
              rw [announced, statement_eq]
              rfl
            have taken : accepted serde records (upsert input) = true := by
              simp only [accepted, uri, accepts, fits, decide_true, Bool.and_true]
            exact Or.inr ⟨taken, input.row serde, .upsert input.toRow,
              congrArg Prod.snd statement_eq, rfl, told, rfl⟩
    | delete uri indexedAt =>
        have statement_eq := statement_delete_of_fits serde records uri indexedAt fits
        cases found : records.lookup uri with
        | none =>
            have empty : cellAt uri records = none := by rw [cellAt, found, Option.map_none]
            rw [found] at statement_eq
            have silent : announced serde records (delete uri indexedAt) = none := by
              rw [announced, statement_eq]
              rfl
            have rejected : accepted serde records (delete uri indexedAt) = false := by
              simp only [accepted, StoreOperation.uri, empty]
              exact Bool.and_false _
            exact Or.inl ⟨rejected, congrArg Prod.snd statement_eq, silent⟩
        | some stored =>
            have held : cellAt uri records = some stored.cell := by
              rw [cellAt, found, Option.map_some]
            rw [found] at statement_eq
            cases accepts : Register.accepts (some stored.cell)
                (.remove indexedAt.toInt : Op Int Content) with
            | false =>
                simp only [accepts, Bool.false_eq_true, if_false] at statement_eq
                have silent : announced serde records (delete uri indexedAt) = none := by
                  rw [announced, statement_eq]
                  rfl
                have rejected : accepted serde records (delete uri indexedAt) = false := by
                  simp only [accepted, StoreOperation.uri, held, registerOp, accepts,
                    Bool.and_false]
                exact Or.inl ⟨rejected, congrArg Prod.snd statement_eq, silent⟩
            | true =>
                simp only [accepts, if_true] at statement_eq
                let dead : Row := { stored with isDeleted := true, indexedAt := indexedAt.toInt }
                have told : announced serde records (delete uri indexedAt) =
                    some (.delete uri stored.did stored.collection stored.rkey) := by
                  rw [announced, statement_eq]
                  rfl
                have taken : accepted serde records (delete uri indexedAt) = true := by
                  simp only [accepted, StoreOperation.uri, held, registerOp, accepts, fits,
                    decide_true, Bool.and_true]
                have written : some dead.cell = Register.write (cellAt uri records)
                    ((delete uri indexedAt).registerOp serde) := by
                  rw [held]
                  rfl
                exact Or.inr ⟨taken, dead, _, congrArg Prod.snd statement_eq, written, told, rfl⟩
  · have statement_eq := statement_of_not_fits serde records fits
    have silent : announced serde records op = none := by
      rw [announced, statement_eq]
      rfl
    have rejected : accepted serde records op = false := by
      simp only [accepted, fits, decide_false, Bool.false_and]
    exact Or.inl ⟨rejected, congrArg Prod.snd statement_eq, silent⟩

/-- What a versioned statement does to the table, without its announcement. -/
theorem exec_cases (serde : SerdeJson) (records : Records) (op : StoreOperation) :
    (op.accepted serde records = false ∧ op.exec serde records = records) ∨
      (op.accepted serde records = true ∧ ∃ row, op.exec serde records = records.insert op.uri row ∧
        some row.cell = Register.write (cellAt op.uri records) (op.registerOp serde)) := by
  rcases statement_cases serde records op with ⟨rejected, same, _⟩ | ⟨accepted, row, _, inserted,
    written, _⟩
  · exact Or.inl ⟨rejected, same⟩
  · exact Or.inr ⟨accepted, row, inserted, written⟩

end StoreOperation

/-! ## Runs of statements as runs of registers -/

theorem cellAt_insert_self (records : Records) (uri : String) (row : Row) :
    cellAt uri (records.insert uri row) = some row.cell := by
  rw [cellAt, Finmap.lookup_insert, Option.map_some]

@[simp]
theorem cellAt_empty (uri : String) : cellAt uri ∅ = none := by
  rw [cellAt, Finmap.lookup_empty, Option.map_none]

/-- The register operations that a run performs on one URI. -/
def opsAt (serde : SerdeJson) (uri : String) (ops : List StoreOperation) : List (Op Int Content) :=
  (ops.filter fun op => op.uri = uri ∧ FitsI64 op.indexedAt).map
    (StoreOperation.registerOp serde)

theorem mem_opsAt_iff {serde : SerdeJson} {uri : String} {ops : List StoreOperation}
    {registerOp : Op Int Content} :
    registerOp ∈ opsAt serde uri ops ↔
      ∃ op ∈ ops, op.uri = uri ∧ FitsI64 op.indexedAt ∧ op.registerOp serde = registerOp := by
  simp only [opsAt, List.mem_map, List.mem_filter, decide_eq_true_eq, and_assoc]

@[simp]
theorem opsAt_append (serde : SerdeJson) (uri : String) (first second : List StoreOperation) :
    opsAt serde uri (first ++ second) = opsAt serde uri first ++ opsAt serde uri second := by
  simp only [opsAt, List.filter_append, List.map_append]

theorem opsAt_cons_self (serde : SerdeJson) {op : StoreOperation} (ops : List StoreOperation)
    (fits : FitsI64 op.indexedAt) :
    opsAt serde op.uri (op :: ops) = op.registerOp serde :: opsAt serde op.uri ops := by
  simp only [opsAt, List.filter_cons, fits, and_self, decide_true, if_true, List.map_cons]

theorem opsAt_cons_of_not {serde : SerdeJson} {uri : String} {op : StoreOperation}
    (ops : List StoreOperation) (irrelevant : ¬ (op.uri = uri ∧ FitsI64 op.indexedAt)) :
    opsAt serde uri (op :: ops) = opsAt serde uri ops := by
  simp only [opsAt, List.filter_cons, irrelevant, decide_false, Bool.false_eq_true, if_false]

namespace StoreOperation

/-- On its own URI a statement is one register operation. -/
theorem cellAt_exec_self (serde : SerdeJson) (records : Records) {op : StoreOperation}
    (fits : FitsI64 op.indexedAt) :
    cellAt op.uri (op.exec serde records) =
      Register.step (cellAt op.uri records) (op.registerOp serde) := by
  have guard : op.accepted serde records =
      Register.accepts (cellAt op.uri records) (op.registerOp serde) := by
    simp only [accepted, fits, decide_true, Bool.true_and]
  rcases exec_cases serde records op with ⟨rejected, same⟩ | ⟨accepted, row, inserted, written⟩
  · rw [same, Register.step, ← guard, rejected, if_neg Bool.false_ne_true]
  · rw [inserted, cellAt_insert_self, written, Register.step, ← guard, accepted, if_pos rfl]

/-- A statement leaves the rows of the other URIs alone. -/
theorem lookup_exec_of_ne (serde : SerdeJson) (records : Records) {op : StoreOperation}
    {uri : String} (other : op.uri ≠ uri) :
    (op.exec serde records).lookup uri = records.lookup uri := by
  rcases exec_cases serde records op with ⟨_, same⟩ | ⟨_, row, inserted, _⟩
  · rw [same]
  · rw [inserted, Finmap.lookup_insert_of_ne _ other.symm]

/-- An out-of-range timestamp leaves the table alone. -/
theorem exec_of_not_fits (serde : SerdeJson) (records : Records) {op : StoreOperation}
    (overflow : ¬ FitsI64 op.indexedAt) : op.exec serde records = records :=
  congrArg Prod.snd (statement_of_not_fits serde records overflow)

theorem cellAt_exec (serde : SerdeJson) (records : Records) (op : StoreOperation) (uri : String) :
    cellAt uri (op.exec serde records) =
      Register.run (cellAt uri records) (opsAt serde uri [op]) := by
  by_cases relevant : op.uri = uri ∧ FitsI64 op.indexedAt
  · rcases relevant with ⟨rfl, fits⟩
    rw [cellAt_exec_self serde records fits, opsAt_cons_self serde [] fits]
    rfl
  · rw [opsAt_cons_of_not [] relevant]
    change _ = cellAt uri records
    by_cases about : op.uri = uri
    · rw [exec_of_not_fits serde records fun fits => relevant ⟨about, fits⟩]
    · rw [cellAt, lookup_exec_of_ne serde records about, cellAt]

end StoreOperation

/-- A run of statements is, at each URI, a run of its register. -/
theorem cellAt_runOperations (serde : SerdeJson) (records : Records) (ops : List StoreOperation)
    (uri : String) :
    cellAt uri (runOperations serde records ops) =
      Register.run (cellAt uri records) (opsAt serde uri ops) := by
  induction ops generalizing records with
  | nil => rfl
  | cons op ops ih =>
      rw [runOperations_cons, ih, StoreOperation.cellAt_exec, ← Register.run_append, ← opsAt_append,
        List.singleton_append]

end Skybase.Index
