import Mathlib.Data.List.MinMax
import Skybase.Index.Calls
import Skybase.Json.Compact

/-!
# Convergence and its limits

The live view is meant to be decided, for each URI, by the newest operation on
it, in whatever order the operations arrive.  The statements keep to that as
long as no delete is newer than an upsert of the same URI.  A delete leaves a
mark only on a live row: one that arrives before the record, or finds it
deleted already, is forgotten, and an older upsert that arrives later becomes
visible.  The record that is returned is the one that was put in where the JSON
text of its payload reads back, which that of some doubles does not.
-/

namespace Skybase.Index

open Skybase.Json
open Skybase.Register (Cell Op)

/-! ## What the live view is meant to be -/

/-- The operation on a URI with the greatest timestamp. -/
def newestOn (uri : String) (ops : List StoreOperation) : Option StoreOperation :=
  (onUri uri ops).argmax StoreOperation.indexedAt

/-- The record that the newest operation on a URI decides. -/
def lastWritten (uri : String) (ops : List StoreOperation) : Option RecordRow :=
  match newestOn uri ops with
  | some (.upsert input) => some input.toRow
  | some (.delete _ _) => none
  | none => none

/-- Every run that executes the operations, in any order and grouping, ends
with the live view that the newest operations decide. -/
def Converges (serde : SerdeJson) (ops : List StoreOperation) : Prop :=
  ∀ calls : List WriteCall, (∀ call ∈ calls, call.FaultFree) →
    (operationsOf calls).Perm ops → ∀ uri,
      (runCalls serde RecordStore.empty calls).getRecord serde uri = .ok (lastWritten uri ops)

/-- Once a delete has been processed, no older upsert of its URI is visible at
any later point of a run. -/
def DeleteBarrier (serde : SerdeJson) (ops : List StoreOperation) : Prop :=
  ∀ first second : List WriteCall, (∀ call ∈ first ++ second, call.FaultFree) →
    (operationsOf (first ++ second)).Perm ops →
      ∀ uri indexedAt row, .delete uri indexedAt ∈ operationsOf first →
        (runCalls serde RecordStore.empty first).getRecord serde uri = .ok (some row) →
          indexedAt ≤ row.indexedAt

/-- On every URI that is upserted at all the newest operation is an upsert. -/
def NewestAreUpserts (ops : List StoreOperation) : Prop :=
  ∀ uri newest, newestOn uri ops = some newest →
    (∃ op ∈ onUri uri ops, op.isUpsert = true) → newest.isUpsert = true

/-- No delete is newer than an upsert of the same URI. -/
def NoDeleteAboveUpsert (ops : List StoreOperation) : Prop :=
  ∀ input indexedAt, .upsert input ∈ ops → .delete input.uri indexedAt ∈ ops →
    indexedAt ≤ input.indexedAt

/-- The payload of the newest operation on a URI reads back, where this is an
upsert. -/
def NewestReadBack (serde : SerdeJson) (ops : List StoreOperation) : Prop :=
  ∀ uri input, newestOn uri ops = some (.upsert input) → serde.ReadsBack input.recordJson

/-! ## What `get_record` reads -/

section Lookup

variable {serde : SerdeJson} {store : RecordStore} {input : RecordInput}
  (found : store.records.lookup input.uri = some (input.row serde))

include found

/-- A live row is returned with whatever its text is read as. -/
theorem getRecord_of_lookup {recordJson : Value}
    (reads : serde.fromStr (serde.text input.recordJson) = .ok recordJson) :
    store.getRecord serde input.uri = .ok (some { input.toRow with recordJson }) := by
  have parsed : serde.fromStr (input.row serde).recordJson = .ok recordJson := reads
  have converted : u64TryFrom (input.row serde).indexedAt = .ok input.indexedAt :=
    u64TryFrom_toInt input.indexedAt
  have active : store.records.selectActive input.uri = some (input.row serde) := by
    rw [Records.selectActive, found]
    rfl
  simp only [RecordStore.getRecord, active, RecordStore.mapRecordRow, parsed, converted]
  rfl

/-- A live row that is returned as it was put in has a payload that reads back. -/
theorem readsBack_of_getRecord
    (read : store.getRecord serde input.uri = .ok (some input.toRow)) :
    serde.ReadsBack input.recordJson := by
  cases parsed : serde.fromStr (serde.text input.recordJson) with
  | ok recordJson =>
      rw [getRecord_of_lookup found parsed] at read
      have same : recordJson = input.recordJson :=
        congrArg RecordRow.recordJson (Option.some.inj (Except.ok.inj read))
      rw [SerdeJson.ReadsBack, parsed, same]
  | error err =>
      have active : store.records.selectActive input.uri = some (input.row serde) := by
        rw [Records.selectActive, found]
        rfl
      have unread : serde.fromStr (input.row serde).recordJson = .error err := parsed
      simp only [RecordStore.getRecord, active, RecordStore.mapRecordRow, unread] at read
      cases read

end Lookup

theorem getRecord_of_selectActive_none {serde : SerdeJson} {store : RecordStore} {uri : String}
    (hidden : store.records.selectActive uri = none) : store.getRecord serde uri = .ok none := by
  rw [RecordStore.getRecord, hidden]

theorem getRecord_ne_none {serde : SerdeJson} {store : RecordStore} {uri : String} {row : Row}
    (active : store.records.selectActive uri = some row) :
    store.getRecord serde uri ≠ .ok none := by
  intro read
  simp only [RecordStore.getRecord, active] at read
  cases mapped : RecordStore.mapRecordRow serde uri row with
  | error err =>
      rw [mapped] at read
      cases read
  | ok record =>
      rw [mapped] at read
      cases read

/-- A returned record is a live row with that timestamp. -/
theorem selectActive_of_getRecord {serde : SerdeJson} {store : RecordStore} {uri : String}
    {record : RecordRow} (read : store.getRecord serde uri = .ok (some record)) :
    ∃ row, store.records.selectActive uri = some row ∧
      u64TryFrom row.indexedAt = .ok record.indexedAt := by
  rw [RecordStore.getRecord] at read
  cases active : store.records.selectActive uri with
  | none =>
      rw [active] at read
      cases read
  | some row =>
      rw [active] at read
      exists row, rfl
      unfold RecordStore.mapRecordRow at read
      cases parsed : serde.fromStr row.recordJson with
      | error err => simp [parsed, Except.map] at read
      | ok recordJson =>
          cases converted : u64TryFrom row.indexedAt with
          | error err => simp [parsed, converted, Except.map] at read
          | ok indexedAt =>
              simp only [parsed, converted, Except.map, Except.ok.injEq, Option.some.injEq] at read
              rw [← read]

/-! ## Runs over the empty store -/

section EmptyStore

variable (serde : SerdeJson) {calls : List WriteCall}

/-- A run without failures, from the empty store, is at each URI a run of the
empty register. -/
theorem cellAt_runCalls_empty (faultFree : ∀ call ∈ calls, call.FaultFree)
    (fits : ∀ op ∈ operationsOf calls, FitsI64 op.indexedAt) (uri : String) :
    cellAt uri (runCalls serde RecordStore.empty calls).records =
      Register.run none (opsAt serde uri (operationsOf calls)) := by
  rw [records_runCalls, performedBy_of_faultFree serde RecordStore.empty faultFree fits,
    cellAt_runOperations]
  rfl

variable {serde}

/-- A visible record was put in by an upsert of the run. -/
theorem upsert_mem_of_getRecord (faultFree : ∀ call ∈ calls, call.FaultFree)
    (fits : ∀ op ∈ operationsOf calls, FitsI64 op.indexedAt) {uri : String} {record : RecordRow}
    (read : (runCalls serde RecordStore.empty calls).getRecord serde uri = .ok (some record)) :
    ∃ input, .upsert input ∈ operationsOf calls ∧ input.uri = uri ∧
      input.indexedAt = record.indexedAt := by
  rcases selectActive_of_getRecord read with ⟨row, active, converted⟩
  rcases Option.filter_eq_some_iff.mp active with ⟨found, visible⟩
  have reached := cellAt_runCalls_empty serde faultFree fits uri
  rw [cellAt, found, Option.map_some] at reached
  have put := Register.put_mem_of_run_live reached.symm visible
  rcases mem_opsAt_iff.mp put with ⟨op, mem, about, _, same⟩
  cases op with
  | delete other indexedAt => cases same
  | upsert input =>
      have version_eq : input.indexedAt.toInt = row.indexedAt := congrArg Op.version same
      rw [← version_eq, u64TryFrom_toInt] at converted
      exact ⟨input, mem, about, Except.ok.inj converted⟩

end EmptyStore

theorem lastWritten_of_upsert {uri : String} {ops : List StoreOperation} {input : RecordInput}
    (newest : newestOn uri ops = some (.upsert input)) :
    lastWritten uri ops = some input.toRow := by
  rw [lastWritten, newest]

theorem lastWritten_of_not_upsert {uri : String} {ops : List StoreOperation}
    (newest : ∀ op, newestOn uri ops = some op → op.isUpsert = false) :
    lastWritten uri ops = none := by
  unfold lastWritten
  split
  · next input newest_eq => cases newest _ newest_eq
  · rfl
  · rfl

theorem newestOn_mem {uri : String} {ops : List StoreOperation} {newest : StoreOperation}
    (newest_eq : newestOn uri ops = some newest) : newest ∈ ops ∧ newest.uri = uri :=
  mem_onUri_iff.mp (List.argmax_mem newest_eq)

theorem indexedAt_le_newestOn {uri : String} {ops : List StoreOperation}
    {newest op : StoreOperation} (newest_eq : newestOn uri ops = some newest) (mem : op ∈ ops)
    (about : op.uri = uri) : op.indexedAt ≤ newest.indexedAt :=
  List.le_of_mem_argmax (mem_onUri_iff.mpr ⟨mem, about⟩) newest_eq

section Convergence

variable {serde : SerdeJson} {ops : List StoreOperation}
  (fits : ∀ op ∈ ops, FitsI64 op.indexedAt)
  (distinct : ops.Pairwise fun first second => first.indexedAt ≠ second.indexedAt)
  (reads : ∀ input, .upsert input ∈ ops →
    ∃ recordJson, serde.fromStr (serde.text input.recordJson) = .ok recordJson)

include fits distinct in
/-- The newest operation on a URI, if it is an upsert, decides the row in
every order of arrival. -/
theorem lookup_runCalls_of_newest {calls : List WriteCall}
    (faultFree : ∀ call ∈ calls, call.FaultFree) (perm : (operationsOf calls).Perm ops)
    {uri : String} {input : RecordInput} (newest : newestOn uri ops = some (.upsert input)) :
    (runCalls serde RecordStore.empty calls).records.lookup uri = some (input.row serde) := by
  have fitsCalls : ∀ op ∈ operationsOf calls, FitsI64 op.indexedAt := fun op mem =>
    fits op (perm.mem_iff.mp mem)
  have arrives : .upsert input ∈ onUri uri (operationsOf calls) := by
    obtain ⟨mem, about⟩ := newestOn_mem newest
    exact mem_onUri_iff.mpr ⟨perm.mem_iff.mpr mem, about⟩
  rcases List.append_of_mem arrives with ⟨before, after, split⟩
  have bound : ∀ op ∈ onUri uri (operationsOf calls), op.indexedAt ≤ input.indexedAt := by
    intro op mem
    rcases mem_onUri_iff.mp mem with ⟨arrived, about⟩
    exact indexedAt_le_newestOn newest (perm.mem_iff.mp arrived) about
  have distinctArrivals : (onUri uri (operationsOf calls)).Pairwise
      fun first second => first.indexedAt ≠ second.indexedAt :=
    ((perm.pairwise_iff fun different => Ne.symm different).mpr distinct).filter _
  rw [split] at bound distinctArrivals
  rw [records_runCalls, performedBy_of_faultFree serde _ faultFree fitsCalls]
  apply lookup_of_newest_upsert serde fitsCalls rfl split
  · intro op mem
    exact bound op (List.mem_append_left _ mem)
  · intro op mem
    have different :=
      (List.pairwise_cons.mp (List.pairwise_append.mp distinctArrivals).2.1).1 op mem
    exact lt_of_le_of_ne (bound op (by simp [mem])) different.symm

include fits distinct in
theorem converges_of_newestAreUpserts (newest : NewestAreUpserts ops)
    (readBack : NewestReadBack serde ops) : Converges serde ops := by
  intro calls faultFree perm uri
  have fitsCalls : ∀ op ∈ operationsOf calls, FitsI64 op.indexedAt := fun op mem =>
    fits op (perm.mem_iff.mp mem)
  by_cases upserted : ∃ op ∈ onUri uri ops, op.isUpsert = true
  · obtain ⟨winner, winner_eq⟩ : ∃ winner, newestOn uri ops = some winner := by
      rcases upserted with ⟨op, mem, _⟩
      cases found : newestOn uri ops with
      | none => simp [List.argmax_eq_none.mp found] at mem
      | some winner => exact ⟨winner, rfl⟩
    have wins := newest uri winner winner_eq upserted
    cases winner with
    | delete other indexedAt => cases wins
    | upsert input =>
        obtain ⟨_, rfl⟩ := newestOn_mem winner_eq
        rw [lastWritten_of_upsert winner_eq]
        exact getRecord_of_lookup
          (lookup_runCalls_of_newest fits distinct faultFree perm winner_eq)
          (readBack input.uri input winner_eq)
  · have onlyDeletes : ∀ op ∈ onUri uri ops, op.isUpsert = false := by
      intro op mem
      by_contra upsert
      exact upserted ⟨op, mem, by simpa using upsert⟩
    rw [lastWritten_of_not_upsert fun op newest_eq => onlyDeletes op (List.argmax_mem newest_eq)]
    apply getRecord_of_selectActive_none
    have empty := cellAt_runCalls_empty serde faultFree fitsCalls uri
    rw [Register.run_none_of_removes, cellAt, Option.map_eq_none_iff] at empty
    · rw [Records.selectActive, empty, Option.filter_none]
    · intro registerOp mem
      rcases mem_opsAt_iff.mp mem with ⟨op, opMem, about, _, rfl⟩
      rw [StoreOperation.isPut_registerOp]
      exact onlyDeletes op (mem_onUri_iff.mpr ⟨perm.mem_iff.mp opMem, about⟩)

/-! ## Unfavourable orders -/

/-- The call of one operation on its own. -/
def WriteCall.single : StoreOperation → WriteCall
  | .upsert input => .upsertRecord none input
  | .delete uri indexedAt => .softDeleteRecord none uri indexedAt

omit fits distinct reads in
theorem operationsOf_map_single (singles : List StoreOperation) :
    operationsOf (singles.map WriteCall.single) = singles := by
  induction singles with
  | nil => rfl
  | cons op singles ih =>
      rw [List.map_cons, operationsOf, List.flatMap_cons]
      change _ ++ operationsOf (singles.map WriteCall.single) = _
      rw [ih]
      cases op <;> rfl

omit fits distinct reads in
theorem faultFree_of_mem_map_single {singles : List StoreOperation} {call : WriteCall}
    (mem : call ∈ singles.map WriteCall.single) : call.FaultFree := by
  rcases List.mem_map.mp mem with ⟨op, _, rfl⟩
  cases op <;> rfl

/-- All deletes before all upserts. -/
def deletesFirst (ops : List StoreOperation) : List StoreOperation :=
  ops.filter (fun op => !op.isUpsert) ++ ops.filter StoreOperation.isUpsert

omit fits distinct reads in
theorem deletesFirst_perm : (deletesFirst ops).Perm ops := by
  have split := List.filter_append_perm (fun op : StoreOperation => !op.isUpsert) ops
  simp only [Bool.not_not] at split
  exact split

include fits in
variable (serde) in
/-- If the deletes arrive first, every upserted URI ends up visible. -/
theorem selectActive_deletesFirst {input : RecordInput} (mem : .upsert input ∈ ops) :
    ∃ row, (runCalls serde RecordStore.empty
      ((deletesFirst ops).map WriteCall.single)).records.selectActive input.uri = some row := by
  have fitsCalls : ∀ op ∈ operationsOf ((deletesFirst ops).map WriteCall.single),
      FitsI64 op.indexedAt := by
    rw [operationsOf_map_single]
    exact fun op opMem => fits op (deletesFirst_perm.mem_iff.mp opMem)
  have reached := cellAt_runCalls_empty serde (fun _ => faultFree_of_mem_map_single) fitsCalls
    input.uri
  rw [operationsOf_map_single, deletesFirst, opsAt_append, Register.run_append,
    Register.run_none_of_removes] at reached
  · have puts : ∀ op ∈ opsAt serde input.uri (ops.filter StoreOperation.isUpsert),
        op.isPut = true := by
      intro registerOp opMem
      rcases mem_opsAt_iff.mp opMem with ⟨op, filtered, _, _, rfl⟩
      rw [StoreOperation.isPut_registerOp]
      exact (List.mem_filter.mp filtered).2
    cases puts_eq : opsAt serde input.uri (ops.filter StoreOperation.isUpsert) with
    | nil =>
        have nonempty : (StoreOperation.upsert input).registerOp serde ∈
            opsAt serde input.uri (ops.filter StoreOperation.isUpsert) :=
          mem_opsAt_iff.mpr ⟨_, List.mem_filter.mpr ⟨mem, rfl⟩, rfl, fits _ mem, rfl⟩
        rw [puts_eq] at nonempty
        cases nonempty
    | cons first rest =>
        rw [puts_eq] at puts reached
        cases first with
        | remove version => cases puts _ List.mem_cons_self
        | put version payload =>
            rw [Register.run_cons, Register.step_none_put] at reached
            have startsLive : (⟨version, payload, true⟩ : Cell Int Content).live = true := rfl
            obtain ⟨final, final_eq, live⟩ := Register.run_live_of_puts startsLive
              fun op opMem => puts op (List.mem_cons_of_mem _ opMem)
            rw [final_eq] at reached
            obtain ⟨row, row_eq, rfl⟩ := Option.map_eq_some_iff.mp reached
            exact ⟨row, Option.filter_eq_some_iff.mpr ⟨row_eq, live⟩⟩
  · intro registerOp opMem
    rcases mem_opsAt_iff.mp opMem with ⟨op, filtered, _, _, rfl⟩
    rw [StoreOperation.isPut_registerOp]
    simpa using (List.mem_filter.mp filtered).2

include fits in
theorem newestAreUpserts_of_converges (converges : Converges serde ops) :
    NewestAreUpserts ops := by
  intro uri newest newest_eq ⟨op, mem, upsert⟩
  by_contra deleted
  rcases mem_onUri_iff.mp mem with ⟨opMem, rfl⟩
  cases op with
  | delete other indexedAt => cases upsert
  | upsert input =>
      rcases selectActive_deletesFirst serde fits opMem with ⟨row, active⟩
      have agreed := converges ((deletesFirst ops).map WriteCall.single)
        (fun _ => faultFree_of_mem_map_single)
        (by rw [operationsOf_map_single]; exact deletesFirst_perm) input.uri
      have hidden : lastWritten input.uri ops = none := by
        apply lastWritten_of_not_upsert
        intro other other_eq
        cases Option.some.inj (newest_eq.symm.trans other_eq)
        simpa using deleted
      rw [hidden] at agreed
      exact getRecord_ne_none active agreed

include fits distinct in
theorem newestReadBack_of_converges (converges : Converges serde ops) :
    NewestReadBack serde ops := by
  intro uri input newest_eq
  have faultFree : ∀ call ∈ ops.map WriteCall.single, call.FaultFree := fun _ =>
    faultFree_of_mem_map_single
  have perm : (operationsOf (ops.map WriteCall.single)).Perm ops := by
    rw [operationsOf_map_single]
  have found : (runCalls serde RecordStore.empty (ops.map WriteCall.single)).records.lookup uri =
      some (input.row serde) := lookup_runCalls_of_newest fits distinct faultFree perm newest_eq
  have agreed := converges (ops.map WriteCall.single) faultFree perm uri
  obtain ⟨_, rfl⟩ := newestOn_mem newest_eq
  rw [lastWritten_of_upsert newest_eq] at agreed
  exact readsBack_of_getRecord found agreed

/-! ## The barrier of a delete -/

include fits in
theorem deleteBarrier_of_noDeleteAboveUpsert (below : NoDeleteAboveUpsert ops) :
    DeleteBarrier serde ops := by
  intro first second faultFree perm uri indexedAt record deleted visible
  have arrived : ∀ op ∈ operationsOf first, op ∈ ops := by
    intro op mem
    apply perm.mem_iff.mp
    rw [operationsOf, List.flatMap_append]
    exact List.mem_append_left _ mem
  obtain ⟨input, mem, rfl, same⟩ := upsert_mem_of_getRecord
    (fun call callMem => faultFree call (List.mem_append_left _ callMem))
    (fun op opMem => fits op (arrived op opMem)) visible
  rw [← same]
  exact below input indexedAt (arrived _ mem) (arrived _ deleted)

include fits reads in
theorem noDeleteAboveUpsert_of_deleteBarrier (barrier : DeleteBarrier serde ops) :
    NoDeleteAboveUpsert ops := by
  intro input indexedAt upserted deleted
  -- the delete arrives first, directly followed by the upsert
  let early : List StoreOperation := [.delete input.uri indexedAt, .upsert input]
  obtain ⟨rest, perm⟩ : ∃ rest, (early ++ rest).Perm ops := by
    obtain ⟨before, after, rfl⟩ := List.append_of_mem deleted
    have other : .upsert input ∈ before ++ after := by
      rcases List.mem_append.mp upserted with mem | mem
      · exact List.mem_append_left _ mem
      · rcases List.mem_cons.mp mem with absurd | mem
        · cases absurd
        · exact List.mem_append_right _ mem
    rcases List.append_of_mem other with ⟨left, right, split⟩
    exists left ++ right
    have moved : (StoreOperation.upsert input :: (left ++ right)).Perm (before ++ after) := by
      rw [split]
      exact List.perm_middle.symm
    exact (moved.cons _).trans List.perm_middle.symm
  have inputFits : FitsI64 input.indexedAt := fits _ upserted
  have found : (runCalls serde RecordStore.empty
      (early.map WriteCall.single)).records.lookup input.uri = some (input.row serde) := by
    have earlyFits : ∀ op ∈ operationsOf (early.map WriteCall.single), FitsI64 op.indexedAt := by
      rw [operationsOf_map_single]
      exact fun op mem => fits op (perm.mem_iff.mp (List.mem_append_left _ mem))
    have reached := cellAt_runCalls_empty serde (fun _ => faultFree_of_mem_map_single) earlyFits
      input.uri
    have performed : opsAt serde input.uri early =
        [.remove indexedAt.toInt, .put input.indexedAt.toInt (input.content serde)] := by
      have deleteFits : FitsI64 indexedAt := fits _ deleted
      simp [opsAt, early, StoreOperation.uri, StoreOperation.indexedAt, deleteFits, inputFits,
        StoreOperation.registerOp]
    rw [operationsOf_map_single, performed] at reached
    rcases Option.map_eq_some_iff.mp reached with ⟨row, row_eq, cell_eq⟩
    rw [row_eq]
    exact congrArg some (Row.cell_injective cell_eq)
  obtain ⟨recordJson, parsed⟩ := reads input upserted
  have visible := getRecord_of_lookup found parsed
  apply barrier (early.map WriteCall.single) (rest.map WriteCall.single) _ _ input.uri indexedAt
    { input.toRow with recordJson } _ visible
  · intro call mem
    rw [← List.map_append] at mem
    exact faultFree_of_mem_map_single mem
  · rw [← List.map_append, operationsOf_map_single]
    exact perm
  · rw [operationsOf_map_single]
    exact List.mem_cons_self

include distinct in
omit fits reads in
theorem newestAreUpserts_of_noDeleteAboveUpsert (below : NoDeleteAboveUpsert ops) :
    NewestAreUpserts ops := by
  intro uri newest newest_eq ⟨op, mem, upsert⟩
  rcases newestOn_mem newest_eq with ⟨newestMem, about⟩
  obtain ⟨opMem, opAbout⟩ := mem_onUri_iff.mp mem
  cases newest with
  | upsert input => rfl
  | delete other indexedAt =>
      cases op with
      | delete another deletedAt => cases upsert
      | upsert input =>
          subst opAbout
          have sameUri : other = input.uri := about
          subst sameUri
          have bound : input.indexedAt ≤ indexedAt := indexedAt_le_newestOn newest_eq opMem rfl
          have tie : input.indexedAt = indexedAt :=
            le_antisymm bound (below input indexedAt opMem newestMem)
          have symmetric : Std.Symm fun first second : StoreOperation =>
              first.indexedAt ≠ second.indexedAt := ⟨fun _ _ different => different.symm⟩
          exact absurd tie (distinct.forall opMem newestMem (by simp))

end Convergence

/-- Order independence, exactly.  A list of operations converges, and its
deletes hold against every older upsert, if and only if no delete of the list
is newer than an upsert of the same URI and the payload of the newest upsert on
each URI reads back; the final views alone agree if and only if the newest
operation on every upserted URI is an upsert whose payload reads back. -/
theorem converges_and_deleteBarrier_iff {serde : SerdeJson} (limited : serde.Limited)
    (ops : List StoreOperation) (fits : ∀ op ∈ ops, FitsI64 op.indexedAt)
    (distinct : ops.Pairwise fun first second => first.indexedAt ≠ second.indexedAt)
    (shallow : ∀ input, .upsert input ∈ ops → input.recordJson.depth ≤ 127) :
    (Converges serde ops ∧ DeleteBarrier serde ops ↔
        NoDeleteAboveUpsert ops ∧ NewestReadBack serde ops) ∧
      (Converges serde ops ↔ NewestAreUpserts ops ∧ NewestReadBack serde ops) := by
  have reads : ∀ input, .upsert input ∈ ops →
      ∃ recordJson, serde.fromStr (serde.text input.recordJson) = .ok recordJson :=
    fun input upserted => limited.reads input.recordJson (shallow input upserted)
  constructor
  · constructor
    · rintro ⟨converges, barrier⟩
      exact ⟨noDeleteAboveUpsert_of_deleteBarrier fits reads barrier,
        newestReadBack_of_converges fits distinct converges⟩
    · rintro ⟨below, readBack⟩
      have newest := newestAreUpserts_of_noDeleteAboveUpsert distinct below
      exact ⟨converges_of_newestAreUpserts fits distinct newest readBack,
        deleteBarrier_of_noDeleteAboveUpsert fits below⟩
  · constructor
    · intro converges
      exact ⟨newestAreUpserts_of_converges fits converges,
        newestReadBack_of_converges fits distinct converges⟩
    · rintro ⟨newest, readBack⟩
      exact converges_of_newestAreUpserts fits distinct newest readBack

/-- A stale delete before the post, and a newer post. -/
theorem converges_and_deleteBarrier_alicePost :
    Converges Compact.codec [.delete (alicePost 0).uri 1, .upsert (alicePost 2)] ∧
      DeleteBarrier Compact.codec [.delete (alicePost 0).uri 1, .upsert (alicePost 2)] := by
  have upserted : ∀ input : RecordInput, StoreOperation.upsert input ∈
      [.delete (alicePost 0).uri 1, .upsert (alicePost 2)] → input = alicePost 2 := by
    intro input mem
    simpa using mem
  apply (converges_and_deleteBarrier_iff Compact.codec_limited
    [.delete (alicePost 0).uri 1, .upsert (alicePost 2)] (by decide) (by decide) ?_).1.mpr
  · constructor
    · intro input indexedAt mem deleted
      obtain rfl := upserted input mem
      have oldest : (alicePost 2).uri = (alicePost 0).uri ∧ indexedAt = 1 := by simpa using deleted
      rw [oldest.2]
      decide
    · intro uri input newest_eq
      obtain rfl := upserted input (newestOn_mem newest_eq).1
      exact Compact.codec_limited.readsBack _ trivial trivial (Nat.zero_le _)
  · intro input mem
    obtain rfl := upserted input mem
    exact Nat.zero_le _

/-- A post is created and deleted; a second, newer delete finds it deleted and
leaves no mark, so that a replayed commit from between the two deletes brings
the post back. -/
theorem not_converges_replayedCreate :
    let ops : List StoreOperation := [.upsert (alicePost 1), .delete (alicePost 0).uri 5,
      .delete (alicePost 0).uri 10, .upsert (alicePost 7)]
    (∀ op ∈ ops, FitsI64 op.indexedAt) ∧
      (ops.Pairwise fun first second => first.indexedAt ≠ second.indexedAt) ∧
      (∀ input, .upsert input ∈ ops → input.recordJson.depth ≤ 127) ∧
      NewestReadBack Compact.codec ops ∧
      (runCalls Compact.codec RecordStore.empty (ops.map WriteCall.single)).getRecord
        Compact.codec (alicePost 0).uri = .ok (some (alicePost 7).toRow) ∧
      lastWritten (alicePost 0).uri ops = none ∧
      ¬ Converges Compact.codec ops ∧ ¬ DeleteBarrier Compact.codec ops := by
  intro ops
  have visible : (runCalls Compact.codec RecordStore.empty (ops.map WriteCall.single)).getRecord
      Compact.codec (alicePost 0).uri = .ok (some (alicePost 7).toRow) := rfl
  have hidden : lastWritten (alicePost 0).uri ops = none := rfl
  have faultFree : ∀ call ∈ ops.map WriteCall.single, call.FaultFree := fun _ =>
    faultFree_of_mem_map_single
  have requested : operationsOf (ops.map WriteCall.single) = ops := operationsOf_map_single ops
  have null : ∀ input : RecordInput, .upsert input ∈ ops → input.recordJson = .null := by
    intro input upserted
    have posted : input = alicePost 1 ∨ input = alicePost 7 := by simpa [ops] using upserted
    rcases posted with rfl | rfl <;> rfl
  refine ⟨by decide, by decide, ?_, ?_, visible, hidden, ?_, ?_⟩
  · intro input upserted
    rw [null input upserted]
    exact Nat.zero_le _
  · intro uri input newest_eq
    rw [null input (newestOn_mem newest_eq).1]
    exact Compact.codec_limited.readsBack _ trivial trivial (Nat.zero_le _)
  · intro converges
    have agreed := converges (ops.map WriteCall.single) faultFree
      (by rw [requested]) (alicePost 0).uri
    rw [visible, hidden] at agreed
    cases agreed
  · intro barrier
    have newer := barrier (ops.map WriteCall.single) []
      (by rw [List.append_nil]; exact faultFree) (by rw [List.append_nil, requested])
      (alicePost 0).uri 10 _ (by rw [requested]; simp [ops]) visible
    exact absurd newer (by decide)

end Skybase.Index
