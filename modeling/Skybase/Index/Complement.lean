import Mathlib.Logic.Basic
import Mathlib.Data.List.Perm.Basic
import Skybase.Index.BuildSql
import Skybase.Index.Comparison

/-!
# Equality and inequality

A condition that a JSON field equals a value, and one that it does not, part the
rows of a query: `IS NOT` selects the rows whose field is missing or NULL, and
with NULL for the value both conditions are tests for NULL.
-/

namespace Skybase.Index

open Skybase.Json

/-! ## The tests -/

theorem jsonToSqliteValue_ne_null (serde : SerdeJson) {value : Value} (notNull : value ≠ .null) :
    jsonToSqliteValue serde value ≠ .null := by
  cases value with
  | null => exact absurd rfl notNull
  | bool b => exact SqlValue.noConfusion
  | number number =>
      cases number with
      | posInt magnitude =>
          rw [jsonToSqliteValue]
          split <;> exact SqlValue.noConfusion
      | negInt magnitude => exact SqlValue.noConfusion
      | float bits => exact SqlValue.noConfusion
  | string s => exact SqlValue.noConfusion
  | array elements => exact SqlValue.noConfusion
  | object members => exact SqlValue.noConfusion

theorem SqlValue.key_ne_null {value : SqlValue} (notNull : value ≠ .null) :
    SqlValue.key .null ≠ value.key := by
  cases value with
  | null => exact absurd rfl notNull
  | integer number => simp [key]
  | real bits => simp [key]
  | text text => simp [key]

/-- With a value that is not NULL, `IS NOT` selects what `=` does not. -/
theorem SqlValue.compares_isNot (left : SqlValue) {right : SqlValue} (notNull : right ≠ .null) :
    left.compares "IS NOT" right = !left.compares "=" right := by
  have differs : "=" ≠ "IS NOT" := by decide
  rw [compares, if_pos rfl, compares, if_neg differs]
  by_cases isNull : left = .null
  · rw [if_pos (.inl isNull), isNull]
    exact decide_eq_true (key_ne_null notNull)
  · rw [if_neg (by rintro (left | right) <;> contradiction), if_pos rfl, decide_not]

/-- The test for inequality is the negation of the test for equality. -/
theorem Json1.passes_ne (json1 : Json1) (serde : SerdeJson) (extracted : SqlValue)
    (fieldPath : String) (value : Value) :
    json1.passes extracted (WhereJsonClause.test serde ⟨fieldPath, .ne, value⟩) =
      !json1.passes extracted (WhereJsonClause.test serde ⟨fieldPath, .eq, value⟩) := by
  by_cases isNull : value = .null
  · rw [isNull]
    exact decide_not
  · have bound := jsonToSqliteValue_ne_null serde isNull
    have unequal : WhereJsonClause.test serde ⟨fieldPath, .ne, value⟩ =
        .compare "IS NOT" (jsonToSqliteValue serde value) := by
      cases value <;> first | rfl | exact absurd rfl isNull
    have equal : WhereJsonClause.test serde ⟨fieldPath, .eq, value⟩ =
        .compare "=" (jsonToSqliteValue serde value) := by
      cases value <;> first | rfl | exact absurd rfl isNull
    rw [unequal, equal]
    exact SqlValue.compares_isNot extracted bound

/-! ## The statements -/

/-- A further `where_json` adds its condition to the statement. -/
theorem QueryBuilder.select_whereJson {serde : SerdeJson} {builder : QueryBuilder}
    {fieldPath : String} {op : QueryOp} {value : Value} {result : Select}
    (compiled : (builder.whereJson fieldPath op value).select serde = .ok result) :
    ∃ select path, builder.select serde = .ok select ∧ normalizeJsonPath fieldPath = .ok path ∧
      result = { select with
        conditions := select.conditions ++
          [.json path (WhereJsonClause.test serde ⟨fieldPath, op, value⟩)] } := by
  rcases QueryBuilder.select_eq_ok_iff.mp compiled with
    ⟨notBlank, conditions, terms, conditionsEq, termsEq, rfl⟩
  rcases Except.exists_of_mapM_append_ok conditionsEq with ⟨front, back, frontEq, backEq, rfl⟩
  rcases Except.mapM_cons_eq_ok_iff.mp backEq with ⟨condition, others, condition_eq, none, rfl⟩
  cases none
  rw [WhereJsonClause.condition] at condition_eq
  cases normal : normalizeJsonPath fieldPath with
  | error err =>
      rw [normal] at condition_eq
      cases condition_eq
  | ok path =>
      rw [normal] at condition_eq
      cases condition_eq
      refine ⟨builder.selectWith front terms, path,
        QueryBuilder.select_eq_ok_iff.mpr ⟨notBlank, front, terms, frontEq, termsEq, rfl⟩, rfl, ?_⟩
      simp only [QueryBuilder.selectWith, List.append_assoc]
      rfl

theorem Json1.selects_append (json1 : Json1) (select : Select) (condition : Condition) (row : Row) :
    json1.selects { select with conditions := select.conditions ++ [condition] } row =
      (json1.selects select row && json1.holds row condition) := by
  simp only [selects, List.all_append, List.all_cons, List.all_nil, Bool.and_true]

/-- What an execution that is not cut returns: the records of the rows that the statement
selects, each once and in some order. -/
theorem QueryBuilder.exists_entries {serde : SerdeJson} {json1 : Json1} {sqlite : Sqlite}
    (executes : json1.Executes sqlite) (builder : QueryBuilder) (unlimited : builder.limit = none)
    (unshifted : builder.offset = none) {select : Select}
    (compiled : builder.select serde = .ok select) {store : RecordStore} {rows : List RecordRow}
    (executed : builder.execute serde sqlite store = .ok rows) :
    ∃ entries, json1.IsArranged select store.records entries ∧
      entries.mapM (readEntry serde) = .ok rows := by
  rcases QueryBuilder.execute_eq_ok_iff.mp executed with ⟨other, otherEq, succeeded, mapped⟩
  obtain rfl : other = select := Except.ok.inj (otherEq.symm.trans compiled)
  rcases executes.delivers other store.records succeeded with ⟨entries, arranged, delivered⟩
  rcases QueryBuilder.select_eq_ok_iff.mp compiled with ⟨_, conditions, terms, _, _, rfl⟩
  have whole : (builder.selectWith conditions terms).cut entries = entries := by
    simp only [Select.cut, QueryBuilder.selectWith, unlimited, unshifted]
    rfl
  rw [delivered, whole] at mapped
  exact ⟨entries, arranged, mapped⟩

/-- The rows that a condition parts are the ones that it selects and the ones that it does
not. -/
theorem Json1.perm_of_complement {json1 : Json1} {select : Select} {positive negative : Condition}
    (complement : ∀ row, json1.holds row negative = !json1.holds row positive) {records : Records}
    {entries selected rejected : List Entry} (arranged : json1.IsArranged select records entries)
    (arrangedPositive : json1.IsArranged
      { select with conditions := select.conditions ++ [positive] } records selected)
    (arrangedNegative : json1.IsArranged
      { select with conditions := select.conditions ++ [negative] } records rejected) :
    entries.Perm (selected ++ rejected) := by
  refine (List.perm_ext_iff_of_nodup arranged.nodup ?_).mpr ?_
  · refine arrangedPositive.nodup.append arrangedNegative.nodup ?_
    rintro ⟨uri, row⟩ inSelected inRejected
    have accepts := ((arrangedPositive.mem_iff uri row).mp inSelected).2
    have rejects := ((arrangedNegative.mem_iff uri row).mp inRejected).2
    rw [json1.selects_append, Bool.and_eq_true] at accepts rejects
    rw [complement, accepts.2] at rejects
    exact Bool.false_ne_true rejects.2
  · rintro ⟨uri, row⟩
    rw [List.mem_append, arranged.mem_iff, arrangedPositive.mem_iff, arrangedNegative.mem_iff,
      json1.selects_append, json1.selects_append, complement]
    cases json1.holds row positive <;> simp

/-- The records of a query are those of the query with an equality and those of the query with
the inequality, and none is in both. -/
theorem whereJson_eq_ne_partition {json1 : Json1} {sqlite : Sqlite}
    (executes : json1.Executes sqlite) (serde : SerdeJson) {builder : QueryBuilder}
    (unlimited : builder.limit = none) (unshifted : builder.offset = none) {fieldPath : String}
    {value : Value} {store : RecordStore} {equal unequal : List RecordRow}
    (executedEq : (builder.whereJson fieldPath .eq value).execute serde sqlite store = .ok equal)
    (executedNe :
      (builder.whereJson fieldPath .ne value).execute serde sqlite store = .ok unequal) :
    ∃ select, builder.select serde = .ok select ∧
      (∀ uri row, store.records.lookup uri = some row → json1.selects select row = true →
        Xor (∃ result ∈ equal, result.uri = uri) (∃ result ∈ unequal, result.uri = uri)) ∧
      ∀ rows, builder.execute serde sqlite store = .ok rows → rows.Perm (equal ++ unequal) := by
  rcases QueryBuilder.execute_eq_ok_iff.mp executedEq with ⟨selectEq, compiledEq, -⟩
  rcases QueryBuilder.execute_eq_ok_iff.mp executedNe with ⟨selectNe, compiledNe, -⟩
  rcases QueryBuilder.exists_entries executes (builder.whereJson fieldPath .eq value) unlimited
    unshifted compiledEq executedEq with ⟨selected, arrangedEq, mappedEq⟩
  rcases QueryBuilder.exists_entries executes (builder.whereJson fieldPath .ne value) unlimited
    unshifted compiledNe executedNe with ⟨rejected, arrangedNe, mappedNe⟩
  rcases QueryBuilder.select_whereJson compiledEq with ⟨select, path, compiled, accepted, rfl⟩
  rcases QueryBuilder.select_whereJson compiledNe with ⟨other, path', compiled', accepted', rfl⟩
  obtain rfl : select = other := Except.ok.inj (compiled.symm.trans compiled')
  obtain rfl : path = path' := Except.ok.inj (accepted.symm.trans accepted')
  have complement : ∀ row,
      json1.holds row (.json path (WhereJsonClause.test serde ⟨fieldPath, .ne, value⟩)) =
        !json1.holds row (.json path (WhereJsonClause.test serde ⟨fieldPath, .eq, value⟩)) :=
    fun row => json1.passes_ne serde _ fieldPath value
  refine ⟨select, compiled, ?_, ?_⟩
  · intro uri row found chosen
    have inEqual : (∃ result ∈ equal, result.uri = uri) ↔
        json1.holds row (.json path (WhereJsonClause.test serde ⟨fieldPath, .eq, value⟩)) =
          true := by
      simp [mem_uri_iff_of_mapM mappedEq, arrangedEq.mem_iff, found, json1.selects_append, chosen]
    have inUnequal : (∃ result ∈ unequal, result.uri = uri) ↔
        ¬ json1.holds row (.json path (WhereJsonClause.test serde ⟨fieldPath, .eq, value⟩)) =
          true := by
      simp [mem_uri_iff_of_mapM mappedNe, arrangedNe.mem_iff, found, json1.selects_append, chosen,
        complement]
    rw [inEqual, inUnequal]
    exact xor_not_right.mpr Iff.rfl
  · intro rows executed
    rcases QueryBuilder.exists_entries executes builder unlimited unshifted compiled executed with
      ⟨entries, arranged, mapped⟩
    have perm := Json1.perm_of_complement complement arranged arrangedEq arrangedNe
    rcases Except.mapM_ok_perm perm mapped with ⟨permuted, permutedEq, permutes⟩
    have appended := Except.mapM_append_ok mappedEq mappedNe
    obtain rfl : permuted = equal ++ unequal := Except.ok.inj (permutedEq.symm.trans appended)
    exact permutes

theorem whereJson_eq_ne_partition_count :
    ∃ equal unequal,
      (countQuery .eq 3).execute Compact.codec (Json1.execution Json1.compact.arrange) countStore =
        .ok equal ∧
      (countQuery .ne 3).execute Compact.codec (Json1.execution Json1.compact.arrange) countStore =
        .ok unequal ∧
      ∃ select, (QueryBuilder.new "app.example.count").select Compact.codec = .ok select ∧
        (∀ uri row, countStore.records.lookup uri = some row →
          Json1.compact.selects select row = true →
          Xor (∃ result ∈ equal, result.uri = uri) (∃ result ∈ unequal, result.uri = uri)) ∧
        ∀ rows, (QueryBuilder.new "app.example.count").execute Compact.codec
          (Json1.execution Json1.compact.arrange) countStore = .ok rows →
          rows.Perm (equal ++ unequal) := by
  have compiledEq : (countQuery .eq 3).select Compact.codec =
      .ok (countSelect "=" (.integer 3)) := by decide
  have compiledNe : (countQuery .ne 3).select Compact.codec =
      .ok (countSelect "IS NOT" (.integer 3)) := by decide
  rcases execute_countQuery compiledEq with ⟨equal, executedEq⟩
  rcases execute_countQuery compiledNe with ⟨unequal, executedNe⟩
  exact ⟨equal, unequal, executedEq, executedNe, whereJson_eq_ne_partition
    (Json1.executes_execution (Json1.isArranged_arrange Json1.compact)) Compact.codec rfl rfl
    executedEq executedNe⟩

end Skybase.Index
