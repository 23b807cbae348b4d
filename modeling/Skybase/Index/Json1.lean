import Mathlib.Data.Prod.Lex
import Mathlib.Data.List.Sort
import Skybase.Binary64.Core
import Skybase.Index.Query

/-!
# Queries as SQLite executes them

What SQLite makes of a statement of the query builder: how it compares the
values of an expression, which rows a condition selects, and in which order the
rows come.  Its JSON1 functions are a parameter.  Rows whose sort keys are all
equal may come in any order, and in another one at the next execution.
-/

namespace Skybase.Index

open Skybase.Json

/-! ## Values -/

namespace SqlValue

/-- What the values of an expression are compared by, without affinity: NULL
comes first, then the numbers by their exact value, then the texts. -/
def key : SqlValue → ℕ ×ₗ ℤ ×ₗ String
  | null => toLex (0, toLex (0, ""))
  | integer value => toLex (1, toLex (value * Binary64.one, ""))
  | real bits => toLex (1, toLex (Binary64.units bits, ""))
  | text value => toLex (2, toLex (0, value))

/-- Whether a comparison selects a row; a comparison with NULL does not, but for
`IS NOT`. -/
def compares (operator : String) (left right : SqlValue) : Bool :=
  if operator = "IS NOT" then decide (left.key ≠ right.key)
  else if left = null ∨ right = null then false
  else if operator = "=" then decide (left.key = right.key)
  else if operator = ">" then decide (right.key < left.key)
  else if operator = ">=" then decide (right.key ≤ left.key)
  else if operator = "<" then decide (left.key < right.key)
  else if operator = "<=" then decide (left.key ≤ right.key)
  else false

/-- The numbers come before all texts. -/
theorem key_lt_text {number : SqlValue} {value : ℤ ×ₗ String}
    (isNumber : number.key = toLex (1, value)) (text : String) :
    number.key < (SqlValue.text text).key := by
  have before : 1 < 2 := by decide
  rw [isNumber]
  exact Prod.Lex.toLex_lt_toLex.mpr (.inl before)

theorem integer_key_lt_iff (first second : Int) :
    (integer first).key < (integer second).key ↔ first < second := by
  have positive : (0 : Int) < Binary64.one := Int.natCast_pos.mpr Binary64.one_pos
  simp only [key, Prod.Lex.toLex_lt_toLex, lt_irrefl, and_false, or_false, true_and, false_or]
  exact mul_lt_mul_iff_left₀ positive

theorem integer_key_inj {first second : Int} :
    (integer first).key = (integer second).key ↔ first = second := by
  constructor
  · intro same
    have notBelow := (integer_key_lt_iff first second).not.mp same.not_lt
    have notAbove := (integer_key_lt_iff second first).not.mp same.not_gt
    exact le_antisymm (not_lt.mp notAbove) (not_lt.mp notBelow)
  · rintro rfl
    rfl

theorem integer_key_lt_real {first : Int} {bits : U64}
    (below : first * Binary64.one < Binary64.units bits) :
    (integer first).key < (real bits).key := by
  simp only [key, Prod.Lex.toLex_lt_toLex, lt_irrefl, and_false, or_false, true_and, false_or]
  exact below

end SqlValue

/-! ## JSON1 -/

/-- The JSON1 functions of SQLite and its `LIKE`. -/
structure Json1 where
  /-- The integer that stands at a path of a JSON text, if one does. -/
  integerAt : String → String → Option Int
  /-- `json_extract`. -/
  extract : String → String → SqlValue
  /-- `value LIKE ('%' || literal || '%') ESCAPE '\'`. -/
  contains : SqlValue → SqlValue → Bool
  /-- `value LIKE pattern`. -/
  like : SqlValue → SqlValue → Bool

namespace Json1

/-- `json_extract` gives an integer that fits as INTEGER, and any other as the
REAL nearest to it. -/
structure ExtractsIntegers (json1 : Json1) : Prop where
  integer : ∀ text path value, json1.integerAt text path = some value →
    -2 ^ 63 ≤ value → value < 2 ^ 63 → json1.extract text path = .integer value
  real : ∀ text path value, json1.integerAt text path = some value →
    ¬ (-2 ^ 63 ≤ value ∧ value < 2 ^ 63) →
    ∃ bits : U64, json1.extract text path = .real bits ∧ Binary64.Nearest bits value

/-- Whether a test holds of the extracted value. -/
def passes (json1 : Json1) (extracted : SqlValue) : JsonTest → Bool
  | .isNull => extracted = .null
  | .isNotNull => extracted ≠ .null
  | .compare operator value => extracted.compares operator value
  | .contains value => json1.contains extracted value
  | .like value => json1.like extracted value

/-- Whether a row meets a condition. -/
def holds (json1 : Json1) (row : Row) : Condition → Bool
  | .collection value => row.collection == value
  | .active => !row.isDeleted
  | .did value => row.did == value
  | .json path test => json1.passes (json1.extract row.recordJson path) test

/-- Whether a statement selects a row. -/
def selects (json1 : Json1) (select : Select) (row : Row) : Bool :=
  select.conditions.all (json1.holds row)

end Json1

/-! ## Order -/

/-- A row with its primary key. -/
abbrev Entry := String × Row

/-- The value of a column. -/
def Entry.column (entry : Entry) (name : String) : SqlValue :=
  if name = "indexed_at" then .integer entry.2.indexedAt
  else if name = "uri" then .text entry.1
  else if name = "did" then .text entry.2.did
  else if name = "collection" then .text entry.2.collection
  else if name = "rkey" then .text entry.2.rkey
  else if name = "cid" then .text entry.2.cid
  else .null

/-- The direction of a term. -/
def OrderTerm.direction : OrderTerm → SortDirection
  | column _ direction => direction
  | jsonPath _ direction => direction

namespace Json1

/-- The value of a row that a term sorts by. -/
def sortValue (json1 : Json1) (entry : Entry) : OrderTerm → SqlValue
  | .column name _ => Entry.column entry name
  | .jsonPath path _ => json1.extract entry.2.recordJson path

/-- Whether the term puts the first row before the second one. -/
def before (json1 : Json1) (term : OrderTerm) (first second : Entry) : Bool :=
  match term.direction with
  | .asc => (json1.sortValue first term).key < (json1.sortValue second term).key
  | .desc => (json1.sortValue second term).key < (json1.sortValue first term).key

/-- The terms allow the first row to come before the second one. -/
def le (json1 : Json1) : List OrderTerm → Entry → Entry → Prop
  | [], _, _ => True
  | term :: terms, first, second =>
      json1.before term first second ∨
        (json1.sortValue first term).key = (json1.sortValue second term).key ∧
          json1.le terms first second

instance decidableLe (json1 : Json1) :
    ∀ terms first second, Decidable (json1.le terms first second)
  | [], _, _ => inferInstanceAs (Decidable True)
  | _ :: terms, first, second =>
      have := json1.decidableLe terms first second
      inferInstanceAs (Decidable (_ ∨ _ ∧ _))

theorem before_trichotomy (json1 : Json1) (term : OrderTerm) (first second : Entry) :
    json1.before term first second ∨
      (json1.sortValue first term).key = (json1.sortValue second term).key ∨
      json1.before term second first := by
  unfold before
  rcases lt_trichotomy (json1.sortValue first term).key (json1.sortValue second term).key with
    below | same | above
  · cases term.direction with
    | asc => exact .inl (decide_eq_true below)
    | desc => exact .inr (.inr (decide_eq_true below))
  · exact .inr (.inl same)
  · cases term.direction with
    | asc => exact .inr (.inr (decide_eq_true above))
    | desc => exact .inl (decide_eq_true above)

theorem before_trans {json1 : Json1} {term : OrderTerm} {first second third : Entry}
    (left : json1.before term first second) (right : json1.before term second third) :
    json1.before term first third := by
  unfold before at *
  cases direction : term.direction with
  | asc =>
      simp only [direction, decide_eq_true_iff] at left right ⊢
      exact left.trans right
  | desc =>
      simp only [direction, decide_eq_true_iff] at left right ⊢
      exact right.trans left

theorem before_congr {json1 : Json1} {term : OrderTerm} {first second : Entry}
    (same : (json1.sortValue first term).key = (json1.sortValue second term).key)
    (other : Entry) :
    json1.before term first other = json1.before term second other ∧
      json1.before term other first = json1.before term other second := by
  unfold before
  rw [same]
  exact ⟨rfl, rfl⟩

theorem le_total (json1 : Json1) (terms : List OrderTerm) (first second : Entry) :
    json1.le terms first second ∨ json1.le terms second first := by
  induction terms with
  | nil => exact .inl trivial
  | cons term terms ih =>
      rcases json1.before_trichotomy term first second with ahead | same | behind
      · exact .inl (.inl ahead)
      · exact ih.imp (fun le => .inr ⟨same, le⟩) (fun le => .inr ⟨same.symm, le⟩)
      · exact .inr (.inl behind)

theorem le_trans {json1 : Json1} {terms : List OrderTerm} {first second third : Entry}
    (left : json1.le terms first second) (right : json1.le terms second third) :
    json1.le terms first third := by
  induction terms with
  | nil => trivial
  | cons term terms ih =>
      rcases left with ahead | ⟨same, left⟩
      · rcases right with later | ⟨same', _⟩
        · exact .inl (before_trans ahead later)
        · exact .inl ((before_congr same' first).2 ▸ ahead)
      · rcases right with later | ⟨same', right⟩
        · exact .inl ((before_congr same third).1 ▸ later)
        · exact .inr ⟨same.trans same', ih left right⟩

end Json1

/-! ## Statements -/

/-- The part of the rows between the offset and the limit. -/
def Select.cut {α : Type} (select : Select) (rows : List α) : List α :=
  let shifted := rows.drop (select.offset.elim 0 Fin.val)
  match select.limit with
  | some limit => shifted.take limit.val
  | none => shifted

theorem Select.mem_of_mem_cut {α : Type} {select : Select} {rows : List α} {row : α}
    (mem : row ∈ select.cut rows) : row ∈ rows := by
  unfold cut at mem
  cases limit : select.limit with
  | none =>
      rw [limit] at mem
      exact List.mem_of_mem_drop mem
  | some bound =>
      rw [limit] at mem
      exact List.mem_of_mem_drop (List.mem_of_mem_take mem)

/-- The statement without its limit and offset. -/
def Select.uncut (select : Select) : Select := { select with limit := none, offset := none }

namespace Json1

/-- The selected rows, each once, in an order that the terms allow. -/
structure IsArranged (json1 : Json1) (select : Select) (records : Records) (entries : List Entry) :
    Prop where
  nodup : entries.Nodup
  mem_iff : ∀ uri row, (uri, row) ∈ entries ↔
    records.lookup uri = some row ∧ json1.selects select row = true
  sorted : entries.Pairwise (json1.le select.orderBy)

/-- What SQLite does with the statements of queries.  An execution that does not
fail delivers the selected rows, in one of the orders that the terms allow, from
the offset up to the limit.  A limit or an offset does not make an execution
fail that would not have failed without it. -/
structure Executes (json1 : Json1) (sqlite : Sqlite) : Prop where
  delivers : ∀ select records, (sqlite select records).2 = none →
    ∃ entries, json1.IsArranged select records entries ∧
      (sqlite select records).1 = select.cut entries
  cut_succeeds : ∀ select records, (sqlite select.uncut records).2 = none →
    (sqlite select records).2 = none

/-- The execution that arranges the selected rows in a given way. -/
def execution (arrange : Select → Records → List Entry) : Sqlite := fun select records =>
  (select.cut (arrange select records), none)

theorem executes_execution {json1 : Json1} {arrange : Select → Records → List Entry}
    (arranged : ∀ select records, json1.IsArranged select records (arrange select records)) :
    json1.Executes (execution arrange) where
  delivers select records _ := ⟨arrange select records, arranged select records, rfl⟩
  cut_succeeds _ _ _ := rfl

/-- The selected rows in the order of their keys. -/
def selected (json1 : Json1) (select : Select) (records : Records) : List Entry :=
  (primaryKeys records).filterMap fun uri =>
    ((records.lookup uri).filter (json1.selects select)).map fun row => (uri, row)

/-- The selected rows, sorted by the terms. -/
def arrange (json1 : Json1) (select : Select) (records : Records) : List Entry :=
  (json1.selected select records).insertionSort (json1.le select.orderBy)

theorem mem_selected_iff {json1 : Json1} {select : Select} {records : Records} {uri : String}
    {row : Row} :
    (uri, row) ∈ json1.selected select records ↔
      records.lookup uri = some row ∧ json1.selects select row = true := by
  rw [selected, List.mem_filterMap]
  constructor
  · rintro ⟨key, _, delivered⟩
    rcases Option.map_eq_some_iff.mp delivered with ⟨found, filtered, same⟩
    obtain ⟨rfl, rfl⟩ := Prod.mk.inj same
    exact Option.filter_eq_some_iff.mp filtered
  · rintro ⟨lookup_eq, chosen⟩
    refine ⟨uri, mem_primaryKeys lookup_eq, ?_⟩
    rw [lookup_eq, Option.filter_some, if_pos chosen, Option.map_some]

theorem nodup_selected (json1 : Json1) (select : Select) (records : Records) :
    (json1.selected select records).Nodup := by
  refine List.Nodup.filterMap ?_ (Finset.sort_nodup _ _)
  intro first second entry firstMem secondMem
  rw [Option.mem_def, Option.map_eq_some_iff] at firstMem secondMem
  rcases firstMem with ⟨_, _, rfl⟩
  rcases secondMem with ⟨_, _, same⟩
  exact (Prod.mk.inj same).1.symm

theorem isArranged_arrange (json1 : Json1) (select : Select) (records : Records) :
    json1.IsArranged select records (json1.arrange select records) where
  nodup := by
    have perm := List.perm_insertionSort (json1.le select.orderBy) (json1.selected select records)
    exact perm.nodup_iff.mpr (json1.nodup_selected select records)
  mem_iff uri row := by
    rw [arrange, List.mem_insertionSort]
    exact mem_selected_iff
  sorted := by
    have : Std.Total (json1.le select.orderBy) := ⟨json1.le_total select.orderBy⟩
    have : IsTrans Entry (json1.le select.orderBy) := ⟨fun _ _ _ => json1.le_trans⟩
    exact List.pairwise_insertionSort _ _

end Json1

/-! ## Results -/

/-- The record of a delivered row. -/
def readEntry (serde : SerdeJson) (entry : Entry) : Except SkybaseError RecordRow :=
  RecordStore.mapRecordRow serde entry.1 entry.2

/-- A query returns the records of the delivered rows if the delivery does not
end in an error. -/
theorem RecordStore.queryRaw_eq_ok_iff {serde : SerdeJson} {sqlite : Sqlite} {select : Select}
    {store : RecordStore} {rows : List RecordRow} :
    store.queryRaw serde sqlite select = .ok rows ↔
      (sqlite select store.records).2 = none ∧
        (sqlite select store.records).1.mapM (readEntry serde) = .ok rows := by
  unfold queryRaw
  rw [Except.bind_eq_ok_iff]
  constructor
  · rintro ⟨results, mapped, done⟩
    cases failure : (sqlite select store.records).2 with
    | some err =>
        rw [failure] at done
        cases done
    | none =>
        rw [failure] at done
        cases done
        exact ⟨rfl, mapped⟩
  · rintro ⟨succeeded, mapped⟩
    refine ⟨rows, mapped, ?_⟩
    rw [succeeded]
    rfl

theorem QueryBuilder.execute_eq_ok_iff {serde : SerdeJson} {sqlite : Sqlite}
    {builder : QueryBuilder} {store : RecordStore} {rows : List RecordRow} :
    builder.execute serde sqlite store = .ok rows ↔
      ∃ select, builder.select serde = .ok select ∧ (sqlite select store.records).2 = none ∧
        (sqlite select store.records).1.mapM (readEntry serde) = .ok rows := by
  rw [execute, Except.bind_eq_ok_iff]
  exact exists_congr fun select => and_congr_right fun _ => RecordStore.queryRaw_eq_ok_iff

/-- Which records the rows of a list are read into. -/
theorem mem_uri_iff_of_mapM {serde : SerdeJson} {entries : List Entry} {rows : List RecordRow}
    (mapped : entries.mapM (readEntry serde) = .ok rows) (uri : String) :
    (∃ result ∈ rows, result.uri = uri) ↔ ∃ row, (uri, row) ∈ entries := by
  constructor
  · rintro ⟨result, mem, rfl⟩
    rcases Except.exists_of_mapM_ok mapped result mem with ⟨⟨key, row⟩, entryMem, read⟩
    exact ⟨row, (uri_of_mapRecordRow read).symm ▸ entryMem⟩
  · rintro ⟨row, mem⟩
    rcases Except.ok_of_mapM_ok mapped (uri, row) mem with ⟨result, resultMem, read⟩
    exact ⟨result, resultMem, uri_of_mapRecordRow read⟩

/-- A query that is not cut returns the records of the rows that its statement
selects. -/
theorem QueryBuilder.execute_mem_iff {serde : SerdeJson} {json1 : Json1} {sqlite : Sqlite}
    (executes : json1.Executes sqlite) {builder : QueryBuilder} {select : Select}
    (compiled : builder.select serde = .ok select) (uncut : select.uncut = select)
    {store : RecordStore} {rows : List RecordRow}
    (executed : builder.execute serde sqlite store = .ok rows) (uri : String) :
    (∃ result ∈ rows, result.uri = uri) ↔
      ∃ row, store.records.lookup uri = some row ∧ json1.selects select row = true := by
  rcases QueryBuilder.execute_eq_ok_iff.mp executed with ⟨other, otherEq, succeeded, mapped⟩
  obtain rfl : other = select := Except.ok.inj (otherEq.symm.trans compiled)
  rcases executes.delivers other store.records succeeded with ⟨entries, arranged, delivered⟩
  have whole : other.cut entries = entries := by
    rw [← uncut]
    rfl
  rw [mem_uri_iff_of_mapM mapped, delivered, whole]
  exact exists_congr fun row => arranged.mem_iff uri row

end Skybase.Index
