import Mathlib.Data.ZMod.Defs
import Skybase.Index.BuildSql
import Skybase.Index.Json1
import Skybase.Json.Compact

/-!
# Comparing integers in JSON fields

A `where_json` clause with an integer binds it as INTEGER if it fits and as TEXT
otherwise.  SQLite orders every number before every text, so a comparison with
an integer from `2 ^ 63` on does not depend on the stored number.
-/

namespace Skybase.Index

open Skybase.Json

/-! ## Operators -/

/-- What the comparison operators mean in an ordered type. -/
def QueryOp.Relates {α : Type} [LT α] [LE α] : QueryOp → α → α → Prop
  | .eq, first, second => first = second
  | .ne, first, second => first ≠ second
  | .gt, first, second => first > second
  | .gte, first, second => first ≥ second
  | .lt, first, second => first < second
  | .lte, first, second => first ≤ second
  | .contains, _, _ => False
  | .like, _, _ => False

/-- The operators that compare, as opposed to those that match texts. -/
def QueryOp.IsComparison (op : QueryOp) : Prop := op ≠ .contains ∧ op ≠ .like

/-- The SQL operator of a comparison. -/
def QueryOp.sqlOperator : QueryOp → String
  | .eq => "="
  | .ne => "IS NOT"
  | .gt => ">"
  | .gte => ">="
  | .lt => "<"
  | .lte => "<="
  | .contains => "LIKE"
  | .like => "LIKE"

/-- A comparison depends on nothing but the order of its arguments. -/
theorem QueryOp.relates_congr {α β : Type} [LinearOrder α] [LinearOrder β] (op : QueryOp)
    {first second : α} {first' second' : β} (below : first < second ↔ first' < second')
    (equal : first = second ↔ first' = second') :
    op.Relates first second ↔ op.Relates first' second' := by
  cases op with
  | eq => exact equal
  | ne => exact equal.not
  | gt =>
      change second < first ↔ second' < first'
      rw [← not_le, ← not_le, le_iff_lt_or_eq, le_iff_lt_or_eq, below, equal]
  | gte =>
      change second ≤ first ↔ second' ≤ first'
      rw [← not_lt, ← not_lt, below]
  | lt => exact below
  | lte =>
      change first ≤ second ↔ first' ≤ second'
      rw [le_iff_lt_or_eq, le_iff_lt_or_eq, below, equal]
  | contains => exact Iff.rfl
  | like => exact Iff.rfl

theorem SqlValue.compares_iff {op : QueryOp} (comparison : op.IsComparison) {left right : SqlValue}
    (leftNotNull : left ≠ .null) (rightNotNull : right ≠ .null) :
    left.compares op.sqlOperator right = true ↔ op.Relates left.key right.key := by
  have notNull : ¬ (left = .null ∨ right = .null) := not_or.mpr ⟨leftNotNull, rightNotNull⟩
  cases op with
  | contains => exact absurd rfl comparison.1
  | like => exact absurd rfl comparison.2
  | _ => simp [compares, notNull, QueryOp.sqlOperator, QueryOp.Relates]

/-- The test of a comparison with a number. -/
theorem WhereJsonClause.test_number (serde : SerdeJson) (fieldPath : String) {op : QueryOp}
    (comparison : op.IsComparison) (number : Number) :
    WhereJsonClause.test serde ⟨fieldPath, op, .number number⟩ =
      .compare op.sqlOperator (jsonToSqliteValue serde (.number number)) := by
  cases op with
  | contains => exact absurd rfl comparison.1
  | like => exact absurd rfl comparison.2
  | _ => rfl

/-! ## Integers -/

/-- The integer that a JSON number is, if it is one. -/
def intValue : Number → Option Int
  | .posInt value => some value.toInt
  | .negInt magnitude => some (-(magnitude.val + 1))
  | .float _ => none

theorem jsonToSqliteValue_of_lt {serde : SerdeJson} {number : Number} {value : Int}
    (isInteger : intValue number = some value) (small : value < 2 ^ 63) :
    jsonToSqliteValue serde (.number number) = .integer value := by
  cases number with
  | posInt stored =>
      obtain rfl := Option.some.inj isInteger
      have fits : FitsI64 stored := Int.le_sub_one_of_lt small
      rw [jsonToSqliteValue, i64TryFrom_of_fits fits]
  | negInt magnitude =>
      obtain rfl := Option.some.inj isInteger
      rfl
  | float bits => cases isInteger

theorem jsonToSqliteValue_of_ge {serde : SerdeJson} {number : Number} {value : Int}
    (isInteger : intValue number = some value) (large : 2 ^ 63 ≤ value) :
    ∃ text, jsonToSqliteValue serde (.number number) = .text text := by
  cases number with
  | posInt stored =>
      obtain rfl := Option.some.inj isInteger
      have overflow : ¬ FitsI64 stored := by
        unfold FitsI64 i64Max
        omega
      exact ⟨stored.text, by rw [jsonToSqliteValue, i64TryFrom_of_not_fits overflow]⟩
  | negInt magnitude =>
      obtain rfl := Option.some.inj isInteger
      omega
  | float bits => cases isInteger

namespace Json1

variable {json1 : Json1} {text path : String} {stored : Int}

/-- A stored integer is extracted exactly, or lies beyond `i64`, as does the
double in its place. -/
theorem ExtractsIntegers.integer_or_real (extracts : json1.ExtractsIntegers)
    (found : json1.integerAt text path = some stored) (lower : -2 ^ 63 ≤ stored) :
    json1.extract text path = .integer stored ∨
      2 ^ 63 ≤ stored ∧ ∃ bits : U64, json1.extract text path = .real bits ∧
        2 ^ 63 * Binary64.one ≤ Binary64.units bits := by
  by_cases fits : stored < 2 ^ 63
  · exact .inl (extracts.integer text path stored found lower fits)
  · rcases extracts.real text path stored found (fun both => fits both.2) with
      ⟨bits, extracted, nearest⟩
    have large := not_lt.mp fits
    exact .inr ⟨large, bits, extracted, nearest.two_pow_le_units large⟩

/-- The extracted value compares with small integers as the stored integer does,
whichever storage class it has. -/
theorem ExtractsIntegers.compare_integer (extracts : json1.ExtractsIntegers)
    (found : json1.integerAt text path = some stored) (lower : -2 ^ 63 ≤ stored) {bound : Int}
    (small : bound < 2 ^ 63) :
    ((json1.extract text path).key < (SqlValue.integer bound).key ↔ stored < bound) ∧
      ((json1.extract text path).key = (SqlValue.integer bound).key ↔ stored = bound) := by
  rcases extracts.integer_or_real found lower with extracted | ⟨large, bits, extracted, above⟩
  · rw [extracted]
    exact ⟨SqlValue.integer_key_lt_iff stored bound, SqlValue.integer_key_inj⟩
  · have positive : (0 : Int) < Binary64.one := Int.natCast_pos.mpr Binary64.one_pos
    have keyAbove : (SqlValue.integer bound).key < (SqlValue.real bits).key :=
      SqlValue.integer_key_lt_real ((mul_lt_mul_of_pos_right small positive).trans_le above)
    rw [extracted]
    exact ⟨iff_of_false keyAbove.not_gt (by omega), iff_of_false keyAbove.ne' (by omega)⟩

theorem ExtractsIntegers.key_lt_text (extracts : json1.ExtractsIntegers)
    (found : json1.integerAt text path = some stored) (lower : -2 ^ 63 ≤ stored) (bound : String) :
    (json1.extract text path).key < (SqlValue.text bound).key := by
  rcases extracts.integer_or_real found lower with extracted | ⟨_, bits, extracted, _⟩
  · rw [extracted]
    exact SqlValue.key_lt_text rfl bound
  · rw [extracted]
    exact SqlValue.key_lt_text rfl bound

theorem ExtractsIntegers.ne_null (extracts : json1.ExtractsIntegers)
    (found : json1.integerAt text path = some stored) (lower : -2 ^ 63 ≤ stored) :
    json1.extract text path ≠ .null := by
  rcases extracts.integer_or_real found lower with extracted | ⟨_, bits, extracted, _⟩
  · rw [extracted]
    exact SqlValue.noConfusion
  · rw [extracted]
    exact SqlValue.noConfusion

end Json1

/-! ## Queries -/

/-- Comparing the stored integer with the bound one comes out right: the bound
integer is below `2 ^ 63`, or the stored one is on the side of it where numbers
are of texts. -/
def ComparedExactly (op : QueryOp) (stored bound : Int) : Prop :=
  bound < 2 ^ 63 ∨
    match op with
    | .eq | .ne => stored ≠ bound
    | .gt | .lte => stored ≤ bound
    | .gte | .lt => stored < bound
    | .contains | .like => False

/-- Whether SQLite selects a stored integer, for every bound integer. -/
theorem Json1.passes_integer_iff {json1 : Json1} (extracts : json1.ExtractsIntegers)
    (serde : SerdeJson) {fieldPath text path : String} {op : QueryOp}
    (comparison : op.IsComparison) {stored bound : Int} {number : Number}
    (isBound : intValue number = some bound) (found : json1.integerAt text path = some stored)
    (lower : -2 ^ 63 ≤ stored) :
    (json1.passes (json1.extract text path)
        (WhereJsonClause.test serde ⟨fieldPath, op, .number number⟩) = true ↔
      op.Relates stored bound) ↔ ComparedExactly op stored bound := by
  have notNull := extracts.ne_null found lower
  rw [WhereJsonClause.test_number serde fieldPath comparison, Json1.passes]
  rcases lt_or_ge bound (2 ^ 63) with small | large
  · rw [jsonToSqliteValue_of_lt isBound small,
      SqlValue.compares_iff comparison notNull SqlValue.noConfusion]
    obtain ⟨below, equal⟩ := extracts.compare_integer found lower small
    exact iff_of_true (op.relates_congr below equal) (.inl small)
  · rcases jsonToSqliteValue_of_ge isBound large with ⟨bytes, bound_eq⟩
    have below := extracts.key_lt_text found lower bytes
    unfold ComparedExactly
    rw [bound_eq, SqlValue.compares_iff comparison notNull SqlValue.noConfusion,
      or_iff_right large.not_gt]
    -- A number lies below every text, so the operator alone decides.
    cases op with
    | eq => simp only [QueryOp.Relates, below.ne, false_iff, ne_eq]
    | ne => simp only [QueryOp.Relates, below.ne, ne_eq, not_false_eq_true, true_iff]
    | gt => simp only [QueryOp.Relates, below.not_gt, gt_iff_lt, false_iff, not_lt]
    | gte => simp only [QueryOp.Relates, below.not_ge, ge_iff_le, false_iff, not_le]
    | lt => simp only [QueryOp.Relates, below, true_iff]
    | lte => simp only [QueryOp.Relates, below.le, true_iff]
    | contains => exact absurd rfl comparison.1
    | like => exact absurd rfl comparison.2

/-- The statement of a query with one JSON condition. -/
theorem select_of_whereJson {serde : SerdeJson} {collection fieldPath path : String} {op : QueryOp}
    {value : Value} (accepted : normalizeJsonPath fieldPath = .ok path) {select : Select}
    (compiled : ((QueryBuilder.new collection).whereJson fieldPath op value).select serde =
      .ok select) :
    select = ⟨[.collection (Text.trim collection), .active,
      .json path (WhereJsonClause.test serde ⟨fieldPath, op, value⟩)], [], none, none⟩ := by
  rcases QueryBuilder.select_eq_ok_iff.mp compiled with
    ⟨_, conditions, terms, conditionsEq, termsEq, rfl⟩
  rcases Except.mapM_cons_eq_ok_iff.mp conditionsEq with
    ⟨condition, others, condition_eq, none, rfl⟩
  cases none
  cases termsEq
  rw [WhereJsonClause.condition, accepted] at condition_eq
  cases condition_eq
  rfl

/-- A query that compares a JSON field with an integer tells the rows that store
an integer there apart exactly if the comparison comes out right. -/
theorem whereJson_integer_iff {json1 : Json1} (extracts : json1.ExtractsIntegers) {sqlite : Sqlite}
    (executes : json1.Executes sqlite) (serde : SerdeJson) {collection fieldPath path : String}
    {op : QueryOp} (comparison : op.IsComparison)
    (accepted : normalizeJsonPath fieldPath = .ok path) {number : Number} {bound stored : Int}
    (isBound : intValue number = some bound)
    {store : RecordStore} {uri : String} {row : Row} (found : store.records.lookup uri = some row)
    (active : row.isDeleted = false) (filed : row.collection = Text.trim collection)
    (stores : json1.integerAt row.recordJson path = some stored) (lower : -2 ^ 63 ≤ stored)
    {rows : List RecordRow}
    (executed : ((QueryBuilder.new collection).whereJson fieldPath op (.number number)).execute
      serde sqlite store = .ok rows) :
    ((∃ result ∈ rows, result.uri = uri) ↔ op.Relates stored bound) ↔
      ComparedExactly op stored bound := by
  rcases QueryBuilder.execute_eq_ok_iff.mp executed with ⟨select, compiled, _⟩
  have select_eq := select_of_whereJson accepted compiled
  have uncut : select.uncut = select := by
    rw [select_eq]
    rfl
  rw [QueryBuilder.execute_mem_iff executes compiled uncut executed, ←
    Json1.passes_integer_iff extracts serde comparison isBound stores lower]
  have selected : (∃ other, store.records.lookup uri = some other ∧
      json1.selects select other = true) ↔
      json1.passes (json1.extract row.recordJson path)
        (WhereJsonClause.test serde ⟨fieldPath, op, .number number⟩) = true := by
    rw [found]
    simp only [Option.some.injEq, exists_eq_left', select_eq, Json1.selects, List.all_cons,
      Json1.holds, filed, active, beq_self_eq_true, Bool.not_false, Bool.true_and, List.all_nil,
      Bool.and_true]
  rw [selected]

/-! ## JSON1 on compact texts -/

/-- The keys of a path of member names, such as `$.subject.uri`. -/
def pathKeys (path : String) : List String :=
  ((path.toList.drop 2).splitOn '.').map String.ofList

/-- The value behind a sequence of keys. -/
def memberAt : List String → Value → Option Value
  | [], value => some value
  | key :: keys, value => (value.get key).bind (memberAt keys)

/-- The SQL value of a JSON value. -/
def sqlValueOf : Value → SqlValue
  | .null => .null
  | .bool b => .integer (if b then 1 else 0)
  | .number (.posInt value) =>
      if value.toInt < 2 ^ 63 then .integer value.toInt
      else .real (Fin.ofNat (2 ^ 64) (Binary64.ofLarge value.val))
  | .number (.negInt magnitude) => .integer (-(magnitude.val + 1))
  | .number (.float bits) => .real bits
  | .string text => .text text
  | .array elements => .text (Compact.codec.text (.array elements))
  | .object members => .text (Compact.codec.text (.object members))

/-- The JSON value at a path of member names in a compact text. -/
def compactAt (text path : String) : Option Value :=
  match Compact.codec.fromStr text with
  | .ok document => memberAt (pathKeys path) document
  | .error _ => none

/-- JSON1 on compact texts and paths of member names, without `LIKE`. -/
def Json1.compact : Json1 where
  integerAt text path :=
    match compactAt text path with
    | some (.number number) => intValue number
    | _ => none
  extract text path := ((compactAt text path).map sqlValueOf).getD .null
  contains _ _ := false
  like _ _ := false

theorem sqlValueOf_of_fits {number : Number} {value : Int}
    (isInteger : intValue number = some value) (small : value < 2 ^ 63) :
    sqlValueOf (.number number) = .integer value := by
  cases number with
  | posInt stored =>
      obtain rfl := Option.some.inj isInteger
      rw [sqlValueOf, if_pos small]
  | negInt magnitude =>
      obtain rfl := Option.some.inj isInteger
      rfl
  | float bits => cases isInteger

theorem sqlValueOf_of_ge {number : Number} {value : Int} (isInteger : intValue number = some value)
    (large : 2 ^ 63 ≤ value) :
    ∃ bits : U64, sqlValueOf (.number number) = .real bits ∧ Binary64.Nearest bits value := by
  cases number with
  | posInt stored =>
      obtain rfl := Option.some.inj isInteger
      have lower : 2 ^ 63 ≤ stored.val := by
        unfold U64.toInt at large
        omega
      have exact : (Fin.ofNat (2 ^ 64) (Binary64.ofLarge stored.val)).val =
          Binary64.ofLarge stored.val := Nat.mod_eq_of_lt (Binary64.ofLarge_lt lower stored.isLt)
      refine ⟨_, by rw [sqlValueOf, if_neg (not_lt.mpr large)], ?_⟩
      rw [exact]
      exact Binary64.ofLarge_nearest lower stored.isLt
  | negInt magnitude =>
      obtain rfl := Option.some.inj isInteger
      omega
  | float bits => cases isInteger

theorem Json1.compact_extract_eq {text path : String} {value : Int}
    (found : Json1.compact.integerAt text path = some value) :
    ∃ number, intValue number = some value ∧
      Json1.compact.extract text path = sqlValueOf (.number number) := by
  change (match compactAt text path with
    | some (.number number) => intValue number
    | _ => none) = some value at found
  cases at_eq : compactAt text path with
  | none =>
      rw [at_eq] at found
      cases found
  | some document =>
      rw [at_eq] at found
      cases document with
      | number number =>
          refine ⟨number, found, ?_⟩
          change ((compactAt text path).map sqlValueOf).getD .null = _
          rw [at_eq, Option.map_some, Option.getD_some]
      | _ => cases found

theorem Json1.compact_extracts : Json1.compact.ExtractsIntegers where
  integer text path value found _ upper := by
    rcases compact_extract_eq found with ⟨number, isInteger, extracted⟩
    rw [extracted, sqlValueOf_of_fits isInteger upper]
  real text path value found overflow := by
    rcases compact_extract_eq found with ⟨number, isInteger, extracted⟩
    have lower : -2 ^ 63 ≤ value := by
      cases number with
      | posInt stored =>
          obtain rfl := Option.some.inj isInteger
          unfold U64.toInt
          omega
      | negInt magnitude =>
          obtain rfl := Option.some.inj isInteger
          have := magnitude.isLt
          omega
      | float bits => cases isInteger
    rw [extracted]
    exact sqlValueOf_of_ge isInteger (not_lt.mp fun upper => overflow ⟨lower, upper⟩)

/-! ## A stored integer beyond the range of INTEGER -/

/-- The URI of `countRow`. -/
def countUri : String := "at://did:plc:alice/app.example.count/r1"

/-- A row whose record counts up to `2 ^ 63`. -/
def countRow : Row where
  cid := "cid1"
  did := "did:plc:alice"
  collection := "app.example.count"
  rkey := "r1"
  recordJson := "\x7b\"n\":9223372036854775808\x7d"
  indexedAt := 1
  isDeleted := false

/-- The store with that row. -/
def countStore : RecordStore :=
  { RecordStore.empty with records := Finmap.singleton countUri countRow }

/-- A comparison with the count. -/
def countQuery (op : QueryOp) (bound : U64) : QueryBuilder :=
  (QueryBuilder.new "app.example.count").whereJson "n" op (.number (.posInt bound))

theorem integerAt_countRow :
    Json1.compact.integerAt countRow.recordJson "$.n" = some (2 ^ 63) := by
  decide +kernel

theorem lookup_countStore : countStore.records.lookup countUri = some countRow :=
  Finmap.lookup_singleton_eq

/-- The statement of `countQuery`. -/
def countSelect (operator : String) (bound : SqlValue) : Select :=
  ⟨[.collection "app.example.count", .active, .json "$.n" (.compare operator bound)], [], none,
    none⟩

theorem readable_countRow :
    ∃ result, readEntry Compact.codec (countUri, countRow) = .ok result := by
  have succeeds : (readEntry Compact.codec (countUri, countRow)).isOk = true := by decide +kernel
  cases read : readEntry Compact.codec (countUri, countRow) with
  | error err =>
      rw [read] at succeeds
      cases succeeds
  | ok result => exact ⟨result, rfl⟩

theorem eq_of_lookup_countStore {uri : String} {row : Row}
    (found : countStore.records.lookup uri = some row) : uri = countUri ∧ row = countRow := by
  have mem : uri ∈ countStore.records := Finmap.mem_of_lookup_eq_some found
  obtain rfl : uri = countUri := (Finmap.mem_singleton _ _ _).mp mem
  exact ⟨rfl, Option.some.inj (found.symm.trans lookup_countStore)⟩

/-- Queries for the count succeed. -/
theorem execute_countQuery {op : QueryOp} {bound : U64} {select : Select}
    (compiled : (countQuery op bound).select Compact.codec = .ok select) :
    ∃ rows, (countQuery op bound).execute Compact.codec (Json1.execution Json1.compact.arrange)
      countStore = .ok rows := by
  have arranged := Json1.isArranged_arrange Json1.compact select countStore.records
  have readable : ∀ entry ∈ select.cut (Json1.compact.arrange select countStore.records),
      ∃ result, readEntry Compact.codec entry = .ok result := by
    rintro ⟨uri, row⟩ mem
    have found := ((arranged.mem_iff uri row).mp (Select.mem_of_mem_cut mem)).1
    obtain ⟨rfl, rfl⟩ := eq_of_lookup_countStore found
    exact readable_countRow
  rcases Except.mapM_ok_of_forall readable with ⟨rows, mapped⟩
  exact ⟨rows, QueryBuilder.execute_eq_ok_iff.mpr ⟨select, compiled, rfl, mapped⟩⟩

/-- An equality with the stored integer finds no row. -/
theorem whereJson_misses_largest :
    normalizeJsonPath "n" = .ok "$.n" ∧
      Json1.compact.integerAt countRow.recordJson "$.n" = some (2 ^ 63) ∧
      intValue (.posInt (2 ^ 63)) = some (2 ^ 63) ∧
      ∃ rows, (countQuery .eq (2 ^ 63)).execute Compact.codec
          (Json1.execution Json1.compact.arrange) countStore = .ok rows ∧
        ¬ ((∃ result ∈ rows, result.uri = countUri) ↔
          QueryOp.eq.Relates (2 ^ 63 : Int) (2 ^ 63)) := by
  have compiled : (countQuery .eq (2 ^ 63)).select Compact.codec =
      .ok (countSelect "=" (.text "9223372036854775808")) := by decide
  rcases execute_countQuery compiled with ⟨rows, executed⟩
  refine ⟨by decide, integerAt_countRow, by decide, rows, executed, ?_⟩
  intro right
  have executes := Json1.executes_execution (Json1.isArranged_arrange Json1.compact)
  have contained := right.mpr rfl
  rw [QueryBuilder.execute_mem_iff executes compiled rfl executed] at contained
  rcases contained with ⟨row, found, selected⟩
  obtain ⟨_, rfl⟩ := eq_of_lookup_countStore found
  have rejected : Json1.compact.selects (countSelect "=" (.text "9223372036854775808")) countRow =
      false := by decide +kernel
  rw [rejected] at selected
  cases selected

theorem whereJson_integer_iff_count :
    ∃ rows, (countQuery .gt 3).execute Compact.codec (Json1.execution Json1.compact.arrange)
        countStore = .ok rows ∧
      ((∃ result ∈ rows, result.uri = countUri) ↔ QueryOp.gt.Relates (2 ^ 63 : Int) 3) := by
  have compiled : (countQuery .gt 3).select Compact.codec = .ok (countSelect ">" (.integer 3)) := by
    decide
  rcases execute_countQuery compiled with ⟨rows, executed⟩
  have executes := Json1.executes_execution (Json1.isArranged_arrange Json1.compact)
  have comparison : QueryOp.gt.IsComparison := by
    constructor <;> exact QueryOp.noConfusion
  have isBound : intValue (.posInt 3) = some 3 := by decide
  have accepted : normalizeJsonPath "n" = .ok "$.n" := by decide
  refine ⟨rows, executed, (whereJson_integer_iff Json1.compact_extracts executes Compact.codec
    comparison accepted isBound lookup_countStore rfl (by decide) integerAt_countRow
    (by decide) executed).mpr (.inl (by decide))⟩

end Skybase.Index
