import Mathlib.Data.Finset.Sort
import Mathlib.Data.String.Basic
import Skybase.Index.Store
import Skybase.Text

/-!
# The query builder

A query compiles to a `SELECT` statement, here the list of its clauses; its SQL
text and its parameters are rendered from them.  How SQLite evaluates JSON1
expressions, and in which order it visits rows, is not part of the repository:
the answer of a statement is a parameter.  On statements that compare nothing
but columns, and neither sort nor cut their rows, it delivers the rows that
meet the conditions.
-/

namespace Skybase.Index

open Skybase.Json

/-! ## Clauses -/

/-- `QueryOp`. -/
inductive QueryOp where
  | eq
  | ne
  | gt
  | gte
  | lt
  | lte
  | contains
  | like
deriving DecidableEq

/-- `SortDirection`. -/
inductive SortDirection where
  | asc
  | desc
deriving DecidableEq

/-- `SortDirection::as_sql`. -/
def SortDirection.asSql : SortDirection → String
  | .asc => "ASC"
  | .desc => "DESC"

/-- `OrderClause`. -/
inductive OrderClause where
  | column (name : String) (direction : SortDirection)
  | jsonPath (rawPath : String) (direction : SortDirection)

/-- `WhereJsonClause`. -/
structure WhereJsonClause where
  fieldPath : String
  op : QueryOp
  value : Value

/-- `rusqlite::types::Value`, as far as it is bound. -/
inductive SqlValue where
  | null
  | integer (value : Int)
  /-- A double, by its bits. -/
  | real (bits : U64)
  | text (value : String)
deriving DecidableEq

/-- `json_to_sqlite_value`. -/
def jsonToSqliteValue (serde : SerdeJson) : Value → SqlValue
  | .null => .null
  | .bool b => .integer (if b then 1 else 0)
  | .number (.posInt value) =>
      match i64TryFrom value with
      | .ok i => .integer i
      | .error _ => .text value.text
  | .number (.negInt magnitude) => .integer (-(magnitude.val + 1))
  | .number (.float bits) => .real bits
  | .string s => .text s
  | .array elements => .text (serde.text (.array elements))
  | .object members => .text (serde.text (.object members))

/-- `escape_like_literal`. -/
def escapeLikeLiteral (s : String) : String :=
  String.ofList (s.toList.flatMap fun ch =>
    if ch == '%' || ch == '_' || ch == '\\' then ['\\', ch] else [ch])

/-- The characters of a JSON path. -/
def isJsonPathChar (ch : Char) : Bool :=
  ch.isAlphanum || ch == '_' || ch == '-' || ch == '.' || ch == '[' || ch == ']'

/-- The characters of a path that its validation looks at: all but a leading
dollar sign. -/
def jsonPathTail (path : String) : List Char :=
  match path.toList with
  | '$' :: rest => rest
  | chars => chars

/-- `validate_json_path`. -/
def validateJsonPath (path : String) : Except SkybaseError Unit :=
  if Text.startsWith path "$" && Text.len path > 1 && !Text.startsWith path "$." &&
      !Text.startsWith path "$[" then
    .error (.index
      s!"JSON path starting with '$' must be followed by '.' or '[', got: '{path}'")
  else
    match (jsonPathTail path).find? fun ch => !isJsonPathChar ch with
    | some ch => .error (.index s!"Invalid character '{ch}' in JSON path '{path}'")
    | none => .ok ()

/-- `normalize_json_path`. -/
def normalizeJsonPath (path : String) : Except SkybaseError String :=
  let trimmed := Text.trim path
  if trimmed.isEmpty then .error (.index "JSON field path cannot be empty")
  else
    let normalized :=
      if Text.startsWith trimmed "$" then trimmed
      else if Text.startsWith trimmed "[" then "$" ++ trimmed
      else "$." ++ trimmed
    (validateJsonPath normalized).map fun _ => normalized

/-! ## Statements -/

/-- What a condition asks of the value at a path. -/
inductive JsonTest where
  | isNull
  | isNotNull
  /-- A comparison with a bound value, by its SQL operator. -/
  | compare (operator : String) (value : SqlValue)
  | contains (value : SqlValue)
  | like (value : SqlValue)
deriving DecidableEq

/-- A condition of the `WHERE` clause. -/
inductive Condition where
  | collection (collection : String)
  | active
  | did (did : String)
  | json (path : String) (test : JsonTest)
deriving DecidableEq

/-- A term of the `ORDER BY` clause. -/
inductive OrderTerm where
  | column (name : String) (direction : SortDirection)
  | jsonPath (path : String) (direction : SortDirection)
deriving DecidableEq

/-- The statements that queries compile to. -/
structure Select where
  conditions : List Condition
  orderBy : List OrderTerm
  limit : Option U32
  offset : Option U32
deriving DecidableEq

namespace JsonTest

/-- The SQL text of a test. -/
def sql : JsonTest → String
  | isNull => "json_extract(record_json, ?) IS NULL"
  | isNotNull => "json_extract(record_json, ?) IS NOT NULL"
  | compare operator _ => "json_extract(record_json, ?) " ++ operator ++ " ?"
  | contains _ => "json_extract(record_json, ?) LIKE ('%' || ? || '%') ESCAPE '\\'"
  | like _ => "json_extract(record_json, ?) LIKE ?"

/-- The value that a test binds. -/
def params : JsonTest → List SqlValue
  | isNull => []
  | isNotNull => []
  | compare _ value => [value]
  | contains value => [value]
  | like value => [value]

end JsonTest

namespace Condition

/-- The SQL text of a condition. -/
def sql : Condition → String
  | .collection _ => "collection = ?"
  | .active => "is_deleted = 0"
  | .did _ => "did = ?"
  | .json _ test => test.sql

/-- The values that a condition binds, in the order of their placeholders. -/
def params : Condition → List SqlValue
  | .collection value => [.text value]
  | .active => []
  | .did value => [.text value]
  | .json path test => .text path :: test.params

end Condition

namespace OrderTerm

/-- The SQL text of a term. -/
def sql : OrderTerm → String
  | column name direction => name ++ " " ++ direction.asSql
  | jsonPath _ direction => "json_extract(record_json, ?) " ++ direction.asSql

/-- The values that a term binds. -/
def params : OrderTerm → List SqlValue
  | column _ _ => []
  | jsonPath path _ => [.text path]

end OrderTerm

namespace Select

/-- The SQL text of the cut. -/
def limitSql (select : Select) : String :=
  match select.limit, select.offset with
  | some _, some _ => " LIMIT ? OFFSET ?"
  | some _, none => " LIMIT ?"
  | none, some _ => " LIMIT -1 OFFSET ?"
  | none, none => ""

/-- The SQL text of a statement. -/
def sql (select : Select) : String :=
  "SELECT uri, cid, did, collection, rkey, record_json, indexed_at, is_deleted FROM records WHERE "
    ++ String.intercalate " AND " (select.conditions.map Condition.sql)
    ++ (if select.orderBy.isEmpty then ""
        else " ORDER BY " ++ String.intercalate ", " (select.orderBy.map OrderTerm.sql))
    ++ select.limitSql

/-- The parameters of a statement, in the order of their placeholders. -/
def params (select : Select) : List SqlValue :=
  select.conditions.flatMap Condition.params ++ select.orderBy.flatMap OrderTerm.params
    ++ select.limit.toList.map (fun limit => .integer limit.val)
    ++ select.offset.toList.map (fun offset => .integer offset.val)

end Select

/-! ## The builder -/

/-- `QueryBuilder`, without the store it borrows. -/
structure QueryBuilder where
  collection : String
  did : Option String
  whereJsonClauses : List WhereJsonClause
  orderByClauses : List OrderClause
  limit : Option U32
  offset : Option U32
  includeDeleted : Bool

namespace QueryBuilder

/-- `QueryBuilder::new`. -/
def new (collection : String) : QueryBuilder := ⟨collection, none, [], [], none, none, false⟩

/-- `QueryBuilder::did`. -/
def withDid (builder : QueryBuilder) (did : String) : QueryBuilder :=
  { builder with did := some did }

/-- `QueryBuilder::where_json`. -/
def whereJson (builder : QueryBuilder) (fieldPath : String) (op : QueryOp) (value : Value) :
    QueryBuilder :=
  { builder with whereJsonClauses := builder.whereJsonClauses ++ [⟨fieldPath, op, value⟩] }

/-- `QueryBuilder::order_by`. -/
def orderBy (builder : QueryBuilder) (field : String) (direction : SortDirection) :
    QueryBuilder :=
  let clause :=
    if field ∈ ["indexed_at", "uri", "did", "collection", "rkey", "cid"] then
      .column field direction
    else OrderClause.jsonPath field direction
  { builder with orderByClauses := builder.orderByClauses ++ [clause] }

/-- `QueryBuilder::limit`. -/
def withLimit (builder : QueryBuilder) (limit : U32) : QueryBuilder :=
  { builder with limit := some limit }

/-- `QueryBuilder::offset`. -/
def withOffset (builder : QueryBuilder) (offset : U32) : QueryBuilder :=
  { builder with offset := some offset }

/-- `QueryBuilder::include_deleted`. -/
def withIncludeDeleted (builder : QueryBuilder) (included : Bool) : QueryBuilder :=
  { builder with includeDeleted := included }

end QueryBuilder

/-- The test of a `where_json` clause. -/
def WhereJsonClause.test (serde : SerdeJson) (clause : WhereJsonClause) : JsonTest :=
  let bound := jsonToSqliteValue serde clause.value
  match clause.op with
  | .eq =>
      match clause.value with
      | .null => .isNull
      | _ => .compare "=" bound
  | .ne =>
      match clause.value with
      | .null => .isNotNull
      | _ => .compare "IS NOT" bound
  | .gt => .compare ">" bound
  | .gte => .compare ">=" bound
  | .lt => .compare "<" bound
  | .lte => .compare "<=" bound
  | .contains =>
      match clause.value with
      | .string s => .contains (.text (escapeLikeLiteral s))
      | _ => .contains bound
  | .like => .like bound

/-- The condition of a `where_json` clause. -/
def WhereJsonClause.condition (serde : SerdeJson) (clause : WhereJsonClause) :
    Except SkybaseError Condition :=
  (normalizeJsonPath clause.fieldPath).map fun path => .json path (clause.test serde)

/-- The term of an `order_by` clause. -/
def OrderClause.term : OrderClause → Except SkybaseError OrderTerm
  | column name direction => .ok (.column name direction)
  | jsonPath rawPath direction =>
      (normalizeJsonPath rawPath).map fun path => .jsonPath path direction

namespace QueryBuilder

/-- The condition on the DID, if there is one that is not blank. -/
def didConditions (builder : QueryBuilder) : List Condition :=
  match builder.did with
  | none => []
  | some did =>
      let trimmedDid := Text.trim did
      if trimmedDid.isEmpty then [] else [.did trimmedDid]

/-- The statement of a query. -/
def select (serde : SerdeJson) (builder : QueryBuilder) : Except SkybaseError Select :=
  let coll := Text.trim builder.collection
  if coll.isEmpty then .error (.index "Collection cannot be empty")
  else do
    let jsonConditions ← builder.whereJsonClauses.mapM fun clause => clause.condition serde
    let orderBy ← builder.orderByClauses.mapM OrderClause.term
    pure
      { conditions := [.collection coll] ++ (if builder.includeDeleted then [] else [.active]) ++
          builder.didConditions ++ jsonConditions
        orderBy := orderBy
        limit := builder.limit
        offset := builder.offset }

/-- `QueryBuilder::build_sql`. -/
def buildSql (serde : SerdeJson) (builder : QueryBuilder) :
    Except SkybaseError (String × List SqlValue) :=
  (builder.select serde).map fun select => (select.sql, select.params)

end QueryBuilder

/-! ## Execution -/

/-- The execution of statements by SQLite: the rows that it delivers, in order,
and the message of the error that ends the delivery, if one does. -/
abbrev Sqlite := Select → Records → List (String × Row) × SqliteAnswer

namespace RecordStore

/-- `RecordStore::query_raw`. -/
def queryRaw (serde : SerdeJson) (sqlite : Sqlite) (select : Select) (store : RecordStore) :
    Except SkybaseError (List RecordRow) := do
  let (rows, failure) := sqlite select store.records
  let results ← rows.mapM fun (uri, row) => mapRecordRow serde uri row
  match failure with
  | some err => .error (.storage err)
  | none => pure results

end RecordStore

/-- `QueryBuilder::execute`. -/
def QueryBuilder.execute (serde : SerdeJson) (sqlite : Sqlite) (builder : QueryBuilder)
    (store : RecordStore) : Except SkybaseError (List RecordRow) := do
  let select ← builder.select serde
  store.queryRaw serde sqlite select

/-! ## Statements on columns -/

namespace Condition

/-- Whether a row meets a condition that compares a column; the others are up
to the JSON1 functions of SQLite. -/
def onColumn (row : Row) : Condition → Option Bool
  | .collection value => some (row.collection == value)
  | .active => some !row.isDeleted
  | .did value => some (row.did == value)
  | .json _ _ => none

end Condition

/-- The row meets all conditions, and they compare columns. -/
def Select.Matches (select : Select) (row : Row) : Prop :=
  ∀ condition ∈ select.conditions, condition.onColumn row = some true

instance (select : Select) (row : Row) : Decidable (select.Matches row) :=
  inferInstanceAs (Decidable (∀ _ ∈ _, _))

/-- The statement compares nothing but columns, and neither sorts nor cuts its
rows. -/
structure Select.Plain (select : Select) : Prop where
  comparesColumns : ∀ condition ∈ select.conditions, ∀ row, (condition.onColumn row).isSome = true
  unordered : select.orderBy = []
  unlimited : select.limit = none
  unshifted : select.offset = none

/-- What the model relies on in SQLite: a plain statement does not fail and
delivers the rows that meet its conditions. -/
def Delivers (sqlite : Sqlite) : Prop :=
  ∀ select records, select.Plain →
    (sqlite select records).2 = none ∧
      ∀ uri row, (uri, row) ∈ (sqlite select records).1 ↔
        records.lookup uri = some row ∧ select.Matches row

/-- The keys of the table in the order of the primary key. -/
def primaryKeys (records : Records) : List String := records.keys.sort

theorem mem_primaryKeys {records : Records} {uri : String} {row : Row}
    (lookup_eq : records.lookup uri = some row) : uri ∈ primaryKeys records := by
  rw [primaryKeys, Finset.mem_sort, Finmap.mem_keys]
  exact Finmap.mem_of_lookup_eq_some lookup_eq

/-- A table scan in the order of the primary key. -/
def scan : Sqlite := fun select records =>
  ((primaryKeys records).filterMap fun uri =>
    ((records.lookup uri).filter fun row => select.Matches row).map fun row => (uri, row), none)

theorem scan_delivers : Delivers scan := by
  intro select records _
  refine ⟨rfl, ?_⟩
  intro uri row
  rw [scan, List.mem_filterMap]
  constructor
  · rintro ⟨key, _, delivered⟩
    rcases Option.map_eq_some_iff.mp delivered with ⟨found, filtered, same⟩
    obtain ⟨rfl, rfl⟩ := Prod.mk.inj same
    rcases Option.filter_eq_some_iff.mp filtered with ⟨lookup_eq, matched⟩
    exact ⟨lookup_eq, decide_eq_true_iff.mp matched⟩
  · rintro ⟨lookup_eq, matched⟩
    refine ⟨uri, mem_primaryKeys lookup_eq, ?_⟩
    rw [lookup_eq, Option.filter_some, if_pos (decide_eq_true matched), Option.map_some]

/-! ## Records of one collection and author -/

theorem uri_of_mapRecordRow {serde : SerdeJson} {uri : String} {row : Row} {result : RecordRow}
    (mapped : RecordStore.mapRecordRow serde uri row = .ok result) : result.uri = uri := by
  unfold RecordStore.mapRecordRow at mapped
  split at mapped
  · cases mapped
  · split at mapped
    · cases mapped
    · cases mapped
      rfl

/-- The store can turn the row into a record again. -/
def Row.Readable (serde : SerdeJson) (uri : String) (row : Row) : Prop :=
  ∃ result, RecordStore.mapRecordRow serde uri row = .ok result

/-- The row is live and stored under the trimmed keys of a query. -/
structure Row.FiledUnder (row : Row) (collection did : String) : Prop where
  live : row.isDeleted = false
  collection : row.collection = Text.trim collection
  did : row.did = Text.trim did

/-- The statement of a query for one collection and author. -/
def keysSelect (collection did : String) : Select :=
  ⟨[.collection (Text.trim collection), .active, .did (Text.trim did)], [], none, none⟩

theorem plain_keysSelect (collection did : String) : (keysSelect collection did).Plain where
  comparesColumns := by
    intro condition mem row
    simp only [keysSelect, List.mem_cons, List.not_mem_nil, or_false] at mem
    rcases mem with rfl | rfl | rfl <;> rfl
  unordered := rfl
  unlimited := rfl
  unshifted := rfl

theorem matches_keysSelect_iff (collection did : String) (row : Row) :
    (keysSelect collection did).Matches row ↔ row.FiledUnder collection did := by
  simp only [Select.Matches, keysSelect, List.forall_mem_cons, Condition.onColumn,
    Option.some.injEq, beq_iff_eq, Bool.not_eq_true', List.not_mem_nil, false_implies,
    implies_true, and_true]
  constructor
  · rintro ⟨collection_eq, live, did_eq⟩
    exact ⟨live, collection_eq, did_eq⟩
  · rintro ⟨live, collection_eq, did_eq⟩
    exact ⟨collection_eq, live, did_eq⟩

theorem select_of_keys (serde : SerdeJson) {collection did : String}
    (collectionNotBlank : (Text.trim collection).isEmpty = false)
    (didNotBlank : (Text.trim did).isEmpty = false) :
    ((QueryBuilder.new collection).withDid did).select serde = .ok (keysSelect collection did) := by
  simp only [QueryBuilder.select, QueryBuilder.new, QueryBuilder.withDid, collectionNotBlank,
    QueryBuilder.didConditions, didNotBlank, Bool.false_eq_true, if_false]
  rfl

/-- A query for one collection and author returns the records of the rows that
are stored under its trimmed keys, or the error of one that cannot be read. -/
theorem execute_keys_iff {serde : SerdeJson} {sqlite : Sqlite} (delivers : Delivers sqlite)
    {collection did : String} (collectionNotBlank : (Text.trim collection).isEmpty = false)
    (didNotBlank : (Text.trim did).isEmpty = false) (store : RecordStore) (uri : String) :
    (∃ rows, ((QueryBuilder.new collection).withDid did).execute serde sqlite store = .ok rows ∧
        ∃ result ∈ rows, result.uri = uri) ↔
      (∃ row, store.records.lookup uri = some row ∧ row.FiledUnder collection did) ∧
        ∀ other row, store.records.lookup other = some row → row.FiledUnder collection did →
          row.Readable serde other := by
  obtain ⟨succeeds, mem_rows⟩ :=
    delivers (keysSelect collection did) store.records (plain_keysSelect collection did)
  simp only [matches_keysSelect_iff] at mem_rows
  have executed : ((QueryBuilder.new collection).withDid did).execute serde sqlite store =
      (sqlite (keysSelect collection did) store.records).1.mapM
        fun (uri, row) => RecordStore.mapRecordRow serde uri row := by
    rw [QueryBuilder.execute, select_of_keys serde collectionNotBlank didNotBlank]
    change store.queryRaw serde sqlite (keysSelect collection did) = _
    simp only [RecordStore.queryRaw, succeeds, bind_pure]
  rw [executed]
  constructor
  · rintro ⟨rows, mapped, result, resultMem, result_uri⟩
    constructor
    · rcases Except.exists_of_mapM_ok mapped result resultMem with ⟨⟨key, row⟩, rowMem, row_eq⟩
      have key_eq : key = uri := (uri_of_mapRecordRow row_eq).symm.trans result_uri
      rw [key_eq] at rowMem
      exact ⟨row, (mem_rows uri row).mp rowMem⟩
    · intro other row found filed
      rcases Except.ok_of_mapM_ok mapped (other, row) ((mem_rows other row).mpr ⟨found, filed⟩) with
        ⟨record, _, record_eq⟩
      exact ⟨record, record_eq⟩
  · rintro ⟨⟨row, found, filed⟩, readable⟩
    have allMapped : ∀ entry ∈ (sqlite (keysSelect collection did) store.records).1,
        ∃ record, RecordStore.mapRecordRow serde entry.1 entry.2 = .ok record := by
      intro entry mem
      have kept := (mem_rows entry.1 entry.2).mp mem
      exact readable entry.1 entry.2 kept.1 kept.2
    rcases Except.mapM_ok_of_forall allMapped with ⟨rows, mapped⟩
    rcases Except.ok_of_mapM_ok mapped (uri, row) ((mem_rows uri row).mpr ⟨found, filed⟩) with
      ⟨record, recordMem, record_eq⟩
    exact ⟨rows, mapped, record, recordMem, uri_of_mapRecordRow record_eq⟩

end Skybase.Index
