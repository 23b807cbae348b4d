import Skybase.Index.Query
import Skybase.Template.Core

/-!
# The text of a query

`build_sql` pushes the pieces of the text and the parameters one after the
other.  Here it is written as it stands in the source and shown to agree with
the rendering of the compiled statement.  The pieces are fragments: which text a
clause pushes depends on its shape alone, and it pushes one parameter for each
placeholder in it.
-/

namespace Skybase.Index

open Skybase.Json
open Skybase.Template (Fragment marks markAt)

/-! ## The code -/

/-- The local variables `sql` and `params` of `build_sql`. -/
abbrev SqlBuffer := Fragment SqlValue

/-- `sql.push_str`. -/
def pushStr (buffer : SqlBuffer) (sql : String) : SqlBuffer :=
  { buffer with text := buffer.text ++ sql }

/-- `params.push`. -/
def pushParam (buffer : SqlBuffer) (param : SqlValue) : SqlBuffer :=
  { buffer with params := buffer.params ++ [param] }

/-- `val` in the arm for `QueryOp::Contains`. -/
def containsVal (serde : SerdeJson) : Value → SqlValue
  | .string s => .text (escapeLikeLiteral s)
  | other => jsonToSqliteValue serde other

/-- One iteration of the loop over the `where_json` clauses. -/
def WhereJsonClause.pushTo (serde : SerdeJson) (buffer : SqlBuffer) (clause : WhereJsonClause) :
    Except SkybaseError SqlBuffer :=
  match normalizeJsonPath clause.fieldPath with
  | .error err => .error err
  | .ok path =>
      let buffer := pushParam buffer (.text path)
      let bound := jsonToSqliteValue serde clause.value
      .ok <|
        match clause.op, clause.value.isNull with
        | .eq, true => pushStr buffer " AND json_extract(record_json, ?) IS NULL"
        | .ne, true => pushStr buffer " AND json_extract(record_json, ?) IS NOT NULL"
        | .eq, false => pushParam (pushStr buffer " AND json_extract(record_json, ?) = ?") bound
        | .ne, false => pushParam (pushStr buffer " AND json_extract(record_json, ?) IS NOT ?") bound
        | .gt, _ => pushParam (pushStr buffer " AND json_extract(record_json, ?) > ?") bound
        | .gte, _ => pushParam (pushStr buffer " AND json_extract(record_json, ?) >= ?") bound
        | .lt, _ => pushParam (pushStr buffer " AND json_extract(record_json, ?) < ?") bound
        | .lte, _ => pushParam (pushStr buffer " AND json_extract(record_json, ?) <= ?") bound
        | .contains, _ =>
            pushParam
              (pushStr buffer " AND json_extract(record_json, ?) LIKE ('%' || ? || '%') ESCAPE '\\'")
              (containsVal serde clause.value)
        | .like, _ => pushParam (pushStr buffer " AND json_extract(record_json, ?) LIKE ?") bound

/-- One iteration of the loop over the `order_by` clauses, with the index. -/
def OrderClause.pushTo (buffer : SqlBuffer) (entry : OrderClause × Nat) :
    Except SkybaseError SqlBuffer :=
  let buffer := if entry.2 > 0 then pushStr buffer ", " else buffer
  match entry.1 with
  | .column name direction => .ok (pushStr (pushStr (pushStr buffer name) " ") direction.asSql)
  | .jsonPath rawPath direction =>
      match normalizeJsonPath rawPath with
      | .error err => .error err
      | .ok path =>
          let buffer := pushStr (pushStr buffer "json_extract(record_json, ?) ") direction.asSql
          .ok (pushParam buffer (.text path))

namespace QueryBuilder

/-- `build_sql` up to the loops. -/
def pushKeys (builder : QueryBuilder) (coll : String) : SqlBuffer :=
  let buffer := pushStr Fragment.empty
    "SELECT uri, cid, did, collection, rkey, record_json, indexed_at, is_deleted FROM records WHERE collection = ?"
  let buffer := pushParam buffer (.text coll)
  let buffer := if builder.includeDeleted then buffer else pushStr buffer " AND is_deleted = 0"
  match builder.did with
  | none => buffer
  | some did =>
      let trimmedDid := Text.trim did
      if trimmedDid.isEmpty then buffer
      else pushParam (pushStr buffer " AND did = ?") (.text trimmedDid)

/-- The `order_by` clauses of `build_sql`. -/
def pushOrders (builder : QueryBuilder) (buffer : SqlBuffer) : Except SkybaseError SqlBuffer :=
  if builder.orderByClauses.isEmpty then .ok buffer
  else builder.orderByClauses.zipIdx.foldlM OrderClause.pushTo (pushStr buffer " ORDER BY ")

/-- `build_sql` from the loops on. -/
def pushCut (builder : QueryBuilder) (buffer : SqlBuffer) : SqlBuffer :=
  match builder.limit, builder.offset with
  | some limit, some offset =>
      pushParam (pushParam (pushStr buffer " LIMIT ? OFFSET ?") (.integer limit.val))
        (.integer offset.val)
  | some limit, none => pushParam (pushStr buffer " LIMIT ?") (.integer limit.val)
  | none, some offset => pushParam (pushStr buffer " LIMIT -1 OFFSET ?") (.integer offset.val)
  | none, none => buffer

/-- `QueryBuilder::build_sql`, push by push. -/
def pushSql (serde : SerdeJson) (builder : QueryBuilder) :
    Except SkybaseError (String × List SqlValue) :=
  let coll := Text.trim builder.collection
  if coll.isEmpty then .error (.index "Collection cannot be empty")
  else do
    let buffer ← builder.whereJsonClauses.foldlM (WhereJsonClause.pushTo serde)
      (builder.pushKeys coll)
    let buffer ← builder.pushOrders buffer
    let buffer := builder.pushCut buffer
    pure (buffer.text, buffer.params)

end QueryBuilder

/-! ## Fragments -/

/-- The text that a `where_json` clause pushes, by its operator and by whether
its value is null. -/
def whereText : QueryOp → Bool → String
  | .eq, true => " AND json_extract(record_json, ?) IS NULL"
  | .ne, true => " AND json_extract(record_json, ?) IS NOT NULL"
  | .eq, false => " AND json_extract(record_json, ?) = ?"
  | .ne, false => " AND json_extract(record_json, ?) IS NOT ?"
  | .gt, _ => " AND json_extract(record_json, ?) > ?"
  | .gte, _ => " AND json_extract(record_json, ?) >= ?"
  | .lt, _ => " AND json_extract(record_json, ?) < ?"
  | .lte, _ => " AND json_extract(record_json, ?) <= ?"
  | .contains, _ => " AND json_extract(record_json, ?) LIKE ('%' || ? || '%') ESCAPE '\\'"
  | .like, _ => " AND json_extract(record_json, ?) LIKE ?"

/-- The values that a `where_json` clause binds besides its path. -/
def WhereJsonClause.bound (serde : SerdeJson) (clause : WhereJsonClause) : List SqlValue :=
  match clause.op, clause.value.isNull with
  | .eq, true => []
  | .ne, true => []
  | .contains, _ => [containsVal serde clause.value]
  | _, _ => [jsonToSqliteValue serde clause.value]

/-- What a `where_json` clause pushes: its text, its path and its value. -/
def WhereJsonClause.fragment (serde : SerdeJson) (clause : WhereJsonClause) :
    Except SkybaseError (Fragment SqlValue) :=
  (normalizeJsonPath clause.fieldPath).map fun path =>
    ⟨whereText clause.op clause.value.isNull, .text path :: clause.bound serde⟩

/-- The comma before all terms but the first. -/
def orderSeparator (idx : Nat) : String := if idx > 0 then ", " else ""

/-- What an `order_by` clause pushes: its text, and its path if it has one. -/
def OrderClause.fragment (entry : OrderClause × Nat) : Except SkybaseError (Fragment SqlValue) :=
  match entry.1 with
  | .column name direction =>
      .ok ⟨orderSeparator entry.2 ++ name ++ " " ++ direction.asSql, []⟩
  | .jsonPath rawPath direction =>
      (normalizeJsonPath rawPath).map fun path =>
        ⟨orderSeparator entry.2 ++ "json_extract(record_json, ?) " ++ direction.asSql,
          [.text path]⟩

namespace QueryBuilder

/-- The trimmed DID, if there is one that is not blank. -/
def trimmedDid (builder : QueryBuilder) : Option String :=
  (builder.did.map Text.trim).filter fun did => !did.isEmpty

/-- What is pushed for the columns: the collection, the active rows, the DID. -/
def keyFragments (builder : QueryBuilder) : List (Fragment SqlValue) :=
  ⟨"SELECT uri, cid, did, collection, rkey, record_json, indexed_at, is_deleted FROM records WHERE collection = ?",
      [.text (Text.trim builder.collection)]⟩ ::
    (if builder.includeDeleted then [] else [⟨" AND is_deleted = 0", []⟩]) ++
    builder.trimmedDid.toList.map fun did => ⟨" AND did = ?", [.text did]⟩

/-- What is pushed for the limit and the offset. -/
def cutFragments (builder : QueryBuilder) : List (Fragment SqlValue) :=
  match builder.limit, builder.offset with
  | some limit, some offset =>
      [⟨" LIMIT ?", [.integer limit.val]⟩, ⟨" OFFSET ?", [.integer offset.val]⟩]
  | some limit, none => [⟨" LIMIT ?", [.integer limit.val]⟩]
  | none, some offset => [⟨" LIMIT -1 OFFSET ?", [.integer offset.val]⟩]
  | none, none => []

/-- The keyword before the terms, if there are any. -/
def orderKeyword (builder : QueryBuilder) : List (Fragment SqlValue) :=
  if builder.orderByClauses.isEmpty then [] else [⟨" ORDER BY ", []⟩]

/-- Everything that `build_sql` pushes: each clause contributes its own text and
its own values. -/
def fragments (serde : SerdeJson) (builder : QueryBuilder) :
    Except SkybaseError (List (Fragment SqlValue)) := do
  let wheres ← builder.whereJsonClauses.mapM (WhereJsonClause.fragment serde)
  let orders ← builder.orderByClauses.zipIdx.mapM OrderClause.fragment
  pure (builder.keyFragments ++ wheres ++ builder.orderKeyword ++ orders ++ builder.cutFragments)

end QueryBuilder

/-! ## Pushing fragments -/

theorem pushStr_eq (buffer : SqlBuffer) (sql : String) :
    pushStr buffer sql = buffer.append ⟨sql, []⟩ := by
  rw [pushStr, Fragment.append, List.append_nil]

theorem WhereJsonClause.pushTo_eq (serde : SerdeJson) (buffer : SqlBuffer)
    (clause : WhereJsonClause) :
    clause.pushTo serde buffer = (clause.fragment serde).map buffer.append := by
  unfold pushTo fragment
  cases normalizeJsonPath clause.fieldPath with
  | error err => rfl
  | ok path =>
      refine congrArg Except.ok ?_
      unfold bound
      cases clause.op <;> cases clause.value.isNull <;>
        simp only [pushStr, pushParam, Fragment.append, whereText, List.append_assoc,
          List.singleton_append]

theorem OrderClause.pushTo_eq (buffer : SqlBuffer) (entry : OrderClause × Nat) :
    OrderClause.pushTo buffer entry = (OrderClause.fragment entry).map buffer.append := by
  rcases entry with ⟨clause, idx⟩
  have separated : (if idx > 0 then pushStr buffer ", " else buffer) =
      pushStr buffer (orderSeparator idx) := by
    unfold orderSeparator
    split
    · rfl
    · rw [pushStr, String.append_empty]
  unfold pushTo fragment
  dsimp only
  rw [separated]
  cases clause with
  | column name direction =>
      refine congrArg Except.ok ?_
      simp only [pushStr, Fragment.append, String.append_assoc, List.append_nil]
  | jsonPath rawPath direction =>
      dsimp only
      cases normalizeJsonPath rawPath with
      | error err => rfl
      | ok path =>
          refine congrArg Except.ok ?_
          simp only [pushStr, pushParam, Fragment.append, String.append_assoc]

namespace QueryBuilder

theorem pushActive_eq (included : Bool) (buffer : SqlBuffer) :
    (if included then buffer else pushStr buffer " AND is_deleted = 0") =
      buffer.append (Fragment.join (if included then [] else [⟨" AND is_deleted = 0", []⟩])) := by
  cases included with
  | true => exact (Fragment.append_empty buffer).symm
  | false => exact (pushStr_eq buffer _).trans (by rw [← Fragment.append_empty ⟨_, _⟩]; rfl)

theorem pushDid_eq (builder : QueryBuilder) (buffer : SqlBuffer) :
    (match builder.did with
      | none => buffer
      | some did =>
          if (Text.trim did).isEmpty then buffer
          else pushParam (pushStr buffer " AND did = ?") (.text (Text.trim did))) =
      buffer.append (Fragment.join (builder.trimmedDid.toList.map fun did =>
        ⟨" AND did = ?", [.text did]⟩)) := by
  unfold trimmedDid
  cases builder.did with
  | none => exact (Fragment.append_empty buffer).symm
  | some did =>
      dsimp only
      rw [Option.map_some, Option.filter_some]
      cases (Text.trim did).isEmpty with
      | true => exact (Fragment.append_empty buffer).symm
      | false =>
          simp only [pushStr, pushParam, Fragment.append, Fragment.join, Fragment.empty,
            Bool.not_false, if_true, Option.toList_some, List.map_cons, List.map_nil,
            List.append_nil, String.append_empty, Bool.false_eq_true, if_false]

theorem pushKeys_eq (builder : QueryBuilder) :
    builder.pushKeys (Text.trim builder.collection) = Fragment.join builder.keyFragments := by
  unfold pushKeys keyFragments
  dsimp only
  rw [pushDid_eq, pushActive_eq, List.cons_append, Fragment.join, Fragment.join_append,
    ← Fragment.append_assoc]
  simp only [pushStr, pushParam, Fragment.empty, String.empty_append, List.nil_append]

theorem pushCut_eq (builder : QueryBuilder) (buffer : SqlBuffer) :
    builder.pushCut buffer = buffer.append (Fragment.join builder.cutFragments) := by
  unfold pushCut cutFragments
  cases builder.limit with
  | none =>
      cases builder.offset with
      | none => exact (Fragment.append_empty buffer).symm
      | some offset =>
          simp only [pushStr, pushParam, Fragment.join, Fragment.append, Fragment.empty,
            String.append_empty, List.append_nil]
  | some limit =>
      cases builder.offset with
      | none =>
          simp only [pushStr, pushParam, Fragment.join, Fragment.append, Fragment.empty,
            String.append_empty, List.append_nil]
      | some offset =>
          have both : " LIMIT ? OFFSET ?" = " LIMIT ?" ++ " OFFSET ?" := rfl
          simp only [both, pushStr, pushParam, Fragment.join, Fragment.append, Fragment.empty,
            String.append_empty, List.append_assoc, List.append_nil]

theorem pushOrders_eq (builder : QueryBuilder) (buffer : SqlBuffer) :
    builder.pushOrders buffer =
      (builder.orderByClauses.zipIdx.mapM OrderClause.fragment).map fun orders =>
        buffer.append (Fragment.join (builder.orderKeyword ++ orders)) := by
  unfold pushOrders orderKeyword
  split
  · next none =>
      rw [List.isEmpty_iff.mp none]
      exact congrArg Except.ok (Fragment.append_empty buffer).symm
  · rw [Fragment.foldlM_append OrderClause.pushTo_eq]
    congr 1
    funext orders
    rw [pushStr_eq, Fragment.append_assoc, List.singleton_append, Fragment.join]

/-- The code pushes the fragments of the builder. -/
theorem pushSql_eq (serde : SerdeJson) (builder : QueryBuilder) :
    builder.pushSql serde =
      if (Text.trim builder.collection).isEmpty then .error (.index "Collection cannot be empty")
      else (builder.fragments serde).map fun fragments =>
        ((Fragment.join fragments).text, (Fragment.join fragments).params) := by
  unfold pushSql fragments
  dsimp only
  split
  · rfl
  · rw [Fragment.foldlM_append (WhereJsonClause.pushTo_eq serde), pushKeys_eq]
    cases builder.whereJsonClauses.mapM (WhereJsonClause.fragment serde) with
    | error err => rfl
    | ok wheres =>
        change (builder.pushOrders _ >>= _) = _
        rw [pushOrders_eq]
        cases builder.orderByClauses.zipIdx.mapM OrderClause.fragment with
        | error err => rfl
        | ok orders =>
            have cut : builder.pushCut
                (((Fragment.join builder.keyFragments).append (Fragment.join wheres)).append
                  (Fragment.join (builder.orderKeyword ++ orders))) =
                Fragment.join (builder.keyFragments ++ wheres ++ builder.orderKeyword ++ orders ++
                  builder.cutFragments) := by
              rw [pushCut_eq]
              simp only [Fragment.join_append, Fragment.append_assoc]
            exact congrArg
              (fun buffer => Except.ok (Fragment.text buffer, Fragment.params buffer)) cut

end QueryBuilder

/-! ## Agreement with the compiled statement -/

/-- A condition after the first one. -/
def Condition.fragment (condition : Condition) : Fragment SqlValue :=
  ⟨" AND " ++ condition.sql, condition.params⟩

/-- A term with its number. -/
def OrderTerm.fragment (entry : OrderTerm × Nat) : Fragment SqlValue :=
  ⟨orderSeparator entry.2 ++ entry.1.sql, entry.1.params⟩

/-- The texts of the comparisons, with and without the conjunction. -/
theorem compareText (operator : String) :
    " AND " ++ ("json_extract(record_json, ?) " ++ operator ++ " ?") =
      " AND json_extract(record_json, ?) " ++ operator ++ " ?" := by
  have opening :
      " AND " ++ "json_extract(record_json, ?) " = " AND json_extract(record_json, ?) " := by
    decide
  rw [String.append_assoc, ← String.append_assoc, opening, String.append_assoc]

theorem whereText_eq (serde : SerdeJson) (clause : WhereJsonClause) :
    whereText clause.op clause.value.isNull = " AND " ++ (clause.test serde).sql := by
  rcases clause with ⟨fieldPath, op, value⟩
  have equals : " AND json_extract(record_json, ?) = ?" =
      " AND json_extract(record_json, ?) " ++ "=" ++ " ?" := by decide
  have differs : " AND json_extract(record_json, ?) IS NOT ?" =
      " AND json_extract(record_json, ?) " ++ "IS NOT" ++ " ?" := by decide
  have greater : " AND json_extract(record_json, ?) > ?" =
      " AND json_extract(record_json, ?) " ++ ">" ++ " ?" := by decide
  have greaterEqual : " AND json_extract(record_json, ?) >= ?" =
      " AND json_extract(record_json, ?) " ++ ">=" ++ " ?" := by decide
  have less : " AND json_extract(record_json, ?) < ?" =
      " AND json_extract(record_json, ?) " ++ "<" ++ " ?" := by decide
  have lessEqual : " AND json_extract(record_json, ?) <= ?" =
      " AND json_extract(record_json, ?) " ++ "<=" ++ " ?" := by decide
  have isNull : " AND json_extract(record_json, ?) IS NULL" =
      " AND " ++ "json_extract(record_json, ?) IS NULL" := by decide
  have isNotNull : " AND json_extract(record_json, ?) IS NOT NULL" =
      " AND " ++ "json_extract(record_json, ?) IS NOT NULL" := by decide
  have isContained : " AND json_extract(record_json, ?) LIKE ('%' || ? || '%') ESCAPE '\\'" =
      " AND " ++ "json_extract(record_json, ?) LIKE ('%' || ? || '%') ESCAPE '\\'" := by
    decide
  have isLike : " AND json_extract(record_json, ?) LIKE ?" =
      " AND " ++ "json_extract(record_json, ?) LIKE ?" := by decide
  cases op with
  | eq =>
      cases value with
      | null => exact isNull
      | _ => exact equals.trans (compareText "=").symm
  | ne =>
      cases value with
      | null => exact isNotNull
      | _ => exact differs.trans (compareText "IS NOT").symm
  | gt => exact greater.trans (compareText ">").symm
  | gte => exact greaterEqual.trans (compareText ">=").symm
  | lt => exact less.trans (compareText "<").symm
  | lte => exact lessEqual.trans (compareText "<=").symm
  | contains => cases value <;> exact isContained
  | like => exact isLike

theorem WhereJsonClause.bound_eq (serde : SerdeJson) (clause : WhereJsonClause) :
    clause.bound serde = (clause.test serde).params := by
  rcases clause with ⟨fieldPath, op, value⟩
  cases op <;> cases value <;> rfl

theorem WhereJsonClause.fragment_eq (serde : SerdeJson) (clause : WhereJsonClause) :
    clause.fragment serde = (clause.condition serde).map Condition.fragment := by
  have pieces : ∀ path, Condition.fragment (.json path (clause.test serde)) =
      ⟨whereText clause.op clause.value.isNull, .text path :: clause.bound serde⟩ := by
    intro path
    rw [Condition.fragment, Condition.sql, Condition.params, whereText_eq, bound_eq]
  unfold fragment condition
  cases normalizeJsonPath clause.fieldPath with
  | error err => rfl
  | ok path => simp only [Except.map, pieces]

theorem OrderTerm.sql_column (name : String) (direction : SortDirection) :
    (column name direction).sql = name ++ " " ++ direction.asSql :=
  rfl

theorem OrderTerm.sql_jsonPath (path : String) (direction : SortDirection) :
    (jsonPath path direction).sql = "json_extract(record_json, ?) " ++ direction.asSql :=
  rfl

theorem OrderTerm.fragment_column (name : String) (direction : SortDirection) (idx : Nat) :
    OrderTerm.fragment (.column name direction, idx) =
      ⟨orderSeparator idx ++ name ++ " " ++ direction.asSql, []⟩ := by
  rw [fragment, sql_column, String.append_assoc, String.append_assoc, String.append_assoc, params]

theorem OrderTerm.fragment_jsonPath (path : String) (direction : SortDirection) (idx : Nat) :
    OrderTerm.fragment (.jsonPath path direction, idx) =
      ⟨orderSeparator idx ++ "json_extract(record_json, ?) " ++ direction.asSql,
        [.text path]⟩ := by
  rw [fragment, sql_jsonPath, String.append_assoc, params]

theorem OrderClause.fragment_eq (entry : OrderClause × Nat) :
    OrderClause.fragment entry =
      entry.1.term.map fun term => OrderTerm.fragment (term, entry.2) := by
  rcases entry with ⟨clause, idx⟩
  unfold fragment term
  cases clause with
  | column name direction => simp only [Except.map, OrderTerm.fragment_column]
  | jsonPath rawPath direction =>
      dsimp only
      cases normalizeJsonPath rawPath with
      | error err => rfl
      | ok path => simp only [Except.map, OrderTerm.fragment_jsonPath]

theorem OrderClause.mapM_fragment (clauses : List OrderClause) (idx : Nat) :
    (clauses.zipIdx idx).mapM OrderClause.fragment =
      (clauses.mapM term).map fun terms => (terms.zipIdx idx).map OrderTerm.fragment := by
  induction clauses generalizing idx with
  | nil => rfl
  | cons clause clauses ih =>
      rw [List.zipIdx_cons, List.mapM_cons, List.mapM_cons, ih, fragment_eq]
      cases clause.term with
      | error err => rfl
      | ok first =>
          change _ = Except.map _ ((clauses.mapM term).map fun terms => first :: terms)
          cases clauses.mapM term <;> rfl

/-- Joining what follows the first condition. -/
theorem text_join_conditions (first : String) (conditions : List Condition) :
    " AND ".intercalate (first :: conditions.map Condition.sql) =
      first ++ (Fragment.join (conditions.map Condition.fragment)).text := by
  induction conditions generalizing first with
  | nil => rw [List.map_nil, String.intercalate_singleton, List.map_nil, Fragment.join,
      Fragment.empty, String.append_empty]
  | cons condition conditions ih =>
      rw [List.map_cons, String.intercalate_cons_cons, ih, List.map_cons, Fragment.text_join_cons,
        Condition.fragment, String.append_assoc, String.append_assoc]

theorem params_join_conditions (conditions : List Condition) :
    (Fragment.join (conditions.map Condition.fragment)).params =
      conditions.flatMap Condition.params := by
  induction conditions with
  | nil => rfl
  | cons condition conditions ih =>
      rw [List.map_cons, Fragment.params_join_cons, ih, List.flatMap_cons]
      rfl

theorem text_join_terms (terms : List OrderTerm) (idx : Nat) (first : String) :
    ", ".intercalate (first :: terms.map OrderTerm.sql) =
      first ++ (Fragment.join ((terms.zipIdx (idx + 1)).map OrderTerm.fragment)).text := by
  induction terms generalizing first idx with
  | nil => rw [List.map_nil, String.intercalate_singleton, List.zipIdx_nil, List.map_nil,
      Fragment.join, Fragment.empty, String.append_empty]
  | cons term terms ih =>
      have separator : orderSeparator (idx + 1) = ", " := if_pos (Nat.succ_pos idx)
      rw [List.map_cons, String.intercalate_cons_cons, ih (idx + 1), List.zipIdx_cons,
        List.map_cons, Fragment.text_join_cons, OrderTerm.fragment, separator, String.append_assoc,
        String.append_assoc]

theorem params_join_terms (terms : List OrderTerm) (idx : Nat) :
    (Fragment.join ((terms.zipIdx idx).map OrderTerm.fragment)).params =
      terms.flatMap OrderTerm.params := by
  induction terms generalizing idx with
  | nil => rfl
  | cons term terms ih =>
      rw [List.zipIdx_cons, List.map_cons, Fragment.params_join_cons, ih, List.flatMap_cons]
      rfl

namespace QueryBuilder

/-- The statement of a query with the given JSON conditions and terms. -/
def selectWith (builder : QueryBuilder) (conditions : List Condition) (orderBy : List OrderTerm) :
    Select :=
  { conditions := [.collection (Text.trim builder.collection)] ++
      (if builder.includeDeleted then [] else [.active]) ++ builder.didConditions ++ conditions
    orderBy := orderBy
    limit := builder.limit
    offset := builder.offset }

theorem select_eq_ok_iff {serde : SerdeJson} {builder : QueryBuilder} {result : Select} :
    builder.select serde = .ok result ↔
      (Text.trim builder.collection).isEmpty = false ∧
        ∃ conditions terms,
          builder.whereJsonClauses.mapM (fun clause => clause.condition serde) = .ok conditions ∧
            builder.orderByClauses.mapM OrderClause.term = .ok terms ∧
            result = builder.selectWith conditions terms := by
  rw [select]
  cases (Text.trim builder.collection).isEmpty with
  | true =>
      rw [if_pos rfl]
      constructor
      · intro absurd
        cases absurd
      · rintro ⟨absurd, _⟩
        cases absurd
  | false =>
      rw [if_neg Bool.false_ne_true, Except.bind_eq_ok_iff]
      constructor
      · rintro ⟨conditions, conditionsEq, rest⟩
        rcases Except.bind_eq_ok_iff.mp rest with ⟨terms, termsEq, done⟩
        exact ⟨rfl, conditions, terms, conditionsEq, termsEq, (Except.ok.inj done).symm⟩
      · rintro ⟨_, conditions, terms, conditionsEq, termsEq, rfl⟩
        exact ⟨conditions, conditionsEq, Except.bind_eq_ok_iff.mpr ⟨terms, termsEq, rfl⟩⟩

/-- The conditions on columns besides the collection. -/
def columnConditions (builder : QueryBuilder) : List Condition :=
  (if builder.includeDeleted then [] else [.active]) ++ builder.didConditions

/-- What is pushed for the terms. -/
def orderFragments (terms : List OrderTerm) : List (Fragment SqlValue) :=
  (if terms.isEmpty then [] else [⟨" ORDER BY ", []⟩]) ++ terms.zipIdx.map OrderTerm.fragment

theorem keyFragments_eq (builder : QueryBuilder) :
    builder.keyFragments =
      ⟨"SELECT uri, cid, did, collection, rkey, record_json, indexed_at, is_deleted FROM records WHERE collection = ?",
        [.text (Text.trim builder.collection)]⟩ ::
      builder.columnConditions.map Condition.fragment := by
  have active : Condition.fragment .active = ⟨" AND is_deleted = 0", []⟩ := by
    rw [Condition.fragment, Condition.params]
    exact congrArg (Fragment.mk · []) (by decide)
  have ofDid (did : String) : Condition.fragment (.did did) = ⟨" AND did = ?", [.text did]⟩ := by
    have text : " AND " ++ "did = ?" = " AND did = ?" := by decide
    exact congrArg (Fragment.mk · [SqlValue.text did]) text
  have keyDid : (builder.trimmedDid.toList.map fun did =>
      (⟨" AND did = ?", [.text did]⟩ : Fragment SqlValue)) =
      builder.didConditions.map Condition.fragment := by
    unfold trimmedDid didConditions
    cases builder.did with
    | none => rfl
    | some did =>
        dsimp only
        rw [Option.map_some, Option.filter_some]
        cases (Text.trim did).isEmpty with
        | true => rfl
        | false => exact congrArg (fun fragment => [fragment]) (ofDid (Text.trim did)).symm
  rw [keyFragments, keyDid, columnConditions, List.map_append, List.cons_append]
  cases builder.includeDeleted with
  | true => rfl
  | false => rw [if_neg Bool.false_ne_true, if_neg Bool.false_ne_true, List.map_singleton, active]

theorem orderFragments_text (terms : List OrderTerm) :
    (Fragment.join (orderFragments terms)).text =
      if terms.isEmpty then ""
      else " ORDER BY " ++ String.intercalate ", " (terms.map OrderTerm.sql) := by
  unfold orderFragments
  cases terms with
  | nil => rfl
  | cons term terms =>
      have first : (OrderTerm.fragment (term, 0)).text = term.sql := String.empty_append
      rw [List.isEmpty_cons, if_neg Bool.false_ne_true, if_neg Bool.false_ne_true,
        List.singleton_append, Fragment.text_join_cons, List.zipIdx_cons, List.map_cons,
        List.map_cons, Fragment.text_join_cons, first, text_join_terms terms 0]

theorem cutFragments_text (builder : QueryBuilder) (conditions : List Condition)
    (terms : List OrderTerm) :
    (Fragment.join builder.cutFragments).text =
      (builder.selectWith conditions terms).limitSql := by
  unfold Select.limitSql cutFragments selectWith
  dsimp only
  cases builder.limit with
  | none =>
      cases builder.offset with
      | none => rfl
      | some offset => exact String.append_empty
  | some limit =>
      cases builder.offset with
      | none => exact String.append_empty
      | some offset =>
          have both : " LIMIT ?" ++ " OFFSET ?" = " LIMIT ? OFFSET ?" := by decide
          exact (congrArg (" LIMIT ?" ++ ·) String.append_empty).trans both

theorem selectWith_conditions (builder : QueryBuilder) (conditions : List Condition)
    (terms : List OrderTerm) :
    (builder.selectWith conditions terms).conditions =
      .collection (Text.trim builder.collection) :: (builder.columnConditions ++ conditions) := by
  simp only [selectWith, columnConditions, List.append_assoc, List.cons_append, List.nil_append]

theorem selectWith_sql (builder : QueryBuilder) (conditions : List Condition)
    (terms : List OrderTerm) :
    (builder.selectWith conditions terms).sql =
      (Fragment.join (builder.keyFragments ++ conditions.map Condition.fragment ++
        orderFragments terms ++ builder.cutFragments)).text := by
  have opening :
      "SELECT uri, cid, did, collection, rkey, record_json, indexed_at, is_deleted FROM records WHERE "
        ++ "collection = ?" =
      "SELECT uri, cid, did, collection, rkey, record_json, indexed_at, is_deleted FROM records WHERE collection = ?" := by
    decide
  have assembled (keys wheres orders cut : String) {header first start : String}
      (starts : header ++ first = start) :
      header ++ (first ++ (keys ++ wheres)) ++ orders ++ cut =
        start ++ keys ++ wheres ++ orders ++ cut := by
    rw [← starts]
    simp only [String.append_assoc]
  have terms_eq : (builder.selectWith conditions terms).orderBy = terms := rfl
  unfold Select.sql
  rewrite [terms_eq, ← orderFragments_text, selectWith_conditions, List.map_cons,
    text_join_conditions, ← cutFragments_text, List.map_append, Fragment.join_append,
    Fragment.join_append, Fragment.join_append, Fragment.join_append, keyFragments_eq]
  exact assembled _ _ _ _ opening

theorem selectWith_params (builder : QueryBuilder) (conditions : List Condition)
    (terms : List OrderTerm) :
    (builder.selectWith conditions terms).params =
      (Fragment.join (builder.keyFragments ++ conditions.map Condition.fragment ++
        orderFragments terms ++ builder.cutFragments)).params := by
  have keyword : (Fragment.join (if terms.isEmpty then []
      else [(⟨" ORDER BY ", []⟩ : Fragment SqlValue)])).params = [] := by
    cases terms <;> rfl
  have cut : (Fragment.join builder.cutFragments).params =
      builder.limit.toList.map (fun limit => .integer limit.val) ++
        builder.offset.toList.map (fun offset => .integer offset.val) := by
    unfold cutFragments
    cases builder.limit <;> cases builder.offset <;> rfl
  rw [Select.params, selectWith_conditions, Fragment.join_append, Fragment.join_append,
    Fragment.join_append, keyFragments_eq, orderFragments, Fragment.join_append]
  simp only [Fragment.append, Fragment.params_join_cons, params_join_conditions, keyword,
    params_join_terms, cut, List.flatMap_cons, List.flatMap_append, List.nil_append,
    List.append_assoc]
  rfl

/-- The literal code and the rendering of the compiled statement agree. -/
theorem pushSql_eq_buildSql (serde : SerdeJson) (builder : QueryBuilder) :
    builder.pushSql serde = builder.buildSql serde := by
  rw [pushSql_eq, buildSql, select]
  split
  · rfl
  · rw [fragments, funext (WhereJsonClause.fragment_eq serde), Except.mapM_map,
      OrderClause.mapM_fragment]
    cases builder.whereJsonClauses.mapM fun clause => clause.condition serde with
    | error err => rfl
    | ok conditions =>
        cases termsEq : builder.orderByClauses.mapM OrderClause.term with
        | error err => rfl
        | ok terms =>
            have keyword : builder.orderKeyword ++ terms.zipIdx.map OrderTerm.fragment =
                orderFragments terms := by
              rw [orderKeyword, orderFragments, Except.isEmpty_of_mapM_ok termsEq]
            change Except.ok _ = Except.ok ((builder.selectWith conditions terms).sql,
              (builder.selectWith conditions terms).params)
            rw [selectWith_sql, selectWith_params, ← keyword]
            simp only [List.append_assoc]

end QueryBuilder

end Skybase.Index
