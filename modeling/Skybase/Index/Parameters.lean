import Skybase.Index.BuildSql

/-!
# The parameters of a query

Two builders of the same shape compile to the same text: which values they carry
shows in the parameters only.  In the text of a builder that its own methods
have built, the placeholders are as many as the parameters, and the placeholder
with a given number stands in what was pushed for the clause that the parameter
with that number belongs to.
-/

namespace Skybase.Index

open Skybase.Json
open Skybase.Template (Fragment marks markAt)

/-! ## Shapes -/

/-- What decides the text of a `where_json` clause. -/
def WhereJsonClause.shape (clause : WhereJsonClause) : QueryOp × Bool :=
  (clause.op, clause.value.isNull)

/-- What decides the text of an `order_by` clause: the column, if it names one,
and the direction. -/
def OrderClause.shape : OrderClause → Option String × SortDirection
  | column name direction => (some name, direction)
  | jsonPath _ direction => (none, direction)

/-- The text for an `order_by` clause of a shape, with its index. -/
def orderText : (Option String × SortDirection) × Nat → String
  | ((some name, direction), idx) => orderSeparator idx ++ name ++ " " ++ direction.asSql
  | ((none, direction), idx) =>
      orderSeparator idx ++ "json_extract(record_json, ?) " ++ direction.asSql

theorem WhereJsonClause.text_of_fragment {serde : SerdeJson} {clause : WhereJsonClause}
    {fragment : Fragment SqlValue} (pushed : clause.fragment serde = .ok fragment) :
    fragment.text = whereText clause.shape.1 clause.shape.2 := by
  unfold WhereJsonClause.fragment at pushed
  cases normal : normalizeJsonPath clause.fieldPath with
  | error err =>
      rw [normal] at pushed
      cases pushed
  | ok path =>
      rw [normal] at pushed
      cases pushed
      rfl

theorem OrderClause.text_of_fragment {entry : OrderClause × Nat} {fragment : Fragment SqlValue}
    (pushed : OrderClause.fragment entry = .ok fragment) :
    fragment.text = orderText (Prod.map shape id entry) := by
  rcases entry with ⟨clause, idx⟩
  unfold OrderClause.fragment at pushed
  cases clause with
  | column name direction =>
      cases pushed
      rfl
  | jsonPath rawPath direction =>
      dsimp only at pushed
      cases normal : normalizeJsonPath rawPath with
      | error err =>
          rw [normal] at pushed
          cases pushed
      | ok path =>
          rw [normal] at pushed
          cases pushed
          rfl

namespace QueryBuilder

/-- The builders agree in everything but the values that they bind. -/
structure SameShape (first second : QueryBuilder) : Prop where
  wheres : first.whereJsonClauses.map WhereJsonClause.shape =
    second.whereJsonClauses.map WhereJsonClause.shape
  orders : first.orderByClauses.map OrderClause.shape =
    second.orderByClauses.map OrderClause.shape
  did : first.trimmedDid.isSome = second.trimmedDid.isSome
  limit : first.limit.isSome = second.limit.isSome
  offset : first.offset.isSome = second.offset.isSome
  includeDeleted : first.includeDeleted = second.includeDeleted

/-- What a successful compilation returns. -/
theorem pushSql_eq_ok_iff {serde : SerdeJson} {builder : QueryBuilder} {sql : String}
    {params : List SqlValue} :
    builder.pushSql serde = .ok (sql, params) ↔
      (Text.trim builder.collection).isEmpty = false ∧
        ∃ fragments, builder.fragments serde = .ok fragments ∧
          (Fragment.join fragments).text = sql ∧ (Fragment.join fragments).params = params := by
  rw [pushSql_eq]
  cases (Text.trim builder.collection).isEmpty with
  | true =>
      rw [if_pos rfl]
      constructor
      · intro absurd
        cases absurd
      · rintro ⟨absurd, _⟩
        cases absurd
  | false =>
      rw [if_neg Bool.false_ne_true]
      cases builder.fragments serde with
      | error err =>
          constructor
          · intro absurd
            cases absurd
          · rintro ⟨_, _, absurd, _⟩
            cases absurd
      | ok fragments =>
          constructor
          · intro compiled
            cases compiled
            exact ⟨rfl, fragments, rfl, rfl, rfl⟩
          · rintro ⟨_, pushed, same, rfl, rfl⟩
            cases same
            rfl

/-- The fragments of a builder, clause by clause. -/
theorem fragments_eq_ok_iff {serde : SerdeJson} {builder : QueryBuilder}
    {fragments : List (Fragment SqlValue)} :
    builder.fragments serde = .ok fragments ↔
      ∃ wheres orders, builder.whereJsonClauses.mapM (WhereJsonClause.fragment serde) = .ok wheres ∧
        builder.orderByClauses.zipIdx.mapM OrderClause.fragment = .ok orders ∧
        fragments = builder.keyFragments ++ wheres ++ builder.orderKeyword ++ orders ++
          builder.cutFragments := by
  unfold QueryBuilder.fragments
  rw [Except.bind_eq_ok_iff]
  constructor
  · rintro ⟨wheres, wheresEq, rest⟩
    rcases Except.bind_eq_ok_iff.mp rest with ⟨orders, ordersEq, done⟩
    cases done
    exact ⟨wheres, orders, wheresEq, ordersEq, rfl⟩
  · rintro ⟨wheres, orders, wheresEq, ordersEq, rfl⟩
    exact ⟨wheres, wheresEq, Except.bind_eq_ok_iff.mpr ⟨orders, ordersEq, rfl⟩⟩

namespace SameShape

variable {first second : QueryBuilder}

theorem keyTexts (same : first.SameShape second) :
    first.keyFragments.map Fragment.text = second.keyFragments.map Fragment.text := by
  have didTexts (found : Option String) :
      (found.toList.map fun did => (⟨" AND did = ?", [.text did]⟩ : Fragment SqlValue)).map
        Fragment.text = if found.isSome then [" AND did = ?"] else [] := by
    cases found <;> rfl
  simp only [keyFragments, List.map_append, didTexts, same.did, same.includeDeleted, List.map_cons]

theorem orderKeyword (same : first.SameShape second) :
    first.orderKeyword = second.orderKeyword := by
  have empty : first.orderByClauses.isEmpty = second.orderByClauses.isEmpty := by
    rw [← List.isEmpty_map (f := OrderClause.shape), same.orders, List.isEmpty_map]
  rw [QueryBuilder.orderKeyword, QueryBuilder.orderKeyword, empty]

theorem whereTexts {serde : SerdeJson} (same : first.SameShape second)
    {wheres others : List (Fragment SqlValue)}
    (pushed : first.whereJsonClauses.mapM (WhereJsonClause.fragment serde) = .ok wheres)
    (otherPushed : second.whereJsonClauses.mapM (WhereJsonClause.fragment serde) = .ok others) :
    wheres.map Fragment.text = others.map Fragment.text := by
  have texts {clauses : List WhereJsonClause} {results : List (Fragment SqlValue)}
      (results_eq : clauses.mapM (WhereJsonClause.fragment serde) = .ok results) :
      results.map Fragment.text =
        (clauses.map WhereJsonClause.shape).map fun shape => whereText shape.1 shape.2 := by
    rw [List.map_map]
    exact Except.map_of_mapM_ok (fun _ _ _ => WhereJsonClause.text_of_fragment) results_eq
  rw [texts pushed, texts otherPushed, same.wheres]

theorem orderTexts (same : first.SameShape second) {orders others : List (Fragment SqlValue)}
    (pushed : first.orderByClauses.zipIdx.mapM OrderClause.fragment = .ok orders)
    (otherPushed : second.orderByClauses.zipIdx.mapM OrderClause.fragment = .ok others) :
    orders.map Fragment.text = others.map Fragment.text := by
  have texts {clauses : List OrderClause} {results : List (Fragment SqlValue)}
      (results_eq : clauses.zipIdx.mapM OrderClause.fragment = .ok results) :
      results.map Fragment.text = (clauses.map OrderClause.shape).zipIdx.map orderText := by
    rw [List.zipIdx_map, List.map_map]
    exact Except.map_of_mapM_ok (fun _ _ _ => OrderClause.text_of_fragment) results_eq
  rw [texts pushed, texts otherPushed, same.orders]

theorem cutTexts (same : first.SameShape second) :
    first.cutFragments.map Fragment.text = second.cutFragments.map Fragment.text := by
  have texts (builder : QueryBuilder) : builder.cutFragments.map Fragment.text =
      match builder.limit.isSome, builder.offset.isSome with
      | true, true => [" LIMIT ?", " OFFSET ?"]
      | true, false => [" LIMIT ?"]
      | false, true => [" LIMIT -1 OFFSET ?"]
      | false, false => [] := by
    unfold cutFragments
    cases builder.limit <;> cases builder.offset <;> rfl
  rw [texts, texts, same.limit, same.offset]

/-- Builders of the same shape compile to the same text. -/
theorem sql_eq {serde : SerdeJson} (same : first.SameShape second) {firstSql secondSql : String}
    {firstParams secondParams : List SqlValue}
    (firstEq : first.pushSql serde = .ok (firstSql, firstParams))
    (secondEq : second.pushSql serde = .ok (secondSql, secondParams)) : firstSql = secondSql := by
  rcases pushSql_eq_ok_iff.mp firstEq with ⟨_, firstFragments, firstPushed, rfl, _⟩
  rcases pushSql_eq_ok_iff.mp secondEq with ⟨_, secondFragments, secondPushed, rfl, _⟩
  rcases fragments_eq_ok_iff.mp firstPushed with ⟨wheres, orders, wheresEq, ordersEq, rfl⟩
  rcases fragments_eq_ok_iff.mp secondPushed with ⟨wheres', orders', wheresEq', ordersEq', rfl⟩
  apply Fragment.text_join_eq
  simp only [List.map_append, same.keyTexts, same.whereTexts wheresEq wheresEq',
    same.orderKeyword, same.orderTexts ordersEq ordersEq', same.cutTexts]

end SameShape

end QueryBuilder

/-! ## Placeholders -/

/-- The columns that `order_by` recognizes. -/
def columnNames : List String := ["indexed_at", "uri", "did", "collection", "rkey", "cid"]

/-- A clause on a column names one of the table. -/
def OrderClause.NamesColumn : OrderClause → Prop
  | column name _ => name ∈ columnNames
  | jsonPath _ _ => True

theorem balanced_of_names {name : String} (known : name ∈ columnNames) : marks '?' name = 0 := by
  have unmarked : columnNames.all (fun name => marks '?' name = 0) = true := by decide
  exact of_decide_eq_true (List.all_eq_true.mp unmarked name known)

/-- How many values a `where_json` clause binds besides its path. -/
def boundCount : QueryOp → Bool → Nat
  | .eq, true => 0
  | .ne, true => 0
  | _, _ => 1

theorem WhereJsonClause.length_bound (serde : SerdeJson) (clause : WhereJsonClause) :
    (clause.bound serde).length = boundCount clause.op clause.value.isNull := by
  unfold bound
  cases clause.op <;> cases clause.value.isNull <;> rfl

theorem marks_whereText (op : QueryOp) (isNull : Bool) :
    marks '?' (whereText op isNull) = boundCount op isNull + 1 := by
  cases op <;> cases isNull <;> decide +kernel

theorem WhereJsonClause.balanced_of_fragment {serde : SerdeJson} {clause : WhereJsonClause}
    {fragment : Fragment SqlValue} (pushed : clause.fragment serde = .ok fragment) :
    fragment.Balanced '?' := by
  unfold WhereJsonClause.fragment at pushed
  cases normal : normalizeJsonPath clause.fieldPath with
  | error err =>
      rw [normal] at pushed
      cases pushed
  | ok path =>
      rw [normal] at pushed
      cases pushed
      rw [Fragment.Balanced, marks_whereText, List.length_cons, length_bound]

theorem marks_orderSeparator (idx : Nat) : marks '?' (orderSeparator idx) = 0 := by
  unfold orderSeparator
  split <;> decide

theorem marks_asSql (direction : SortDirection) : marks '?' direction.asSql = 0 := by
  cases direction <;> decide

theorem OrderClause.balanced_of_fragment {entry : OrderClause × Nat} {fragment : Fragment SqlValue}
    (named : entry.1.NamesColumn) (pushed : OrderClause.fragment entry = .ok fragment) :
    fragment.Balanced '?' := by
  rcases entry with ⟨clause, idx⟩
  unfold OrderClause.fragment at pushed
  cases clause with
  | column name direction =>
      cases pushed
      have space : marks '?' " " = 0 := by decide
      rw [Fragment.Balanced]
      simp only [Fragment.marks_append, marks_orderSeparator, balanced_of_names named, space,
        marks_asSql, List.length_nil]
  | jsonPath rawPath direction =>
      dsimp only at pushed
      cases normal : normalizeJsonPath rawPath with
      | error err =>
          rw [normal] at pushed
          cases pushed
      | ok path =>
          rw [normal] at pushed
          cases pushed
          have extract : marks '?' "json_extract(record_json, ?) " = 1 := by decide
          rw [Fragment.Balanced]
          simp only [Fragment.marks_append, marks_orderSeparator, extract, marks_asSql,
            List.length_singleton]

namespace QueryBuilder

/-- The builders that the methods of `QueryBuilder` build. -/
inductive Built : QueryBuilder → Prop
  | new (collection : String) : Built (new collection)
  | did {builder : QueryBuilder} (did : String) : Built builder → Built (builder.withDid did)
  | whereJson {builder : QueryBuilder} (fieldPath : String) (op : QueryOp) (value : Value) :
      Built builder → Built (builder.whereJson fieldPath op value)
  | orderBy {builder : QueryBuilder} (field : String) (direction : SortDirection) :
      Built builder → Built (builder.orderBy field direction)
  | limit {builder : QueryBuilder} (limit : U32) : Built builder → Built (builder.withLimit limit)
  | offset {builder : QueryBuilder} (offset : U32) :
      Built builder → Built (builder.withOffset offset)
  | includeDeleted {builder : QueryBuilder} (included : Bool) :
      Built builder → Built (builder.withIncludeDeleted included)

/-- `order_by` takes a field for a column only if the table has the column. -/
theorem Built.namesColumn {builder : QueryBuilder} (built : builder.Built) :
    ∀ clause ∈ builder.orderByClauses, clause.NamesColumn := by
  induction built with
  | new collection =>
      intro clause absurd
      cases absurd
  | did did _ ih => exact ih
  | whereJson fieldPath op value _ ih => exact ih
  | orderBy field direction _ ih =>
      intro clause mem
      rcases List.mem_append.mp mem with earlier | last
      · exact ih clause earlier
      · rw [List.mem_singleton.mp last]
        split
        · next known => exact known
        · trivial
  | limit limit _ ih => exact ih
  | offset offset _ ih => exact ih
  | includeDeleted included _ ih => exact ih

theorem keyFragments_balanced (builder : QueryBuilder) :
    ∀ fragment ∈ builder.keyFragments, fragment.Balanced '?' := by
  have opening : marks '?'
      "SELECT uri, cid, did, collection, rkey, record_json, indexed_at, is_deleted FROM records WHERE collection = ?" =
        1 := by
    decide +kernel
  have active : marks '?' " AND is_deleted = 0" = 0 := by decide
  have ofDid : marks '?' " AND did = ?" = 1 := by decide
  intro fragment mem
  rw [keyFragments, List.mem_append, List.mem_cons, List.mem_map] at mem
  rcases mem with (rfl | mem) | ⟨did, _, rfl⟩
  · exact opening
  · split at mem
    · cases mem
    · cases List.mem_singleton.mp mem
      exact active
  · exact ofDid

theorem orderKeyword_balanced (builder : QueryBuilder) :
    ∀ fragment ∈ builder.orderKeyword, fragment.Balanced '?' := by
  have keyword : marks '?' " ORDER BY " = 0 := by decide
  intro fragment mem
  unfold orderKeyword at mem
  split at mem
  · cases mem
  · cases List.mem_singleton.mp mem
    exact keyword

theorem cutFragments_balanced (builder : QueryBuilder) :
    ∀ fragment ∈ builder.cutFragments, fragment.Balanced '?' := by
  have limited : marks '?' " LIMIT ?" = 1 := by decide
  have shifted : marks '?' " OFFSET ?" = 1 := by decide
  have onlyShifted : marks '?' " LIMIT -1 OFFSET ?" = 1 := by decide
  intro fragment mem
  unfold cutFragments at mem
  split at mem
  · rcases List.mem_pair.mp mem with rfl | rfl
    · exact limited
    · exact shifted
  · cases List.mem_singleton.mp mem
    exact limited
  · cases List.mem_singleton.mp mem
    exact onlyShifted
  · cases mem

/-- Everything that a built query pushes is balanced. -/
theorem Built.fragments_balanced {serde : SerdeJson} {builder : QueryBuilder}
    (built : builder.Built) {fragments : List (Fragment SqlValue)}
    (pushed : builder.fragments serde = .ok fragments) :
    ∀ fragment ∈ fragments, fragment.Balanced '?' := by
  rcases fragments_eq_ok_iff.mp pushed with ⟨wheres, orders, wheresEq, ordersEq, rfl⟩
  intro fragment mem
  simp only [List.mem_append] at mem
  rcases mem with (((key | isWhere) | keyword) | isOrder) | cut
  · exact builder.keyFragments_balanced fragment key
  · rcases Except.exists_of_mapM_ok wheresEq fragment isWhere with ⟨clause, _, clauseEq⟩
    exact WhereJsonClause.balanced_of_fragment clauseEq
  · exact builder.orderKeyword_balanced fragment keyword
  · rcases Except.exists_of_mapM_ok ordersEq fragment isOrder with ⟨entry, entryMem, entryEq⟩
    have clauseMem : entry.1 ∈ builder.orderByClauses :=
      List.fst_mem_of_mem_zipIdx entryMem
    exact OrderClause.balanced_of_fragment (built.namesColumn entry.1 clauseMem) entryEq
  · exact builder.cutFragments_balanced fragment cut

/-- The text of a query depends on its shape alone.  The text and the parameters
of a built query are what was pushed for its clauses, in their order.  In the text
there is one placeholder for each parameter, and the placeholder with the number
of a parameter stands in what was pushed for one clause, where that clause has the
placeholder for the parameter that it brings. -/
theorem pushSql_parameterized (serde : SerdeJson) :
    (∀ first second firstSql firstParams secondSql secondParams, SameShape first second →
      first.pushSql serde = .ok (firstSql, firstParams) →
      second.pushSql serde = .ok (secondSql, secondParams) → firstSql = secondSql) ∧
    ∀ builder sql params, Built builder → builder.pushSql serde = .ok (sql, params) →
      ∃ fragments, builder.fragments serde = .ok fragments ∧
        sql = (Fragment.join fragments).text ∧ params = (Fragment.join fragments).params ∧
        marks '?' sql = params.length ∧
        ∀ number < params.length, ∃ before fragment after place position,
          fragments = before ++ fragment :: after ∧
            place < fragment.params.length ∧ params[number]? = fragment.params[place]? ∧
            markAt '?' fragment.text.toList place = some position ∧
            markAt '?' sql.toList number =
              some ((Fragment.join before).text.toList.length + position) := by
  constructor
  · intro first second firstSql firstParams secondSql secondParams same firstEq secondEq
    exact same.sql_eq firstEq secondEq
  · intro builder sql params built compiled
    rcases pushSql_eq_ok_iff.mp compiled with ⟨_, fragments, pushed, rfl, rfl⟩
    have balanced := built.fragments_balanced pushed
    refine ⟨fragments, pushed, rfl, rfl, Fragment.balanced_join balanced, ?_⟩
    intro number bound
    exact Template.exists_fragment_of_lt balanced bound

/-- The newest flagged records of an author. -/
def newestFlagged (collection did path : String) (value : Value) (limit : U32) : QueryBuilder :=
  ((((new collection).withDid did).whereJson path .eq value).orderBy "indexed_at" .desc).withLimit
    limit

theorem built_newestFlagged (collection did path : String) (value : Value) (limit : U32) :
    (newestFlagged collection did path value limit).Built :=
  ((((Built.new collection).did did).whereJson path .eq value).orderBy "indexed_at" .desc).limit
    limit

/-- The text of `newestFlagged`. -/
def newestFlaggedSql : String :=
  "SELECT uri, cid, did, collection, rkey, record_json, indexed_at, is_deleted FROM records " ++
    "WHERE collection = ? AND is_deleted = 0 AND did = ? AND json_extract(record_json, ?) = ? " ++
    "ORDER BY indexed_at DESC LIMIT ?"

theorem pushSql_alice :
    (newestFlagged "app.bsky.feed.post" "did:plc:alice" "pinned" (.bool true) 5).pushSql .scalars =
      .ok (newestFlaggedSql, [.text "app.bsky.feed.post", .text "did:plc:alice",
        .text "$.pinned", .integer 1, .integer 5]) := by
  decide +kernel

theorem pushSql_quoted :
    (newestFlagged "' OR 1 = 1 --" "?" "[0].hidden" (.bool false) 0).pushSql .scalars =
      .ok (newestFlaggedSql, [.text "' OR 1 = 1 --", .text "?", .text "$[0].hidden", .integer 0,
        .integer 0]) := by
  decide +kernel

theorem pushSql_parameterized_newestFlagged :
    ((newestFlagged "app.bsky.feed.post" "did:plc:alice" "pinned" (.bool true) 5).pushSql
        .scalars).map Prod.fst =
      ((newestFlagged "' OR 1 = 1 --" "?" "[0].hidden" (.bool false) 0).pushSql
        .scalars).map Prod.fst ∧
      marks '?' newestFlaggedSql = 5 := by
  have parameterized := pushSql_parameterized .scalars
  constructor
  · rw [pushSql_alice, pushSql_quoted]
    refine congrArg Except.ok (parameterized.1 _ _ _ _ _ _ ?_ pushSql_alice pushSql_quoted)
    exact ⟨rfl, rfl, by decide, rfl, rfl, rfl⟩
  · rcases parameterized.2 _ _ _ (built_newestFlagged _ _ _ _ _) pushSql_alice with
      ⟨fragments, pushed, sql_eq, params_eq, counted, placed⟩
    exact counted

end QueryBuilder

end Skybase.Index
