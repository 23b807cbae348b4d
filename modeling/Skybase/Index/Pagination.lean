import Skybase.Index.BuildSql
import Skybase.Index.Json1
import Skybase.Paging.Core

/-!
# Pages of a query

A query is read page by page, each page with a limit and an offset of its own
and from an execution of its own.  Rows that tie under the terms of the query may
come in another order at each execution, so the pages return the rows of the
query, each once, exactly if no page ends inside a group of ties.
-/

namespace Skybase.Index

open Skybase.Json
open Skybase.Paging

/-- The query for the page with the given number. -/
def QueryBuilder.page (builder : QueryBuilder) (size : U32) (number : Nat) : QueryBuilder :=
  (builder.withLimit size).withOffset (Fin.ofNat (2 ^ 32) (number * size.val))

/-- The statement for the page with the given number. -/
def Select.page (select : Select) (size : U32) (number : Nat) : Select :=
  { select with limit := some size, offset := some (Fin.ofNat (2 ^ 32) (number * size.val)) }

theorem QueryBuilder.select_page {serde : SerdeJson} {builder : QueryBuilder} {select : Select}
    (compiled : builder.select serde = .ok select) (size : U32) (number : Nat) :
    (builder.page size number).select serde = .ok (select.page size number) := by
  rcases select_eq_ok_iff.mp compiled with ⟨named, conditions, terms, conditionsEq, termsEq, rfl⟩
  exact select_eq_ok_iff.mpr ⟨named, conditions, terms, conditionsEq, termsEq, rfl⟩

theorem QueryBuilder.uncut_of_select {serde : SerdeJson} {builder : QueryBuilder} {select : Select}
    (compiled : builder.select serde = .ok select) (unlimited : builder.limit = none)
    (unshifted : builder.offset = none) : select.uncut = select := by
  rcases select_eq_ok_iff.mp compiled with ⟨_, conditions, terms, _, _, rfl⟩
  rw [Select.uncut, selectWith, unlimited, unshifted]

theorem Select.cut_page {α : Type} (select : Select) {size : U32} {number : Nat}
    (inRange : number * size.val < 2 ^ 32) (rows : List α) :
    (select.page size number).cut rows = Paging.page size.val number rows := by
  have offset : (Fin.ofNat (2 ^ 32) (number * size.val)).val = number * size.val :=
    Nat.mod_eq_of_lt inRange
  rw [cut, Select.page, Paging.page]
  dsimp only
  rw [Option.elim_some, offset]

namespace Json1

/-- The rows that a statement selects, in an order that its terms allow, are an
arrangement of the selected rows. -/
theorem isArranged_iff {json1 : Json1} {select : Select} {records : Records}
    {entries : List Entry} :
    json1.IsArranged select records entries ↔
      Arranged (json1.le select.orderBy) (json1.selected select records) entries := by
  constructor
  · intro arranged
    have nodup := json1.nodup_selected select records
    refine ⟨(List.perm_ext_iff_of_nodup arranged.nodup nodup).mpr ?_, arranged.sorted⟩
    rintro ⟨uri, row⟩
    rw [arranged.mem_iff, mem_selected_iff]
  · intro arranged
    refine ⟨arranged.perm.nodup_iff.mpr (json1.nodup_selected select records), ?_, arranged.sorted⟩
    intro uri row
    rw [arranged.perm.mem_iff, mem_selected_iff]

/-- The cut of a statement does not change which arrangements there are. -/
theorem isArranged_page_iff {json1 : Json1} {select : Select} {size : U32} {number : Nat}
    {records : Records} {entries : List Entry} :
    json1.IsArranged (select.page size number) records entries ↔
      json1.IsArranged select records entries := by
  constructor
  · intro arranged
    exact ⟨arranged.nodup, arranged.mem_iff, arranged.sorted⟩
  · intro arranged
    exact ⟨arranged.nodup, arranged.mem_iff, arranged.sorted⟩

/-- Every row that the statement selects can be read. -/
def AllReadable (json1 : Json1) (serde : SerdeJson) (select : Select) (records : Records) : Prop :=
  ∀ entry ∈ json1.selected select records, ∃ result, readEntry serde entry = .ok result

end Json1

section Pages

variable {json1 : Json1} {serde : SerdeJson} {sqlite : Sqlite} {builder : QueryBuilder}
  {select : Select} {size : U32} {store : RecordStore}

/-- The pages cut from arrangements of the selected rows are collected until one
is empty. -/
theorem exists_paged (compiled : builder.select serde = .ok select) (positive : 0 < size.val)
    (readable : json1.AllReadable serde select store.records) {arrangements : Nat → List Entry}
    (arranged : ∀ number, Arranged (json1.le select.orderBy)
      (json1.selected select store.records) (arrangements number))
    {count : Nat}
    (count_eq : count = pageCount size.val (json1.selected select store.records).length)
    (delivered : ∀ number ≤ count, sqlite (select.page size number) store.records =
      (Paging.page size.val number (arrangements number), none)) :
    ∃ all, Paged (fun number => (builder.page size number).execute serde sqlite store) 0 all ∧
      (collected size.val arrangements count).mapM (readEntry serde) = .ok all := by
  have pageReadable (number : Nat) : ∃ results,
      (Paging.page size.val number (arrangements number)).mapM (readEntry serde) = .ok results := by
    apply Except.mapM_ok_of_forall
    intro entry mem
    have inArrangement := List.mem_of_mem_drop (List.mem_of_mem_take mem)
    exact readable entry ((arranged number).perm.mem_iff.mp inArrangement)
  choose pages pages_eq using pageReadable
  have emptyIff (number : Nat) : pages number = [] ↔
      (json1.selected select store.records).length ≤ number * size.val := by
    rw [← List.isEmpty_iff, ← Except.isEmpty_of_mapM_ok (pages_eq number), List.isEmpty_iff,
      page_eq_nil_iff positive, (arranged number).perm.length_eq]
  refine ⟨(List.range count).flatMap pages, paged_of_pages ?_ ?_ ?_, ?_⟩
  · intro number bound
    refine QueryBuilder.execute_eq_ok_iff.mpr
      ⟨select.page size number, builder.select_page compiled size number, ?_, ?_⟩
    · rw [delivered number bound]
    · rw [delivered number bound]
      exact pages_eq number
  · intro number before
    rw [Ne, emptyIff, not_le]
    exact mul_lt_of_lt_pageCount positive (count_eq ▸ before)
  · rw [emptyIff, count_eq]
    exact le_pageCount_mul positive _
  · clear delivered count_eq
    induction count with
    | zero => rfl
    | succ count ih =>
        rw [collected_succ, List.range_succ, List.flatMap_append, List.flatMap_singleton]
        exact Except.mapM_append_ok ih (pages_eq count)

/-- The entry that a record was read from. -/
def entryOf (records : Records) (result : RecordRow) : Option Entry :=
  (records.lookup result.uri).map fun row => (result.uri, row)

theorem map_entryOf {entries : List Entry} {rows : List RecordRow}
    (stored : ∀ entry ∈ entries, store.records.lookup entry.1 = some entry.2)
    (mapped : entries.mapM (readEntry serde) = .ok rows) :
    rows.map (entryOf store.records) = entries.map some := by
  refine Except.map_of_mapM_ok ?_ mapped
  intro entry mem result read
  rw [entryOf, uri_of_mapRecordRow read, stored entry mem, Option.map_some]

theorem Select.page_injective {first second : Nat} (firstInRange : first * size.val < 2 ^ 32)
    (secondInRange : second * size.val < 2 ^ 32) (positive : 0 < size.val)
    (same : select.page size first = select.page size second) : first = second := by
  have offsets := congrArg Fin.val (Option.some.inj (congrArg Select.offset same))
  have product : first * size.val = second * size.val := by
    rw [Fin.val_ofNat, Fin.val_ofNat, Nat.mod_eq_of_lt firstInRange,
      Nat.mod_eq_of_lt secondInRange] at offsets
    exact offsets
  exact Nat.eq_of_mul_eq_mul_right positive product

/-- The pages of an execution are cut from arrangements of the selected rows. -/
theorem Json1.Executes.page_delivered (executes : json1.Executes sqlite)
    (succeeded : (sqlite select.uncut store.records).2 = none) {number : Nat}
    (inRange : number * size.val < 2 ^ 32) :
    ∃ arrangement, Arranged (json1.le select.orderBy) (json1.selected select store.records)
        arrangement ∧
      sqlite (select.page size number) store.records =
        (Paging.page size.val number arrangement, none) := by
  have pageSucceeded := executes.cut_succeeds (select.page size number) store.records succeeded
  rcases executes.delivers (select.page size number) store.records pageSucceeded with
    ⟨arrangement, arranged, delivered⟩
  refine ⟨arrangement, Json1.isArranged_iff.mp (Json1.isArranged_page_iff.mp arranged),
    Prod.ext ?_ pageSucceeded⟩
  rw [delivered, select.cut_page inRange]

/-- Some execution cuts the pages from given arrangements. -/
theorem exists_execution {count : Nat} (inRange : count * size.val < 2 ^ 32)
    (positive : 0 < size.val) {arrangements : Nat → List Entry}
    (arranged : ∀ number, Arranged (json1.le select.orderBy)
      (json1.selected select store.records) (arrangements number)) :
    ∃ sqlite, json1.Executes sqlite ∧ (∀ other records, (sqlite other records).2 = none) ∧
      ∀ number ≤ count, sqlite (select.page size number) store.records =
        (Paging.page size.val number (arrangements number), none) := by
  classical
  have offsets {number : Nat} (bound : number ≤ count) : number * size.val < 2 ^ 32 :=
    (Nat.mul_le_mul_right size.val bound).trans_lt inRange
  let arrange (other : Select) (records : Records) : List Entry :=
    if paged : records = store.records ∧ ∃ number ≤ count, other = select.page size number then
      arrangements paged.2.choose
    else json1.arrange other records
  have isArranged : ∀ other records, json1.IsArranged other records (arrange other records) := by
    intro other records
    dsimp only [arrange]
    split
    · next paged =>
        obtain ⟨rfl, isPage⟩ := paged
        have isPage_eq := isPage.choose_spec.2
        generalize isPage.choose = number at isPage_eq
        subst isPage_eq
        exact Json1.isArranged_page_iff.mpr (Json1.isArranged_iff.mpr (arranged number))
    · exact json1.isArranged_arrange other records
  refine ⟨Json1.execution arrange, Json1.executes_execution isArranged, fun _ _ => rfl, ?_⟩
  intro number bound
  have paged : store.records = store.records ∧
      ∃ other ≤ count, select.page size number = select.page size other := ⟨rfl, number, bound, rfl⟩
  have same : paged.2.choose = number :=
    (Select.page_injective (offsets bound) (offsets paged.2.choose_spec.1) positive
      paged.2.choose_spec.2).symm
  have chosen : arrange (select.page size number) store.records = arrangements number := by
    dsimp only [arrange]
    rw [dif_pos paged, same]
  rw [Json1.execution, chosen, select.cut_page (offsets bound)]

/-- A query that is not cut returns the records of an arrangement. -/
theorem QueryBuilder.exists_arranged_of_execute (compiled : builder.select serde = .ok select)
    (uncut : select.uncut = select) (executes : json1.Executes sqlite) {rows : List RecordRow}
    (executed : builder.execute serde sqlite store = .ok rows) :
    (sqlite select store.records).2 = none ∧
      ∃ entries, json1.IsArranged select store.records entries ∧
        entries.mapM (readEntry serde) = .ok rows := by
  rcases QueryBuilder.execute_eq_ok_iff.mp executed with ⟨other, otherEq, succeeded, mapped⟩
  obtain rfl : other = select := Except.ok.inj (otherEq.symm.trans compiled)
  rcases executes.delivers other store.records succeeded with ⟨entries, whole, entries_eq⟩
  have cut_eq : other.cut entries = entries := by
    rw [← uncut]
    rfl
  rw [entries_eq, cut_eq] at mapped
  exact ⟨succeeded, entries, whole, mapped⟩

/-- A query whose rows can all be read returns the records of an arrangement. -/
theorem QueryBuilder.exists_execute (compiled : builder.select serde = .ok select)
    (uncut : select.uncut = select) (executes : json1.Executes sqlite)
    (succeeded : (sqlite select store.records).2 = none)
    (readable : json1.AllReadable serde select store.records) :
    ∃ entries rows, json1.IsArranged select store.records entries ∧
      entries.mapM (readEntry serde) = .ok rows ∧
      builder.execute serde sqlite store = .ok rows := by
  rcases executes.delivers select store.records succeeded with ⟨entries, whole, entries_eq⟩
  have cut_eq : select.cut entries = entries := by
    rw [← uncut]
    rfl
  have perm := (Json1.isArranged_iff.mp whole).perm
  rcases Except.mapM_ok_of_forall fun entry mem => readable entry (perm.mem_iff.mp mem) with
    ⟨rows, mapped⟩
  have delivered : (sqlite select store.records).1.mapM (readEntry serde) = .ok rows := by
    rw [entries_eq, cut_eq, mapped]
  exact ⟨entries, rows, whole, mapped,
    QueryBuilder.execute_eq_ok_iff.mpr ⟨select, compiled, succeeded, delivered⟩⟩

/-- A query that returns records reads every row that it selects. -/
theorem allReadable_of_arranged {entries : List Entry} {rows : List RecordRow}
    (whole : json1.IsArranged select store.records entries)
    (mapped : entries.mapM (readEntry serde) = .ok rows) :
    json1.AllReadable serde select store.records := by
  intro entry mem
  have inArrangement := (Json1.isArranged_iff.mp whole).perm.mem_iff.mpr mem
  rcases Except.ok_of_mapM_ok mapped entry inArrangement with ⟨result, _, result_eq⟩
  exact ⟨result, result_eq⟩

/-- If a boundary splits rows that tie, then some execution of the pages does not
return the rows of the query. -/
theorem exists_paged_not_perm (compiled : builder.select serde = .ok select)
    (uncut : select.uncut = select) (positive : 0 < size.val)
    (readable : json1.AllReadable serde select store.records)
    (inRange : pageCount size.val (json1.selected select store.records).length * size.val < 2 ^ 32)
    {number : Nat} (split : Splits (json1.le select.orderBy) (json1.selected select store.records)
      (number * size.val)) :
    ∃ sqlite, json1.Executes sqlite ∧ ∃ rows all, builder.execute serde sqlite store = .ok rows ∧
      Paged (fun number => (builder.page size number).execute serde sqlite store) 0 all ∧
      ¬ all.Perm rows := by
  have notExact := (collected_perm_iff (json1.le_total select.orderBy)
    (fun _ _ _ => json1.le_trans) (json1.nodup_selected select store.records)
    (le_pageCount_mul positive _)).not.mpr fun unsplit => unsplit number split
  push Not at notExact
  rcases notExact with ⟨arrangements, arranged, notPerm⟩
  rcases exists_execution inRange positive arranged with ⟨sqlite, executes, succeeds, delivered⟩
  rcases exists_paged compiled positive readable arranged rfl delivered with
    ⟨all, paged, collectedMapped⟩
  rcases builder.exists_execute compiled uncut executes (succeeds _ _) readable with
    ⟨entries, rows, whole, mapped, executed⟩
  refine ⟨sqlite, executes, rows, all, executed, paged, ?_⟩
  intro perm
  have stored : ∀ entry ∈ entries, store.records.lookup entry.1 = some entry.2 :=
    fun entry mem => ((whole.mem_iff entry.1 entry.2).mp mem).1
  have collectedStored : ∀ entry ∈ collected size.val arrangements
      (pageCount size.val (json1.selected select store.records).length),
      store.records.lookup entry.1 = some entry.2 := by
    intro entry mem
    rcases List.mem_flatMap.mp mem with ⟨page, _, onPage⟩
    have inArrangement := List.mem_of_mem_drop (List.mem_of_mem_take onPage)
    have chosen := (arranged page).perm.mem_iff.mp inArrangement
    exact (Json1.mem_selected_iff.mp chosen).1
  have entriesPerm := perm.map (entryOf store.records)
  rw [map_entryOf collectedStored collectedMapped, map_entryOf stored mapped,
    List.map_perm_map_iff (Option.some_injective Entry)] at entriesPerm
  exact notPerm (entriesPerm.trans (Json1.isArranged_iff.mp whole).perm)

/-- The pages of a query return the rows of the query, each once, in every
execution, exactly if no boundary between pages splits rows that tie, or a row
cannot be read, so that the query returns nothing. -/
theorem pages_perm_iff (compiled : builder.select serde = .ok select)
    (unlimited : builder.limit = none) (unshifted : builder.offset = none)
    (positive : 0 < size.val)
    (inRange :
      pageCount size.val (json1.selected select store.records).length * size.val < 2 ^ 32) :
    (∀ sqlite, json1.Executes sqlite → ∀ rows, builder.execute serde sqlite store = .ok rows →
        ∃ all, Paged (fun number => (builder.page size number).execute serde sqlite store) 0 all ∧
          all.Perm rows) ↔
      (json1.AllReadable serde select store.records →
        ∀ number, ¬ Splits (json1.le select.orderBy) (json1.selected select store.records)
          (number * size.val)) := by
  have uncut := QueryBuilder.uncut_of_select compiled unlimited unshifted
  constructor
  · intro exact readable number split
    rcases exists_paged_not_perm compiled uncut positive readable inRange split with
      ⟨sqlite, executes, rows, all, executed, paged, notPerm⟩
    rcases exact sqlite executes rows executed with ⟨other, otherPaged, perm⟩
    exact notPerm (paged.unique otherPaged ▸ perm)
  · intro unsplit sqlite executes rows executed
    rcases builder.exists_arranged_of_execute compiled uncut executes executed with
      ⟨succeeded, entries, whole, mapped⟩
    have readable := allReadable_of_arranged whole mapped
    have delivered (number : Nat) : ∃ arrangement,
        Arranged (json1.le select.orderBy) (json1.selected select store.records) arrangement ∧
          (number ≤ pageCount size.val (json1.selected select store.records).length →
            sqlite (select.page size number) store.records =
              (Paging.page size.val number arrangement, none)) := by
      by_cases bound : number ≤ pageCount size.val (json1.selected select store.records).length
      · have offset := (Nat.mul_le_mul_right size.val bound).trans_lt inRange
        rcases executes.page_delivered (uncut.symm ▸ succeeded) offset with
          ⟨arrangement, arranged, page_eq⟩
        exact ⟨arrangement, arranged, fun _ => page_eq⟩
      · exact ⟨entries, Json1.isArranged_iff.mp whole, fun inside => absurd inside bound⟩
    choose arrangements arranged page_eq using delivered
    rcases exists_paged compiled positive readable arranged rfl page_eq with
      ⟨all, paged, collectedMapped⟩
    have exact := (collected_perm_iff (json1.le_total select.orderBy)
      (fun _ _ _ => json1.le_trans) (json1.nodup_selected select store.records)
      (le_pageCount_mul positive _)).mpr (unsplit readable) arrangements arranged
    have perm := exact.trans (Json1.isArranged_iff.mp whole).perm.symm
    rcases Except.mapM_ok_perm perm collectedMapped with ⟨permuted, permuted_eq, toPermuted⟩
    obtain rfl := Except.ok.inj (permuted_eq.symm.trans mapped)
    exact ⟨all, paged, toPermuted⟩

end Pages

/-! ## Two rows that tie -/

/-- JSON1 where no text holds anything; the queries below name no path. -/
def Json1.blank : Json1 where
  integerAt _ _ := none
  extract _ _ := .null
  contains _ _ := false
  like _ _ := false

/-- A row that was indexed with the other one. -/
def tiedRow (rkey : String) : Row where
  cid := "cid1"
  did := "did:plc:alice"
  collection := "app.bsky.feed.post"
  rkey := rkey
  recordJson := "null"
  indexedAt := 1
  isDeleted := false

/-- The URIs of the two rows. -/
def tiedUri (rkey : String) : String := "at://did:plc:alice/app.bsky.feed.post/" ++ rkey

/-- The two rows. -/
def tiedEntries : List Entry := [(tiedUri "r1", tiedRow "r1"), (tiedUri "r2", tiedRow "r2")]

/-- The store with the two rows. -/
def tiedStore : RecordStore :=
  { RecordStore.empty with
    records :=
      (Finmap.singleton (tiedUri "r1") (tiedRow "r1")).insert (tiedUri "r2") (tiedRow "r2") }

/-- The oldest posts first. -/
def tiedQuery : QueryBuilder := (QueryBuilder.new "app.bsky.feed.post").orderBy "indexed_at" .asc

/-- The statement of `tiedQuery`. -/
def tiedSelect : Select :=
  ⟨[.collection "app.bsky.feed.post", .active], [.column "indexed_at" .asc], none, none⟩

theorem select_tiedQuery : tiedQuery.select .scalars = .ok tiedSelect := by
  decide

theorem lookup_tiedStore_iff (uri : String) (row : Row) :
    tiedStore.records.lookup uri = some row ↔ (uri, row) ∈ tiedEntries := by
  have differ : tiedUri "r1" ≠ tiedUri "r2" := by decide
  rw [tiedEntries, List.mem_pair, Prod.mk.injEq, Prod.mk.injEq]
  unfold tiedStore
  dsimp only
  by_cases isSecond : uri = tiedUri "r2"
  · subst isSecond
    rw [Finmap.lookup_insert, Option.some.injEq]
    simp [differ.symm, eq_comm]
  · rw [Finmap.lookup_insert_of_ne _ isSecond]
    by_cases isFirst : uri = tiedUri "r1"
    · subst isFirst
      rw [Finmap.lookup_singleton_eq, Option.some.injEq]
      simp [differ, eq_comm]
    · rw [Finmap.lookup_eq_none.mpr (mt (Finmap.mem_singleton _ _ _).mp isFirst)]
      simp [isFirst, isSecond]

theorem selected_tiedStore :
    (Json1.blank.selected tiedSelect tiedStore.records).Perm tiedEntries := by
  have nodup : tiedEntries.Nodup := by decide
  have chosen : ∀ entry ∈ tiedEntries, Json1.blank.selects tiedSelect entry.2 = true := by
    decide
  refine (List.perm_ext_iff_of_nodup (Json1.nodup_selected _ _ _) nodup).mpr ?_
  rintro ⟨uri, row⟩
  rw [Json1.mem_selected_iff, lookup_tiedStore_iff]
  exact and_iff_left_of_imp (chosen (uri, row))

theorem readable_tiedStore :
    Json1.blank.AllReadable .scalars tiedSelect tiedStore.records := by
  intro entry mem
  have inStore := selected_tiedStore.mem_iff.mp mem
  rw [tiedEntries, List.mem_pair] at inStore
  rcases inStore with rfl | rfl
  · exact ⟨_, rfl⟩
  · exact ⟨_, rfl⟩

theorem length_selected_tiedStore :
    (Json1.blank.selected tiedSelect tiedStore.records).length = 2 :=
  selected_tiedStore.length_eq

/-- Pages of one row each may return one of the rows twice and the other not at
all. -/
theorem pages_repeat_tiedRow :
    ∃ sqlite, Json1.blank.Executes sqlite ∧
      ∃ rows all, tiedQuery.execute .scalars sqlite tiedStore = .ok rows ∧
        Paged (fun number => (tiedQuery.page 1 number).execute .scalars sqlite tiedStore) 0 all ∧
        ¬ all.Perm rows := by
  have split : Splits (Json1.blank.le tiedSelect.orderBy) tiedEntries (1 * (1 : U32).val) := by
    decide +kernel
  have inRange : pageCount (1 : U32).val
      (Json1.blank.selected tiedSelect tiedStore.records).length * (1 : U32).val < 2 ^ 32 := by
    rw [length_selected_tiedStore]
    decide
  exact exists_paged_not_perm select_tiedQuery rfl (by decide) readable_tiedStore inRange
    (splits_of_perm selected_tiedStore split)

theorem pages_perm_iff_tiedPair :
    ∃ rows all,
      tiedQuery.execute .scalars (Json1.execution Json1.blank.arrange) tiedStore = .ok rows ∧
        Paged (fun number => (tiedQuery.page 2 number).execute .scalars
          (Json1.execution Json1.blank.arrange) tiedStore) 0 all ∧
        all.Perm rows := by
  have executes := Json1.executes_execution (Json1.isArranged_arrange Json1.blank)
  rcases tiedQuery.exists_execute select_tiedQuery rfl executes rfl readable_tiedStore with
    ⟨_, rows, _, _, executed⟩
  have inRange : pageCount (2 : U32).val
      (Json1.blank.selected tiedSelect tiedStore.records).length * (2 : U32).val < 2 ^ 32 := by
    rw [length_selected_tiedStore]
    decide
  have unsplit : ∀ number, ¬ Splits (Json1.blank.le tiedSelect.orderBy)
      (Json1.blank.selected tiedSelect tiedStore.records) (number * (2 : U32).val) := by
    rintro number ⟨row, _, before, beyond⟩
    have bound := (beyond.trans_le List.countP_le_length).trans_eq length_selected_tiedStore
    have size : (2 : U32).val = 2 := rfl
    rw [size] at before bound
    omega
  rcases (pages_perm_iff select_tiedQuery rfl rfl (by decide) inRange).mpr (fun _ => unsplit) _
    executes rows executed with ⟨all, paged, perm⟩
  exact ⟨rows, all, executed, paged, perm⟩

end Skybase.Index
