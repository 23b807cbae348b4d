import Mathlib.Data.List.Sort

/-!
# Paging through rows that are only partly ordered

Pages are cut one after the other, each from an arrangement of its own: a
permutation of the rows that a total preorder allows.  The arrangements may
differ where rows tie.  The pages together are the rows, whatever the
arrangements, exactly if no boundary between pages lies inside a group of ties.
-/

namespace Skybase.Paging

universe u

variable {α : Type u}

/-- The page with the given number. -/
def page (size number : Nat) (rows : List α) : List α := (rows.drop (number * size)).take size

theorem page_eq_nil_iff {size : Nat} (positive : 0 < size) {number : Nat} {rows : List α} :
    page size number rows = [] ↔ rows.length ≤ number * size := by
  rw [page, List.take_eq_nil_iff, or_iff_right positive.ne', List.drop_eq_nil_iff]

/-- The rows on the pages before the given one, each cut from its own arrangement. -/
def collected (size : Nat) (arrangements : Nat → List α) (count : Nat) : List α :=
  (List.range count).flatMap fun number => page size number (arrangements number)

theorem collected_succ (size : Nat) (arrangements : Nat → List α) (count : Nat) :
    collected size arrangements (count + 1) =
      collected size arrangements count ++ page size count (arrangements count) := by
  rw [collected, List.range_succ, List.flatMap_append, List.flatMap_singleton]
  rfl

theorem take_append_page (size number : Nat) (rows : List α) :
    rows.take (number * size) ++ page size number rows = rows.take ((number + 1) * size) := by
  rw [page, Nat.add_mul, Nat.one_mul, List.take_add]

/-- The pages of one arrangement make up its beginning. -/
theorem collected_congr_take {size count : Nat} {arrangements : Nat → List α} {rows : List α}
    (same : ∀ number < count, arrangements number = rows) :
    collected size arrangements count = rows.take (count * size) := by
  induction count with
  | zero => rw [collected, List.range_zero, Nat.zero_mul, List.take_zero, List.flatMap_nil]
  | succ count ih =>
      rw [collected_succ, ih fun number bound => same number (Nat.lt_succ_of_lt bound),
        same count (Nat.lt_succ_self count), take_append_page]

/-- The number of pages that rows of the given number fill. -/
def pageCount (size length : Nat) : Nat := (length + size - 1) / size

theorem mul_lt_of_lt_pageCount {size length number : Nat} (positive : 0 < size)
    (before : number < pageCount size length) : number * size < length := by
  have bound := (Nat.le_div_iff_mul_le positive).mp before
  rw [Nat.succ_mul] at bound
  omega

theorem le_pageCount_mul {size : Nat} (positive : 0 < size) (length : Nat) :
    length ≤ pageCount size length * size := by
  by_contra beyond
  have another : pageCount size length + 1 ≤ pageCount size length := by
    refine (Nat.le_div_iff_mul_le positive).mpr ?_
    rw [Nat.succ_mul]
    omega
  exact absurd another (Nat.not_succ_le_self _)

/-- Two neighbours in a list. -/
theorem exists_eq_append_cons_cons {rows : List α} {place : Nat} (bound : place + 1 < rows.length) :
    ∃ earlier first second later, rows = earlier ++ first :: second :: later ∧
      earlier.length = place := by
  have firstBound : place < rows.length := Nat.lt_of_succ_lt bound
  refine ⟨rows.take place, rows[place], rows[place + 1], rows.drop (place + 2), ?_, ?_⟩
  · rw [← List.drop_eq_getElem_cons bound, ← List.drop_eq_getElem_cons firstBound,
      List.take_append_drop]
  · rw [List.length_take, Nat.min_eq_left firstBound.le]

/-! ## Arrangements -/

section Order

variable (le : α → α → Prop) [DecidableRel le]

/-- A permutation of the rows that the order allows. -/
structure Arranged (rows arrangement : List α) : Prop where
  perm : arrangement.Perm rows
  sorted : arrangement.Pairwise le

/-- How many rows come strictly before a row. -/
def ahead (rows : List α) (row : α) : Nat := rows.countP fun other => ¬ le row other

/-- How many rows come no later than a row or tie with it. -/
def upTo (rows : List α) (row : α) : Nat := rows.countP fun other => le other row

/-- A boundary has rows on both sides that tie. -/
def Splits (rows : List α) (boundary : Nat) : Prop :=
  ∃ row ∈ rows, ahead le rows row < boundary ∧ boundary < upTo le rows row

instance (rows : List α) (boundary : Nat) : Decidable (Splits le rows boundary) :=
  inferInstanceAs (Decidable (∃ _ ∈ _, _))

variable {le} {rows arrangement : List α} {boundary : Nat}

theorem splits_of_perm {others : List α} (perm : rows.Perm others)
    (split : Splits le others boundary) : Splits le rows boundary := by
  rcases split with ⟨row, mem, before, beyond⟩
  refine ⟨row, perm.mem_iff.mpr mem, ?_, ?_⟩
  · rwa [ahead, perm.countP_eq]
  · rwa [upTo, perm.countP_eq]

theorem Arranged.ahead_lt_of_mem_take (total : ∀ first second, le first second ∨ le second first)
    (arranged : Arranged le rows arrangement) {row : α} (mem : row ∈ arrangement.take boundary) :
    ahead le rows row < boundary := by
  have reflexive : le row row := (total row row).elim id id
  rcases List.append_of_mem mem with ⟨earlier, later, split⟩
  have whole : arrangement = earlier ++ row :: (later ++ arrangement.drop boundary) := by
    rw [← List.cons_append, ← List.append_assoc, ← split, List.take_append_drop]
  have sorted := arranged.sorted
  rw [whole, List.pairwise_append, List.pairwise_cons] at sorted
  have none :
      (row :: (later ++ arrangement.drop boundary)).countP (fun other => ¬ le row other) = 0 := by
    rw [List.countP_eq_zero]
    intro other otherMem
    rw [decide_eq_true_iff, not_not]
    rcases List.mem_cons.mp otherMem with rfl | behind
    · exact reflexive
    · exact sorted.2.1.1 other behind
  have short : earlier.length < boundary := by
    have bound := List.length_take_le boundary arrangement
    rw [split, List.length_append, List.length_cons] at bound
    omega
  rw [ahead, ← arranged.perm.countP_eq, whole, List.countP_append, none, Nat.add_zero]
  exact List.countP_le_length.trans_lt short

theorem Arranged.lt_upTo_of_mem_drop (total : ∀ first second, le first second ∨ le second first)
    (arranged : Arranged le rows arrangement) {row : α} (mem : row ∈ arrangement.drop boundary) :
    boundary < upTo le rows row := by
  have reflexive : le row row := (total row row).elim id id
  have sorted := arranged.sorted
  rw [← List.take_append_drop boundary arrangement, List.pairwise_append] at sorted
  have all : (arrangement.take boundary).countP (fun other => le other row) = boundary := by
    have long : boundary ≤ arrangement.length := by
      by_contra short
      rw [List.drop_eq_nil_of_le (Nat.le_of_not_le short)] at mem
      cases mem
    rw [List.countP_eq_length.mpr, List.length_take, Nat.min_eq_left long]
    intro other otherMem
    exact decide_eq_true (sorted.2.2 other otherMem row mem)
  have some : 0 < (arrangement.drop boundary).countP (fun other => le other row) :=
    List.countP_pos_iff.mpr ⟨row, mem, decide_eq_true reflexive⟩
  rw [upTo, ← arranged.perm.countP_eq, ← List.take_append_drop boundary arrangement,
    List.countP_append, all]
  omega

/-- Up to a boundary that splits no ties, all arrangements have the same rows. -/
theorem Arranged.take_perm (total : ∀ first second, le first second ∨ le second first)
    (arranged : Arranged le rows arrangement) (unsplit : ¬ Splits le rows boundary) :
    (arrangement.take boundary).Perm (rows.filter fun row => upTo le rows row ≤ boundary) := by
  have kept : (arrangement.take boundary).filter (fun row => upTo le rows row ≤ boundary) =
      arrangement.take boundary := by
    rw [List.filter_eq_self]
    intro row mem
    have before := arranged.ahead_lt_of_mem_take total mem
    have rowMem := arranged.perm.mem_iff.mp (List.mem_of_mem_take mem)
    exact decide_eq_true (not_lt.mp fun beyond => unsplit ⟨row, rowMem, before, beyond⟩)
  have dropped : (arrangement.drop boundary).filter (fun row => upTo le rows row ≤ boundary) =
      [] := by
    rw [List.filter_eq_nil_iff]
    intro row mem
    rw [decide_eq_true_iff, not_le]
    exact arranged.lt_upTo_of_mem_drop total mem
  have filtered : arrangement.filter (fun row => upTo le rows row ≤ boundary) =
      arrangement.take boundary := by
    conv_lhs => rw [← List.take_append_drop boundary arrangement]
    rw [List.filter_append, kept, dropped, List.append_nil]
  rw [← filtered]
  exact arranged.perm.filter _

/-- If no boundary splits ties, then the pages of any arrangements make up the
beginning of each arrangement. -/
theorem collected_perm_take (total : ∀ first second, le first second ∨ le second first)
    {size : Nat} (unsplit : ∀ number, ¬ Splits le rows (number * size))
    {arrangements : Nat → List α} (arranged : ∀ number, Arranged le rows (arrangements number))
    (reference : Arranged le rows arrangement) (count : Nat) :
    (collected size arrangements count).Perm (arrangement.take (count * size)) := by
  induction count with
  | zero =>
      rw [collected, List.range_zero, List.flatMap_nil, Nat.zero_mul, List.take_zero]
  | succ count ih =>
      have same (boundary : Nat) (whole : ¬ Splits le rows boundary) :
          (arrangement.take boundary).Perm ((arrangements count).take boundary) :=
        (reference.take_perm total whole).trans ((arranged count).take_perm total whole).symm
      rw [collected_succ]
      calc (collected size arrangements count ++ page size count (arrangements count)).Perm
            ((arrangements count).take (count * size) ++ page size count (arrangements count)) :=
          (ih.trans (same _ (unsplit count))).append_right _
        _ = (arrangements count).take ((count + 1) * size) := take_append_page _ _ _
        List.Perm _ (arrangement.take ((count + 1) * size)) := (same _ (unsplit (count + 1))).symm

/-- At a boundary that splits ties, two rows that tie are next to each other. -/
theorem Arranged.exists_tie_of_splits
    (transitive : ∀ first second third, le first second → le second third → le first third)
    (arranged : Arranged le rows arrangement) (split : Splits le rows boundary) :
    ∃ earlier first second later, arrangement = earlier ++ first :: second :: later ∧
      earlier.length + 1 = boundary ∧ le second first := by
  rcases split with ⟨row, _, before, beyond⟩
  have bounded : upTo le rows row ≤ arrangement.length :=
    List.countP_le_length.trans_eq arranged.perm.length_eq.symm
  obtain ⟨place, rfl⟩ : ∃ place, boundary = place + 1 := Nat.exists_eq_succ_of_ne_zero (by omega)
  rcases exists_eq_append_cons_cons (beyond.trans_le bounded) with
    ⟨earlier, first, second, later, whole, placed⟩
  refine ⟨earlier, first, second, later, whole, by rw [placed], ?_⟩
  have sorted := arranged.sorted
  rw [ahead, ← arranged.perm.countP_eq, whole] at before
  rw [upTo, ← arranged.perm.countP_eq, whole] at beyond
  rw [whole, List.pairwise_append, List.pairwise_cons, List.pairwise_cons] at sorted
  obtain ⟨_, ⟨_, afterSecond, _⟩, across⟩ := sorted
  -- The row ties with both neighbours: otherwise all on one side of the boundary would be counted.
  have firstLater : le row first := by
    by_contra strictly
    have counted : earlier.countP (fun other => ¬ le row other) = earlier.length := by
      rw [List.countP_eq_length]
      intro other mem
      rw [decide_eq_true_iff]
      intro later
      exact strictly (transitive row other first later (across other mem first List.mem_cons_self))
    have positive : 0 < (first :: second :: later).countP (fun other => ¬ le row other) :=
      List.countP_pos_iff.mpr ⟨first, List.mem_cons_self, decide_eq_true strictly⟩
    rw [List.countP_append, counted] at before
    omega
  have secondEarlier : le second row := by
    by_contra strictly
    have none : (second :: later).countP (fun other => le other row) = 0 := by
      rw [List.countP_eq_zero]
      intro other mem
      rw [decide_eq_true_iff]
      intro earlier
      rcases List.mem_cons.mp mem with rfl | behind
      · exact strictly earlier
      · exact strictly (transitive second other row (afterSecond other behind) earlier)
    have firstCount : (first :: second :: later).countP (fun other => le other row) ≤ 1 := by
      rw [List.countP_cons, none]
      split <;> omega
    have earlierCount : earlier.countP (fun other => le other row) ≤ earlier.length :=
      List.countP_le_length
    rw [List.countP_append] at beyond
    omega
  exact transitive second row first secondEarlier firstLater

/-- If a boundary splits ties, then some arrangements repeat a row on their pages. -/
theorem exists_collected_not_nodup
    (transitive : ∀ first second third, le first second → le second third → le first third)
    {size number : Nat} (split : Splits le rows (number * size))
    (arranged : Arranged le rows arrangement) :
    ∃ arrangements : Nat → List α, (∀ number, Arranged le rows (arrangements number)) ∧
      ¬ (collected size arrangements (number + 1)).Nodup := by
  rcases arranged.exists_tie_of_splits transitive split with
    ⟨earlier, first, second, later, rfl, placed, tie⟩
  have swapped : Arranged le rows (earlier ++ second :: first :: later) := by
    refine ⟨((List.Perm.swap first second later).append_left earlier).trans arranged.perm, ?_⟩
    have sorted := arranged.sorted
    simp only [List.pairwise_append, List.pairwise_cons, List.mem_cons, forall_eq_or_imp]
      at sorted ⊢
    obtain ⟨start, ⟨⟨_, afterFirst⟩, afterSecond, last⟩, across⟩ := sorted
    refine ⟨start, ⟨⟨tie, afterSecond⟩, afterFirst, last⟩, ?_⟩
    intro other mem
    obtain ⟨toFirst, toSecond, toLater⟩ := across other mem
    exact ⟨toSecond, toFirst, toLater⟩
  refine ⟨fun other => if other = number then earlier ++ second :: first :: later
    else earlier ++ first :: second :: later, ?_, ?_⟩
  · intro other
    dsimp only
    split
    · exact swapped
    · exact arranged
  · intro nodup
    rw [collected_succ, if_pos rfl, List.nodup_append] at nodup
    have before : first ∈ collected size (fun other => if other = number then
        earlier ++ second :: first :: later else earlier ++ first :: second :: later) number := by
      rw [collected_congr_take fun other bound => if_neg bound.ne, ← placed,
        List.take_length_add_append, List.take_succ_cons, List.take_zero]
      exact List.mem_append_right earlier List.mem_cons_self
    have behind : first ∈ page size number (earlier ++ second :: first :: later) := by
      obtain ⟨rest, rfl⟩ : ∃ rest, size = rest + 1 :=
        Nat.exists_eq_succ_of_ne_zero (by rintro rfl; omega)
      rw [page, ← placed, List.drop_length_add_append, List.drop_succ_cons, List.drop_zero,
        List.take_succ_cons]
      exact List.mem_cons_self
    exact nodup.2.2 first before first behind rfl

theorem collected_sublist {size : Nat} (arrangements : Nat → List α) {first second : Nat}
    (bound : first ≤ second) :
    (collected size arrangements first).Sublist (collected size arrangements second) := by
  induction second, bound using Nat.le_induction with
  | base => exact List.Sublist.refl _
  | succ second _ ih =>
      rw [collected_succ]
      exact ih.trans (List.sublist_append_left _ _)

/-- The pages together are the rows, whatever the arrangements, exactly if no
boundary between pages splits ties. -/
theorem collected_perm_iff (total : ∀ first second, le first second ∨ le second first)
    (transitive : ∀ first second third, le first second → le second third → le first third)
    (nodup : rows.Nodup) {size count : Nat} (enough : rows.length ≤ count * size) :
    (∀ arrangements : Nat → List α, (∀ number, Arranged le rows (arrangements number)) →
        (collected size arrangements count).Perm rows) ↔
      ∀ number, ¬ Splits le rows (number * size) := by
  have : Std.Total le := ⟨total⟩
  have : IsTrans α le := ⟨transitive⟩
  have reference : Arranged le rows (rows.insertionSort le) :=
    ⟨List.perm_insertionSort le rows, List.pairwise_insertionSort le rows⟩
  constructor
  · intro exact number split
    rcases exists_collected_not_nodup transitive split reference with
      ⟨arrangements, arranged, twice⟩
    have inside : number < count := by
      rcases split with ⟨row, _, _, beyond⟩
      have bound : number * size < count * size :=
        (beyond.trans_le List.countP_le_length).trans_le enough
      exact Nat.lt_of_mul_lt_mul_right bound
    have all := (exact arrangements arranged).nodup_iff.mpr nodup
    exact twice (all.sublist (collected_sublist arrangements inside))
  · intro unsplit arrangements arranged
    have pages := collected_perm_take total unsplit arranged reference count
    rw [List.take_of_length_le (reference.perm.length_eq.trans_le enough)] at pages
    exact pages.trans reference.perm

end Order

/-! ## Runs -/

section Run

variable {ε : Type u} {run : Nat → Except ε (List α)}

/-- The rows that are collected from the page with the given number on, until a
page is empty. -/
inductive Paged (run : Nat → Except ε (List α)) : Nat → List α → Prop
  | stop {number : Nat} : run number = .ok [] → Paged run number []
  | more {number : Nat} {rows rest : List α} : run number = .ok rows → rows ≠ [] →
      Paged run (number + 1) rest → Paged run number (rows ++ rest)

/-- There is at most one result. -/
theorem Paged.unique {number : Nat} {first second : List α} (left : Paged run number first)
    (right : Paged run number second) : first = second := by
  induction left generalizing second with
  | stop last =>
      cases right with
      | stop _ => rfl
      | more again more _ => exact absurd (Except.ok.inj (again.symm.trans last)) more
  | more fetched more _ ih =>
      cases right with
      | stop last => exact absurd (Except.ok.inj (fetched.symm.trans last)) more
      | more again _ rest =>
          rw [Except.ok.inj (again.symm.trans fetched), ih rest]

/-- The pages before the first empty one are collected. -/
theorem paged_of_pages {pages : Nat → List α} {count : Nat}
    (runs : ∀ number ≤ count, run number = .ok (pages number))
    (more : ∀ number < count, pages number ≠ []) (last : pages count = []) :
    Paged run 0 ((List.range count).flatMap pages) := by
  have fromPage (remaining : Nat) : ∀ number, number + remaining = count →
      Paged run number ((List.range' number remaining).flatMap pages) := by
    induction remaining with
    | zero =>
        rintro number rfl
        exact .stop ((runs number le_rfl).trans (congrArg Except.ok last))
    | succ remaining ih =>
        intro number placed
        rw [List.range'_succ, List.flatMap_cons]
        exact .more (runs number (by omega)) (more number (by omega)) (ih (number + 1) (by omega))
  rw [List.range_eq_range']
  exact fromPage count 0 (Nat.zero_add count)

end Run

end Skybase.Paging
