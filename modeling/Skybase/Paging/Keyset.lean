import Mathlib.Data.List.Sort
import Mathlib.Order.Basic

/-!
# Pages by keys

A listing is paged by the key of its last row: the next page starts after it.
The rows may change between the requests.  As long as they are listed in the
order of their keys, no row is collected twice, and a row that is there all the
time is not missed, unless a request fails or the allowed pages run out.
-/

namespace Skybase.Paging

universe u v

variable {κ : Type u} {ι : Type v} [LinearOrder κ]

/-- The rows after a key. -/
def after (rows : List (κ × ι)) : Option κ → List (κ × ι)
  | none => rows
  | some key => rows.filter fun row => key < row.1

/-- The page after a key, and the key of its last row if there are more rows. -/
def keysetPage (size : Nat) (rows : List (κ × ι)) (key : Option κ) :
    List (κ × ι) × Option κ :=
  let rest := after rows key
  (rest.take size,
    if size < rest.length then (rest.take size).getLast?.map Prod.fst else none)

/-- The pages of a listing, from the call with the given number on.  A call
without rows fails. -/
def collect (size : Nat) (listing : Nat → Option (List (κ × ι))) :
    Nat → Nat → Option κ → List (κ × ι)
  | 0, _, _ => []
  | remaining + 1, call, key =>
      match listing call with
      | none => []
      | some rows =>
          (keysetPage size rows key).1 ++
            match (keysetPage size rows key).2 with
            | none => []
            | some next => collect size listing remaining (call + 1) (some next)

/-- The requests for these pages: the number of the call, and the key after which
its page starts. -/
def requests (size : Nat) (listing : Nat → Option (List (κ × ι))) :
    Nat → Nat → Option κ → List (Nat × Option κ)
  | 0, _, _ => []
  | remaining + 1, call, key =>
      (call, key) ::
        match listing call with
        | none => []
        | some rows =>
            match (keysetPage size rows key).2 with
            | none => []
            | some next => requests size listing remaining (call + 1) (some next)

/-- The rows stand in the order of their keys whenever they are requested. -/
def Ordered (listing : Nat → Option (List (κ × ι))) (made : List (Nat × Option κ)) : Prop :=
  ∀ request ∈ made, ∀ rows ∈ listing request.1,
    rows.Pairwise fun first later => first.1 < later.1

/-! ## Rows after a key -/

theorem mem_after_iff {rows : List (κ × ι)} {key : Option κ} {row : κ × ι} :
    row ∈ after rows key ↔ row ∈ rows ∧ ∀ bound ∈ key, bound < row.1 := by
  cases key with
  | none => simp [after]
  | some bound => simp [after]

theorem pairwise_after {rows : List (κ × ι)}
    (ordered : rows.Pairwise fun first later => first.1 < later.1) (key : Option κ) :
    (after rows key).Pairwise fun first later => first.1 < later.1 := by
  cases key with
  | none => exact ordered
  | some bound => exact ordered.filter _

/-- Where there are more rows, the page is full and ends with the key. -/
theorem keysetPage_cases {size : Nat} (positive : 0 < size) (rows : List (κ × ι))
    (key : Option κ) :
    (after rows key).length ≤ size ∧ keysetPage size rows key = (after rows key, none) ∨
      ∃ front last, size < (after rows key).length ∧
        (after rows key).take size = front ++ [last] ∧
        keysetPage size rows key = ((after rows key).take size, some last.1) := by
  by_cases more : size < (after rows key).length
  · have nonempty : (after rows key).take size ≠ [] := by
      intro empty
      have length := congrArg List.length empty
      rw [List.length_take_of_le more.le] at length
      exact positive.ne' length
    refine .inr ⟨_, _, more, (List.dropLast_append_getLast nonempty).symm, ?_⟩
    rw [keysetPage, if_pos more, List.getLast?_eq_some_getLast nonempty]
    rfl
  · refine .inl ⟨not_lt.mp more, ?_⟩
    rw [keysetPage, if_neg more, List.take_of_length_le (not_lt.mp more)]

/-! ## What is collected -/

section Collect

variable {size : Nat} {listing : Nat → Option (List (κ × ι))}

theorem collect_none {call : Nat} (failed : listing call = none) (remaining : Nat)
    (key : Option κ) : collect size listing (remaining + 1) call key = [] := by
  rw [collect, failed]

/-- The last page. -/
theorem collect_last {call : Nat} {rows : List (κ × ι)} (answered : listing call = some rows)
    {key : Option κ} (page_eq : keysetPage size rows key = (after rows key, none))
    (remaining : Nat) : collect size listing (remaining + 1) call key = after rows key := by
  rw [collect, answered]
  dsimp only
  rw [page_eq, List.append_nil]

/-- A page that is not the last. -/
theorem collect_more {call : Nat} {rows page : List (κ × ι)} {next : κ}
    (answered : listing call = some rows) {key : Option κ}
    (page_eq : keysetPage size rows key = (page, some next)) (remaining : Nat) :
    collect size listing (remaining + 1) call key =
      page ++ collect size listing remaining (call + 1) (some next) := by
  rw [collect, answered]
  dsimp only
  rw [page_eq]

theorem requests_more {call : Nat} {rows page : List (κ × ι)} {next : κ}
    (answered : listing call = some rows) {key : Option κ}
    (page_eq : keysetPage size rows key = (page, some next)) (remaining : Nat) :
    requests size listing (remaining + 1) call key =
      (call, key) :: requests size listing remaining (call + 1) (some next) := by
  rw [requests, answered]
  dsimp only
  rw [page_eq]

theorem mem_requests (remaining call : Nat) (key : Option κ) :
    (call, key) ∈ requests size listing (remaining + 1) call key := by
  rw [requests]
  exact List.mem_cons_self

/-- A collected row was listed by one of the calls, after the key. -/
theorem exists_of_mem_collect (positive : 0 < size) {remaining call : Nat} {key : Option κ}
    {row : κ × ι} (mem : row ∈ collect size listing remaining call key) :
    (∀ bound ∈ key, bound < row.1) ∧
      ∃ request ∈ requests size listing remaining call key, ∃ rows,
        listing request.1 = some rows ∧ row ∈ rows := by
  induction remaining generalizing call key with
  | zero => cases mem
  | succ remaining ih =>
      cases answered : listing call with
      | none =>
          rw [collect_none answered] at mem
          cases mem
      | some rows =>
          have first : (call, key) ∈ requests size listing (remaining + 1) call key :=
            mem_requests remaining call key
          rcases keysetPage_cases positive rows key with
            ⟨_, page_eq⟩ | ⟨front, last, _, taken, page_eq⟩
          · rw [collect_last answered page_eq] at mem
            rcases mem_after_iff.mp mem with ⟨listed, above⟩
            exact ⟨above, _, first, rows, answered, listed⟩
          · rw [collect_more answered page_eq] at mem
            rcases List.mem_append.mp mem with here | later
            · rcases mem_after_iff.mp (List.mem_of_mem_take here) with ⟨listed, above⟩
              exact ⟨above, _, first, rows, answered, listed⟩
            · rcases ih later with ⟨above, request, made, listedRows, answer_eq, listed⟩
              have lastMem : last ∈ (after rows key).take size := by
                rw [taken]
                exact List.mem_append_right _ (List.mem_singleton_self _)
              have lastAbove := (mem_after_iff.mp (List.mem_of_mem_take lastMem)).2
              refine ⟨?_, request, ?_, listedRows, answer_eq, listed⟩
              · intro bound boundMem
                exact (lastAbove bound boundMem).trans (above last.1 rfl)
              · rw [requests_more answered page_eq]
                exact List.mem_cons_of_mem _ made

/-- No row is collected twice. -/
theorem pairwise_collect (positive : 0 < size) {remaining : Nat} :
    ∀ {call : Nat} {key : Option κ},
      Ordered listing (requests size listing remaining call key) →
        (collect size listing remaining call key).Pairwise
          fun first later => first.1 < later.1 := by
  induction remaining with
  | zero =>
      intro call key _
      exact List.Pairwise.nil
  | succ remaining ih =>
      intro call key ordered
      cases answered : listing call with
      | none =>
          rw [collect_none answered]
          exact List.Pairwise.nil
      | some rows =>
          have first := ordered _ (mem_requests remaining call key) rows answered
          have sorted := pairwise_after first key
          rcases keysetPage_cases positive rows key with
            ⟨_, page_eq⟩ | ⟨front, last, _, taken, page_eq⟩
          · rw [collect_last answered page_eq]
            exact sorted
          · rw [requests_more answered page_eq] at ordered
            rw [collect_more answered page_eq, List.pairwise_append]
            have pageSorted := sorted.take (i := size)
            refine ⟨pageSorted, ih fun request made =>
              ordered request (List.mem_cons_of_mem _ made), ?_⟩
            intro first mem later laterMem
            have below : first.1 ≤ last.1 := by
              rw [taken] at mem pageSorted
              rcases List.mem_append.mp mem with before | only
              · exact ((List.pairwise_append.mp pageSorted).2.2 first before last
                  (List.mem_singleton_self _)).le
              · rw [List.mem_singleton.mp only]
            exact below.trans_lt ((exists_of_mem_collect positive laterMem).1 last.1 rfl)

/-- A row that every call lists is collected, unless a call fails or all pages
are full. -/
theorem collect_complete (positive : 0 < size) {remaining : Nat} :
    ∀ {call : Nat} {key : Option κ},
      Ordered listing (requests size listing remaining call key) →
        (collect size listing remaining call key).length = remaining * size ∨
          (∃ request ∈ requests size listing remaining call key, listing request.1 = none) ∨
          ∀ row : κ × ι, (∀ bound ∈ key, bound < row.1) →
            (∀ request ∈ requests size listing remaining call key, ∀ rows,
              listing request.1 = some rows → row ∈ rows) →
              row ∈ collect size listing remaining call key := by
  induction remaining with
  | zero =>
      intro call key _
      exact .inl (Nat.zero_mul size).symm
  | succ remaining ih =>
      intro call key ordered
      have first : (call, key) ∈ requests size listing (remaining + 1) call key :=
        mem_requests remaining call key
      cases answered : listing call with
      | none => exact .inr (.inl ⟨_, first, answered⟩)
      | some rows =>
          have sorted := pairwise_after (ordered _ first rows answered) key
          rcases keysetPage_cases positive rows key with
            ⟨_, page_eq⟩ | ⟨front, last, more, taken, page_eq⟩
          · refine .inr (.inr fun row above stays => ?_)
            rw [collect_last answered page_eq, mem_after_iff]
            exact ⟨stays _ first rows answered, above⟩
          · rw [requests_more answered page_eq] at ordered ⊢
            rw [collect_more answered page_eq]
            have later := ih fun request made => ordered request (List.mem_cons_of_mem _ made)
            rcases later with full | ⟨request, made, failed⟩ | complete
            · apply Or.inl
              rw [List.length_append, full, List.length_take_of_le more.le, Nat.succ_mul,
                Nat.add_comm]
            · exact .inr (.inl ⟨request, List.mem_cons_of_mem _ made, failed⟩)
            · refine .inr (.inr fun row above stays => List.mem_append.mpr ?_)
              have listed : row ∈ after rows key :=
                mem_after_iff.mpr ⟨stays _ List.mem_cons_self rows answered, above⟩
              rw [← List.take_append_drop size (after rows key), List.pairwise_append] at sorted
              rw [← List.take_append_drop size (after rows key), List.mem_append] at listed
              rcases listed with here | beyond
              · exact .inl here
              · apply Or.inr
                apply complete
                · rintro bound boundMem
                  cases boundMem
                  apply sorted.2.2 last _ row beyond
                  rw [taken]
                  exact List.mem_append_right _ (List.mem_singleton_self _)
                · exact fun request made => stays request (List.mem_cons_of_mem _ made)

end Collect

end Skybase.Paging
