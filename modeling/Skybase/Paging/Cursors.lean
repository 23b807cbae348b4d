import Mathlib.Data.List.Basic

/-!
# Following cursors

The answers to the requests of a listing, each a page or an error.  A listing
ends with a page that stops it.  One that also stops at every page without items
has the same items exactly if no such page comes before one with items.
-/

namespace Skybase.Paging

universe u v w

variable {ε : Type u} {π : Type v} {ι : Type w}

/-- The pages up to and including the first that stops the listing, or up to the first error. -/
def followed (stops : π → Bool) : List (Except ε π) → List π
  | [] => []
  | .error _ :: _ => []
  | .ok page :: answers => page :: if stops page then [] else followed stops answers

@[simp]
theorem followed_nil (stops : π → Bool) : followed stops ([] : List (Except ε π)) = [] :=
  rfl

@[simp]
theorem followed_error (stops : π → Bool) (err : ε) (answers : List (Except ε π)) :
    followed stops (.error err :: answers) = [] :=
  rfl

@[simp]
theorem followed_ok (stops : π → Bool) (page : π) (answers : List (Except ε π)) :
    followed stops (.ok page :: answers) =
      page :: if stops page then [] else followed stops answers :=
  rfl

/-- A listing that stops at a page without items too misses the items after such a page. -/
theorem flatMap_followed_eq_iff {stops ends : π → Bool} {items : π → List ι}
    (early : ∀ page, stops page = ((items page).isEmpty || ends page))
    (answers : List (Except ε π)) :
    (followed stops answers).flatMap items = (followed ends answers).flatMap items ↔
      (followed ends answers).Pairwise fun first later => items first = [] → items later = [] := by
  induction answers with
  | nil => simp
  | cons answer answers ih =>
      cases answer with
      | error err => simp
      | ok page =>
          rw [followed_ok, followed_ok, early]
          cases last : ends page with
          | true => simp
          | false =>
              rw [Bool.or_false, if_neg Bool.false_ne_true, List.flatMap_cons, List.flatMap_cons,
                List.append_cancel_left_eq, List.pairwise_cons]
              by_cases empty : items page = []
              · have stopped : (items page).isEmpty = true := by rw [empty, List.isEmpty_nil]
                rw [stopped, if_pos rfl, List.flatMap_nil, eq_comm, List.flatMap_eq_nil_iff]
                constructor
                · intro missed
                  have all : (followed ends answers).Pairwise fun _ _ => True :=
                    List.pairwise_of_forall fun _ _ => trivial
                  exact ⟨fun later mem _ => missed later mem,
                    all.imp_of_mem fun _ mem _ _ => missed _ mem⟩
                · exact fun dense later mem => dense.1 later mem empty
              · have goesOn : (items page).isEmpty = false := by simpa using empty
                rw [goesOn, if_neg Bool.false_ne_true, ih]
                exact (and_iff_right fun _ _ none => absurd none empty).symm

end Skybase.Paging
