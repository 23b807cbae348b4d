import Mathlib.Data.List.Induction
import Mathlib.Algebra.BigOperators.Group.List.Basic
import Mathlib.Algebra.Ring.Nat

/-!
# Spans of sized elements

Offsets into a list whose elements have sizes, such as the characters of an
encoded text.  An offset is a boundary when it is the total size of a prefix,
and a span between two boundaries is the piece of the list that lies between
them.  The last section is about the longest prefix that a trimming loop stops
at, where the test of the last element may look at the whole prefix.
-/

namespace Skybase.Span

universe u

variable {α : Type u} (size : α → Nat)

/-- The total size of a list. -/
def total (elements : List α) : Nat := (elements.map size).sum

@[simp]
theorem total_nil : total size [] = 0 :=
  rfl

@[simp]
theorem total_cons (element : α) (rest : List α) :
    total size (element :: rest) = size element + total size rest :=
  List.sum_cons

@[simp]
theorem total_append (first second : List α) :
    total size (first ++ second) = total size first + total size second := by
  rw [total, List.map_append, List.sum_append, total, total]

/-- The list at an offset, if the offset is a boundary. -/
def splitAt : Nat → List α → Option (List α × List α)
  | 0, elements => some ([], elements)
  | _ + 1, [] => none
  | offset + 1, element :: rest =>
      if size element ≤ offset + 1 then
        (splitAt (offset + 1 - size element) rest).map fun (front, back) => (element :: front, back)
      else none

/-- An offset between two elements, or at an end of the list. -/
def IsBoundary (elements : List α) (offset : Nat) : Prop := (splitAt size offset elements).isSome

/-- The piece of a list between two offsets, if both are boundaries. -/
def slice (elements : List α) (start stop : Nat) : Option (List α) :=
  if start ≤ stop then do
    let (_, rest) ← splitAt size start elements
    let (piece, _) ← splitAt size (stop - start) rest
    some piece
  else none

variable {size}

theorem splitAt_total_append (pos : ∀ element, 0 < size element) (front back : List α) :
    splitAt size (total size front) (front ++ back) = some (front, back) := by
  induction front with
  | nil => cases back <;> rfl
  | cons element front ih =>
      obtain ⟨offset, eq⟩ : ∃ offset, size element + total size front = offset + 1 :=
        Nat.exists_eq_succ_of_ne_zero (by have := pos element; omega)
      rw [total_cons, eq, List.cons_append, splitAt, if_pos (by omega),
        show offset + 1 - size element = total size front by omega, ih]
      rfl

theorem eq_append_of_splitAt {offset : Nat} {elements front back : List α}
    (split : splitAt size offset elements = some (front, back)) :
    elements = front ++ back ∧ total size front = offset := by
  induction elements generalizing offset front with
  | nil =>
      cases offset with
      | zero =>
          obtain ⟨rfl, rfl⟩ := Prod.mk.inj (Option.some.inj split)
          exact ⟨rfl, rfl⟩
      | succ offset => exact nomatch split
  | cons element rest ih =>
      cases offset with
      | zero =>
          obtain ⟨rfl, rfl⟩ := Prod.mk.inj (Option.some.inj split)
          exact ⟨rfl, rfl⟩
      | succ offset =>
          rw [splitAt] at split
          split at split
          · next fits =>
              obtain ⟨⟨tail, _⟩, found, same⟩ := Option.map_eq_some_iff.mp split
              obtain ⟨rfl, rfl⟩ := Prod.mk.inj same
              obtain ⟨rfl, size_eq⟩ := ih found
              exact ⟨rfl, by rw [total_cons, size_eq]; omega⟩
          · exact nomatch split

/-- A boundary is the total size of a prefix. -/
theorem isBoundary_iff (pos : ∀ element, 0 < size element) {elements : List α} {offset : Nat} :
    IsBoundary size elements offset ↔ ∃ front, front <+: elements ∧ total size front = offset := by
  rw [IsBoundary, Option.isSome_iff_exists]
  constructor
  · rintro ⟨⟨front, back⟩, split⟩
    obtain ⟨rfl, size_eq⟩ := eq_append_of_splitAt split
    exact ⟨front, List.prefix_append front back, size_eq⟩
  · rintro ⟨front, ⟨back, rfl⟩, rfl⟩
    exact ⟨(front, back), splitAt_total_append pos front back⟩

/-- A slice is the piece that begins and ends at the offsets. -/
theorem slice_total_append (pos : ∀ element, 0 < size element) (front piece back : List α) :
    slice size (front ++ piece ++ back) (total size front)
      (total size front + total size piece) = some piece := by
  rw [slice, if_pos (Nat.le_add_right _ _), List.append_assoc, splitAt_total_append pos,
    Nat.add_sub_cancel_left]
  simp only [Option.bind_eq_bind, Option.bind_some, splitAt_total_append pos]

/-! ## Trimming at the end -/

section Trimming

variable (strips : List α → Bool)

/-- The loop that takes away the last element as long as the test of the list asks for it; the
list is given with its last element first. -/
def trimLoop : List α → List α
  | [] => []
  | last :: rest =>
      if strips (last :: rest).reverse then trimLoop rest else last :: rest

/-- A list without the elements at its end that a test of the whole list takes away. -/
def trimEnd (elements : List α) : List α := (trimLoop strips elements.reverse).reverse

/-- The longest prefix that is not empty and that the test leaves as it is. -/
structure LongestKept (elements kept : List α) : Prop where
  isPrefix : kept <+: elements
  ne_nil : kept ≠ []
  keeps : strips kept = false
  longest : ∀ other, other <+: elements → other ≠ [] → strips other = false → other <+: kept

variable {strips}

theorem trimEnd_concat (front : List α) (last : α) :
    trimEnd strips (front ++ [last]) =
      if strips (front ++ [last]) then trimEnd strips front else front ++ [last] := by
  rw [trimEnd, List.reverse_concat', trimLoop, List.reverse_cons, List.reverse_reverse]
  split
  · rfl
  · rw [List.reverse_cons, List.reverse_reverse]

/-- The loop stops at the longest prefix that the test leaves as it is, if there is one. -/
theorem longestKept_trimEnd {elements : List α} (nonempty : trimEnd strips elements ≠ []) :
    LongestKept strips elements (trimEnd strips elements) := by
  induction elements using List.reverseRecOn with
  | nil => exact absurd rfl nonempty
  | append_singleton front last ih =>
      rw [trimEnd_concat] at nonempty ⊢
      by_cases stripped : strips (front ++ [last]) = true
      · rw [if_pos stripped] at nonempty ⊢
        obtain ⟨isPrefix, ne_nil, keeps, longest⟩ := ih nonempty
        refine ⟨isPrefix.trans (List.prefix_append front [last]), ne_nil, keeps, ?_⟩
        intro other isOther otherNonempty otherKeeps
        -- a prefix that is kept is not the whole list, so it is one of the shorter list
        obtain rfl | shorter := List.prefix_concat_iff.mp isOther
        · exact absurd stripped (by rw [otherKeeps]; exact Bool.false_ne_true)
        · exact longest other shorter otherNonempty otherKeeps
      · rw [if_neg stripped] at nonempty ⊢
        exact ⟨List.prefix_refl _, nonempty, eq_false_of_ne_true stripped,
          fun _ isOther _ _ => isOther⟩

end Trimming

end Skybase.Span
