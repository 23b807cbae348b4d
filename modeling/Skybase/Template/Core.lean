import Mathlib.Data.List.Count
import Mathlib.Data.String.Basic

/-!
# Texts with positional parameters

A fragment is a text in which a mark stands for a parameter, together with the
parameters that it brings.  Fragments are balanced if they bring one parameter
for each of their marks.  In a text that is joined from balanced fragments, the
mark at a position of the count and the parameter at that position come from the
same fragment, and from the same place in it.
-/

namespace Skybase.Template

universe u

/-- A text and the parameters for its marks. -/
structure Fragment (α : Type u) where
  text : String
  params : List α

/-- The number of marks in a text. -/
def marks (mark : Char) (text : String) : Nat := text.toList.count mark

namespace Fragment

variable {α : Type u}

/-- The empty fragment. -/
def empty : Fragment α := ⟨"", []⟩

/-- One fragment after another. -/
def append (first second : Fragment α) : Fragment α :=
  ⟨first.text ++ second.text, first.params ++ second.params⟩

theorem append_empty (fragment : Fragment α) : fragment.append empty = fragment := by
  rw [append, empty, String.append_empty, List.append_nil]

theorem append_assoc (first second third : Fragment α) :
    (first.append second).append third = first.append (second.append third) := by
  simp only [append, String.append_assoc, List.append_assoc]

/-- Fragments in a row. -/
def join : List (Fragment α) → Fragment α
  | [] => empty
  | fragment :: fragments => fragment.append (join fragments)

@[simp]
theorem text_join_cons (fragment : Fragment α) (fragments : List (Fragment α)) :
    (join (fragment :: fragments)).text = fragment.text ++ (join fragments).text :=
  rfl

@[simp]
theorem params_join_cons (fragment : Fragment α) (fragments : List (Fragment α)) :
    (join (fragment :: fragments)).params = fragment.params ++ (join fragments).params :=
  rfl

theorem join_append (first second : List (Fragment α)) :
    join (first ++ second) = (join first).append (join second) := by
  induction first with
  | nil =>
      rw [List.nil_append, join, append, empty, String.empty_append, List.nil_append]
  | cons fragment fragments ih => rw [List.cons_append, join, join, ih, append_assoc]

/-- Appending the results of a fallible map one by one appends them all. -/
theorem foldlM_append {ε : Type} {β : Type} {step : Fragment α → β → Except ε (Fragment α)}
    {fragment : β → Except ε (Fragment α)}
    (steps : ∀ before element, step before element = (fragment element).map before.append)
    (elements : List β) (before : Fragment α) :
    elements.foldlM step before =
      (elements.mapM fragment).map fun fragments => before.append (join fragments) := by
  induction elements generalizing before with
  | nil =>
      change Except.ok before = Except.ok (before.append (join []))
      rw [join, append_empty]
  | cons element elements ih =>
      rw [List.foldlM_cons, List.mapM_cons, steps]
      cases fragment element with
      | error err => rfl
      | ok first =>
          change elements.foldlM step (before.append first) = _
          rw [ih]
          change _ = Except.map _ ((elements.mapM fragment).map fun rest => first :: rest)
          cases elements.mapM fragment with
          | error err => rfl
          | ok rest =>
              exact congrArg Except.ok (append_assoc before first (join rest))

/-- Texts that agree one by one make the same text. -/
theorem text_join_eq {first second : List (Fragment α)}
    (same : first.map text = second.map text) : (join first).text = (join second).text := by
  induction first generalizing second with
  | nil =>
      rw [List.map_nil, eq_comm, List.map_eq_nil_iff] at same
      rw [same]
  | cons fragment fragments ih =>
      cases second with
      | nil => cases same
      | cons other others =>
          obtain ⟨head, tail⟩ := List.cons.inj same
          rw [text_join_cons, text_join_cons, head, ih tail]

/-- The fragment brings one parameter for each mark. -/
def Balanced (mark : Char) (fragment : Fragment α) : Prop :=
  marks mark fragment.text = fragment.params.length

theorem marks_append (mark : Char) (first second : String) :
    marks mark (first ++ second) = marks mark first + marks mark second := by
  rw [marks, String.toList_append, List.count_append]
  rfl

theorem Balanced.append {mark : Char} {first second : Fragment α} (left : first.Balanced mark)
    (right : second.Balanced mark) : (first.append second).Balanced mark := by
  unfold Balanced Fragment.append at *
  dsimp only
  rw [marks_append, left, right, List.length_append]

theorem balanced_join {mark : Char} {fragments : List (Fragment α)}
    (balanced : ∀ fragment ∈ fragments, fragment.Balanced mark) :
    (join fragments).Balanced mark := by
  induction fragments with
  | nil => rfl
  | cons fragment fragments ih =>
      rw [List.forall_mem_cons] at balanced
      exact balanced.1.append (ih balanced.2)

end Fragment

/-! ## Positions of marks -/

/-- Where the mark with the given number stands. -/
def markAt (mark : Char) : List Char → Nat → Option Nat
  | [], _ => none
  | c :: chars, number =>
      if c ≠ mark then (markAt mark chars number).map (· + 1)
      else if number = 0 then some 0
      else (markAt mark chars (number - 1)).map (· + 1)

variable {mark : Char}

theorem markAt_cons_of_ne {c : Char} (differs : c ≠ mark) (chars : List Char) (number : Nat) :
    markAt mark (c :: chars) number = (markAt mark chars number).map (· + 1) :=
  if_pos differs

theorem markAt_cons_zero (mark : Char) (chars : List Char) :
    markAt mark (mark :: chars) 0 = some 0 := by
  rw [markAt, if_neg (not_not.mpr rfl), if_pos rfl]

theorem markAt_cons_succ (mark : Char) (chars : List Char) (number : Nat) :
    markAt mark (mark :: chars) (number + 1) = (markAt mark chars number).map (· + 1) := by
  rw [markAt, if_neg (not_not.mpr rfl), if_neg (Nat.succ_ne_zero number), Nat.add_sub_cancel]

theorem markAt_isSome {chars : List Char} {number : Nat} (bound : number < chars.count mark) :
    ∃ position, markAt mark chars number = some position := by
  induction chars generalizing number with
  | nil => exact absurd bound (Nat.not_lt_zero number)
  | cons c chars ih =>
      by_cases same : c = mark
      · subst same
        cases number with
        | zero => exact ⟨0, markAt_cons_zero c chars⟩
        | succ number =>
            rw [List.count_cons_self] at bound
            rcases ih (Nat.lt_of_succ_lt_succ bound) with ⟨position, found⟩
            exact ⟨position + 1, by rw [markAt_cons_succ, found, Option.map_some]⟩
      · rw [List.count_cons_of_ne same] at bound
        rcases ih bound with ⟨position, found⟩
        exact ⟨position + 1, by rw [markAt_cons_of_ne same, found, Option.map_some]⟩

/-- The first marks of a text are those of its first part. -/
theorem markAt_append_of_lt {first : List Char} (second : List Char) {number : Nat}
    (bound : number < first.count mark) :
    markAt mark (first ++ second) number = markAt mark first number := by
  induction first generalizing number with
  | nil => exact absurd bound (Nat.not_lt_zero number)
  | cons c first ih =>
      rw [List.cons_append]
      by_cases same : c = mark
      · subst same
        cases number with
        | zero => rw [markAt_cons_zero, markAt_cons_zero]
        | succ number =>
            rw [List.count_cons_self] at bound
            rw [markAt_cons_succ, markAt_cons_succ, ih (Nat.lt_of_succ_lt_succ bound)]
      · rw [List.count_cons_of_ne same] at bound
        rw [markAt_cons_of_ne same, markAt_cons_of_ne same, ih bound]

/-- The other marks are those of the second part, behind the first one. -/
theorem markAt_append_add (first second : List Char) (number : Nat) :
    markAt mark (first ++ second) (first.count mark + number) =
      (markAt mark second number).map (first.length + ·) := by
  induction first with
  | nil =>
      rw [List.nil_append, List.count_nil, Nat.zero_add]
      cases markAt mark second number with
      | none => rfl
      | some position => rw [Option.map_some, List.length_nil, Nat.zero_add]
  | cons c first ih =>
      have shifted : (markAt mark second number).map (fun position => first.length + 1 + position) =
          ((markAt mark second number).map (first.length + ·)).map (· + 1) := by
        rw [Option.map_map]
        congr 1
        funext position
        exact Nat.add_right_comm _ _ _
      rw [List.cons_append, List.length_cons, shifted, ← ih]
      by_cases same : c = mark
      · subst same
        rw [List.count_cons_self, Nat.add_right_comm, markAt_cons_succ]
      · rw [List.count_cons_of_ne same, markAt_cons_of_ne same]

/-! ## Alignment -/

open Fragment in
/-- In a text joined from balanced fragments, each parameter is that of a
fragment, and the mark with its number stands where that fragment has the mark
for the parameter. -/
theorem exists_fragment_of_lt {α : Type u} {fragments : List (Fragment α)}
    (balanced : ∀ fragment ∈ fragments, fragment.Balanced mark) {number : Nat}
    (bound : number < (join fragments).params.length) :
    ∃ before fragment after place position, fragments = before ++ fragment :: after ∧
      place < fragment.params.length ∧
      (join fragments).params[number]? = fragment.params[place]? ∧
      markAt mark fragment.text.toList place = some position ∧
      markAt mark (join fragments).text.toList number =
        some ((join before).text.toList.length + position) := by
  induction fragments generalizing number with
  | nil => exact absurd bound (Nat.not_lt_zero number)
  | cons fragment fragments ih =>
      rw [List.forall_mem_cons] at balanced
      have counted : fragment.text.toList.count mark = fragment.params.length := balanced.1
      rw [params_join_cons, List.length_append] at bound
      rw [params_join_cons, text_join_cons, String.toList_append]
      by_cases here : number < fragment.params.length
      · have marked : number < fragment.text.toList.count mark := counted ▸ here
        rcases markAt_isSome marked with ⟨position, found⟩
        refine ⟨[], fragment, fragments, number, position, rfl, here, ?_, found, ?_⟩
        · exact List.getElem?_append_left here
        · rw [markAt_append_of_lt _ marked, found, join, empty]
          simp
      · obtain ⟨rest, rfl⟩ := Nat.exists_eq_add_of_le (Nat.le_of_not_lt here)
        have later : rest < (join fragments).params.length := Nat.lt_of_add_lt_add_left bound
        rcases ih balanced.2 later with
          ⟨before, owner, after, place, position, split, inside, same, found, stands⟩
        refine ⟨fragment :: before, owner, after, place, position, ?_, inside, ?_, found, ?_⟩
        · rw [split, List.cons_append]
        · rw [List.getElem?_append_right (Nat.le_add_right _ _), Nat.add_sub_cancel_left, same]
        · rw [← counted, markAt_append_add, stands, Option.map_some, text_join_cons,
            String.toList_append, List.length_append, Nat.add_assoc]

end Skybase.Template
