import Mathlib.Data.List.DropRight
import Skybase.Form.Parameters

/-!
# The input of a URL parser

Before it reads a URL, the parser trims controls and spaces at the ends and
removes tabs and line ends everywhere.  Of parameters that were joined without
being encoded, the last value can lose its end, and every value a tab or a line
end.
-/

namespace Skybase.Form

/-- A control or a space: trimmed at the ends of a URL. -/
def isTrimmed (c : Char) : Bool := c ≤ ' '

/-- No tab and no line end: these are removed from a URL. -/
def isKept (c : Char) : Bool := c != '\t' && c != '\n' && c != '\r'

/-- A URL without what the parser drops. -/
def inputOf (url : List Char) : List Char :=
  ((url.dropWhile isTrimmed).rdropWhile isTrimmed).filter isKept

/-- A value in which no character is removed, ends the parameter or is replaced. -/
structure Kept (value : List Char) : Prop where
  verbatim : Verbatim value
  kept : ∀ c ∈ value, isKept c = true

/-- A value of whose end nothing is trimmed. -/
def Untrimmed (value : List Char) : Prop := ∀ c ∈ value.getLast?, isTrimmed c = false

/-- Letters and digits are not trimmed. -/
theorem isTrimmed_of_isAlphanum {c : Char} (alphanum : c.isAlphanum = true) :
    isTrimmed c = false := by
  apply decide_eq_false
  intro low
  have bound : c.toNat ≤ 32 := low
  exact absurd ((Text.toNat_of_isAlphanum alphanum).1.trans bound) (by decide)

/-- Letters and digits are not removed. -/
theorem isKept_of_isAlphanum {c : Char} (alphanum : c.isAlphanum = true) : isKept c = true := by
  by_contra removed
  have dropped : c = '\t' ∨ c = '\n' ∨ c = '\r' := by
    simpa [isKept, or_iff_not_imp_left] using removed
  rcases dropped with rfl | rfl | rfl <;> exact absurd alphanum (by decide)

/-! ## Trimming -/

theorem mem_inputOf {url : List Char} {c : Char} (mem : c ∈ inputOf url) : c ∈ url :=
  (List.dropWhile_suffix _).subset
    ((List.rdropWhile_prefix _ _).subset (List.mem_filter.mp mem).1)

/-- Trimming at the end stops at a character that stays. -/
theorem rdropWhile_append_cons {stop : Char} (stays : isTrimmed stop = false)
    (front back : List Char) :
    (front ++ stop :: back).rdropWhile isTrimmed = front ++ stop :: back.rdropWhile isTrimmed := by
  induction back using List.reverseRecOn with
  | nil =>
      rw [List.rdropWhile_concat_neg _ _ _ (by rw [stays]; exact Bool.false_ne_true),
        List.rdropWhile_nil]
  | append_singleton back last ih =>
      have moved : front ++ stop :: (back ++ [last]) = (front ++ stop :: back) ++ [last] := by simp
      by_cases trimmed : isTrimmed last = true
      · rw [moved, List.rdropWhile_concat_pos _ _ _ trimmed, ih,
          List.rdropWhile_concat_pos _ _ _ trimmed]
      · rw [moved, List.rdropWhile_concat_neg _ _ _ trimmed,
          List.rdropWhile_concat_neg _ _ _ trimmed, ← moved]

/-- Trimming at the front stops at a character that stays. -/
theorem dropWhile_append_of_stays {front : List Char} {stop : Char} (mem : stop ∈ front)
    (stays : isTrimmed stop = false) (back : List Char) :
    (front ++ back).dropWhile isTrimmed = front.dropWhile isTrimmed ++ back := by
  have left : (front.dropWhile isTrimmed).isEmpty = false := by
    rw [List.isEmpty_eq_false_iff]
    intro gone
    rw [List.dropWhile_eq_nil_iff] at gone
    rw [gone stop mem] at stays
    cases stays
  rw [List.dropWhile_append, left]
  rfl

theorem rdropWhile_eq_self_iff_untrimmed (value : List Char) :
    value.rdropWhile isTrimmed = value ↔ Untrimmed value := by
  rw [List.rdropWhile_eq_self_iff, Untrimmed]
  constructor
  · intro stays c last
    obtain ⟨front, rfl⟩ := List.getLast?_eq_some_iff.mp last
    have lasting := stays (by simp)
    rw [List.getLast_concat] at lasting
    exact Bool.not_eq_true _ ▸ lasting
  · intro untrimmed nonempty trimmed
    rw [untrimmed _ (List.getLast?_eq_some_getLast nonempty)] at trimmed
    cases trimmed

/-! ## What arrives of parameters -/

/-- The parameters without the end that is trimmed. -/
def trimLast : List (List Char × List Char) → List (List Char × List Char)
  | [] => []
  | [(name, value)] => [(name, value.rdropWhile isTrimmed)]
  | first :: second :: rest => first :: trimLast (second :: rest)

/-- The parameters without the characters that are removed. -/
def removeAll (parameters : List (List Char × List Char)) : List (List Char × List Char) :=
  parameters.map fun p => (p.1, p.2.filter isKept)

theorem rdropWhile_joined (parameters : List (List Char × List Char)) :
    (joined parameters).rdropWhile isTrimmed = joined (trimLast parameters) := by
  induction parameters using trimLast.induct with
  | case1 => rfl
  | case2 name value =>
      rw [trimLast, joined_singleton, joined_singleton]
      exact rdropWhile_append_cons (by decide) name value
  | case3 first second rest ih =>
      have more : trimLast (second :: rest) ≠ [] := by
        cases rest <;> simp [trimLast]
      rw [trimLast, joined_cons first (List.cons_ne_nil _ _), joined_cons first more, ← ih]
      exact rdropWhile_append_cons (by decide) (written first) _

theorem filter_written {name : List Char} (plain : ∀ c ∈ name, isKept c = true)
    (value : List Char) :
    (written (name, value)).filter isKept = written (name, value.filter isKept) := by
  have equals : isKept '=' = true := by decide
  rw [written, written, List.filter_append, List.filter_eq_self.mpr plain,
    List.filter_cons_of_pos equals]

theorem filter_joined {parameters : List (List Char × List Char)}
    (plain : ∀ p ∈ parameters, ∀ c ∈ p.1, isKept c = true) :
    (joined parameters).filter isKept = joined (removeAll parameters) := by
  have ampersand : isKept '&' = true := by decide
  induction parameters with
  | nil => rfl
  | cons p rest ih =>
      rw [List.forall_mem_cons] at plain
      have first := filter_written plain.1 p.2
      by_cases more : rest = []
      · rw [more, removeAll, List.map_cons, List.map_nil, joined_singleton, joined_singleton]
        exact first
      · have left : removeAll rest ≠ [] := by simpa [removeAll] using more
        have removed : removeAll (p :: rest) = (p.1, p.2.filter isKept) :: removeAll rest := rfl
        rw [removed, joined_cons p more, joined_cons _ left, ← ih plain.2, List.filter_append,
          List.filter_cons_of_pos ampersand]
        exact congrArg (· ++ _) first

theorem names_trimLast {parameters : List (List Char × List Char)}
    (names : ∀ p ∈ parameters, ∀ c ∈ p.1, isKept c = true) :
    ∀ p ∈ trimLast parameters, ∀ c ∈ p.1, isKept c = true := by
  induction parameters using trimLast.induct with
  | case1 => exact names
  | case2 name value =>
      intro p mem
      rw [List.mem_singleton.mp mem]
      exact names (name, value) List.mem_cons_self
  | case3 first second rest ih =>
      rw [List.forall_mem_cons] at names
      rw [trimLast, List.forall_mem_cons]
      exact ⟨names.1, ih names.2⟩

/-- What arrives of joined parameters lacks what was trimmed and removed. -/
theorem lost_removeAll_trimLast (parameters : List (List Char × List Char)) :
    Lost (removeAll (trimLast parameters)) parameters := by
  have removed : ∀ p : List Char × List Char, p.1 = p.1 ∧ (p.2.filter isKept).Sublist p.2 :=
    fun p => ⟨rfl, List.filter_sublist⟩
  induction parameters using trimLast.induct with
  | case1 => exact .nil
  | case2 name value =>
      refine .cons ⟨rfl, ?_⟩ .nil
      exact List.filter_sublist.trans (List.rdropWhile_prefix _ _).sublist
  | case3 first second rest ih => exact .cons (removed first) ih

/-- Nothing is lost exactly if no character is removed and the last value is not trimmed. -/
theorem removeAll_trimLast_eq_iff (parameters : List (List Char × List Char)) :
    removeAll (trimLast parameters) = parameters ↔
      (∀ p ∈ parameters, ∀ c ∈ p.2, isKept c = true) ∧
        ∀ p ∈ parameters.getLast?, Untrimmed p.2 := by
  induction parameters using trimLast.induct with
  | case1 => exact iff_of_true rfl ⟨List.forall_mem_nil _, fun p absurd => by cases absurd⟩
  | case2 name value =>
      have last : (∀ p ∈ [(name, value)].getLast?, Untrimmed p.2) ↔ Untrimmed value := by simp
      have all : (∀ p ∈ [(name, value)], ∀ c ∈ p.2, isKept c = true) ↔
          ∀ c ∈ value, isKept c = true := by simp
      have only : removeAll (trimLast [(name, value)]) = [(name, value)] ↔
          (value.rdropWhile isTrimmed).filter isKept = value := by simp [removeAll, trimLast]
      rw [last, all, only, ← rdropWhile_eq_self_iff_untrimmed]
      constructor
      · intro same
        have trimmed : value.rdropWhile isTrimmed = value := by
          apply (List.rdropWhile_prefix _ _).sublist.antisymm
          conv_lhs => rw [← same]
          exact List.filter_sublist
        rw [trimmed] at same
        exact ⟨List.filter_eq_self.mp same, trimmed⟩
      · rintro ⟨kept, trimmed⟩
        rw [trimmed, List.filter_eq_self.mpr kept]
  | case3 first second rest ih =>
      have removed : removeAll (trimLast (first :: second :: rest)) =
          (first.1, first.2.filter isKept) :: removeAll (trimLast (second :: rest)) := rfl
      have last : (first :: second :: rest).getLast? = (second :: rest).getLast? :=
        List.getLast?_cons_of_ne_nil (List.cons_ne_nil _ _)
      have same : (first.1, first.2.filter isKept) = first ↔ ∀ c ∈ first.2, isKept c = true := by
        rw [Prod.ext_iff, and_iff_right rfl, List.filter_eq_self]
      have all : (∀ p ∈ first :: second :: rest, ∀ c ∈ p.2, isKept c = true) ↔
          (∀ c ∈ first.2, isKept c = true) ∧
            ∀ p ∈ second :: rest, ∀ c ∈ p.2, isKept c = true := List.forall_mem_cons
      rw [removed, last, List.cons.injEq, ih, same, all, and_assoc]

/-- The parser reads joined parameters as they were written exactly if no value loses a character
or is not verbatim. -/
theorem parametersOf_inputOf_joined_iff {front : List Char} {stop : Char} (mem : stop ∈ front)
    (stays : isTrimmed stop = false) (noFragment : '#' ∉ front) (noQuery : '?' ∉ front)
    {parameters : List (List Char × List Char)} (plain : ∀ p ∈ parameters, PlainName p.1)
    (names : ∀ p ∈ parameters, ∀ c ∈ p.1, isKept c = true) :
    parametersOf (inputOf (front ++ '?' :: joined parameters)) =
        parameters.map (fun p => (bytesOf p.1, bytesOf p.2)) ↔
      (∀ p ∈ parameters, Kept p.2) ∧ ∀ p ∈ parameters.getLast?, Untrimmed p.2 := by
  let left := (front.dropWhile isTrimmed).filter isKept
  have within : ∀ c ∈ left, c ∈ front := fun c inside =>
    (List.dropWhile_suffix _).subset (List.mem_filter.mp inside).1
  have input : inputOf (front ++ '?' :: joined parameters) =
      left ++ '?' :: joined (removeAll (trimLast parameters)) := by
    have mark : isKept '?' = true := by decide
    rw [inputOf, dropWhile_append_of_stays mem stays, rdropWhile_append_cons (by decide),
      List.filter_append, List.filter_cons_of_pos mark, rdropWhile_joined,
      filter_joined (names_trimLast names)]
  rw [input, parametersOf_joined_iff (fun inside => noFragment (within _ inside))
    (fun inside => noQuery (within _ inside)) (lost_removeAll_trimLast parameters) plain,
    removeAll_trimLast_eq_iff]
  constructor
  · rintro ⟨⟨kept, last⟩, verbatim⟩
    exact ⟨fun p pMem => ⟨verbatim p pMem, kept p pMem⟩, last⟩
  · rintro ⟨all, last⟩
    exact ⟨⟨fun p pMem => (all p pMem).kept, last⟩, fun p pMem => (all p pMem).verbatim⟩

/-- A URL without a query is read so. -/
theorem parametersOf_inputOf_of_plain {url : List Char} (noFragment : '#' ∉ url)
    (noQuery : '?' ∉ url) : parametersOf (inputOf url) = [] :=
  parametersOf_of_plain (fun mem => noFragment (mem_inputOf mem))
    fun mem => noQuery (mem_inputOf mem)

end Skybase.Form
