/-!
# Errors

The variants of the root error type that the modelled layers return.
-/

namespace Skybase

/-- `SkybaseError`. -/
inductive SkybaseError where
  | auth (message : String)
  | repo (message : String)
  | index (message : String)
  | storage (message : String)
  | chat (message : String)
  | network (message : String)
  | serialization (message : String)
deriving DecidableEq

namespace SkybaseError

/-- The display text of an error. -/
def display : SkybaseError → String
  | auth message => s!"Authentication error: {message}"
  | repo message => s!"Repository error: {message}"
  | index message => s!"Index error: {message}"
  | storage message => s!"Storage error: {message}"
  | chat message => s!"Chat/DM service error: {message}"
  | network message => s!"Network error: {message}"
  | serialization message => s!"Serialization error: {message}"

/-- The `Index` error of a timestamp that `i64` cannot hold. -/
def indexedAtOutOfRange (conversion : String) : SkybaseError :=
  .index s!"indexed_at out of i64 range: {conversion}"

end SkybaseError

/-- A chain of fallible calls succeeds exactly if both parts do. -/
theorem Except.bind_eq_ok_iff {ε α β : Type} {first : Except ε α} {rest : α → Except ε β}
    {result : β} :
    (first >>= rest) = .ok result ↔ ∃ value, first = .ok value ∧ rest value = .ok result := by
  cases first with
  | error err =>
      constructor
      · intro absurd
        cases absurd
      · rintro ⟨value, absurd, _⟩
        cases absurd
  | ok value =>
      constructor
      · intro done
        exact ⟨value, rfl, done⟩
      · rintro ⟨other, same, done⟩
        cases same
        exact done

/-! ## Fallible maps over lists -/

section Map

variable {ε α β : Type} {f : α → Except ε β}

theorem Except.mapM_cons_eq_ok_iff {first : α} {rest : List α} {results : List β} :
    (first :: rest).mapM f = .ok results ↔
      ∃ result others, f first = .ok result ∧ rest.mapM f = .ok others ∧
        results = result :: others := by
  rw [List.mapM_cons, Except.bind_eq_ok_iff]
  constructor
  · rintro ⟨result, mapped, tail⟩
    rcases Except.bind_eq_ok_iff.mp tail with ⟨others, rest_eq, done⟩
    cases done
    exact ⟨result, others, mapped, rest_eq, rfl⟩
  · rintro ⟨result, others, mapped, rest_eq, rfl⟩
    exact ⟨result, mapped, Except.bind_eq_ok_iff.mpr ⟨others, rest_eq, rfl⟩⟩

/-- Mapping the results of a fallible map. -/
theorem Except.mapM_map {γ : Type} (g : β → γ) (elements : List α) :
    elements.mapM (fun element => (f element).map g) = (elements.mapM f).map (List.map g) := by
  induction elements with
  | nil => rfl
  | cons first rest ih =>
      rw [List.mapM_cons, List.mapM_cons, ih]
      cases f first with
      | error err => rfl
      | ok result =>
          change _ = Except.map _ ((rest.mapM f).map fun others => result :: others)
          cases rest.mapM f <;> rfl

theorem Except.isEmpty_of_mapM_ok {elements : List α} {results : List β}
    (mapped : elements.mapM f = .ok results) : elements.isEmpty = results.isEmpty := by
  cases elements with
  | nil =>
      cases mapped
      rfl
  | cons first rest =>
      rcases Except.mapM_cons_eq_ok_iff.mp mapped with ⟨result, others, _, _, rfl⟩
      rfl

/-- What can be read off the results in the same way as off the elements. -/
theorem Except.map_of_mapM_ok {γ : Type} {g : β → γ} {h : α → γ} {elements : List α}
    (reads : ∀ element ∈ elements, ∀ result, f element = .ok result → g result = h element)
    {results : List β} (mapped : elements.mapM f = .ok results) :
    results.map g = elements.map h := by
  induction elements generalizing results with
  | nil =>
      cases mapped
      rfl
  | cons first rest ih =>
      rcases Except.mapM_cons_eq_ok_iff.mp mapped with ⟨result, others, first_eq, rest_eq, rfl⟩
      rw [List.forall_mem_cons] at reads
      rw [List.map_cons, List.map_cons, reads.1 result first_eq, ih reads.2 rest_eq]

/-- Permuting the elements permutes the results. -/
theorem Except.mapM_ok_perm {elements others : List α} (perm : elements.Perm others)
    {results : List β} (mapped : elements.mapM f = .ok results) :
    ∃ permuted, others.mapM f = .ok permuted ∧ results.Perm permuted := by
  induction perm generalizing results with
  | nil => exact ⟨results, mapped, .refl results⟩
  | cons first _ ih =>
      rcases Except.mapM_cons_eq_ok_iff.mp mapped with ⟨result, rest, first_eq, rest_eq, rfl⟩
      rcases ih rest_eq with ⟨permuted, permuted_eq, perm⟩
      exact ⟨result :: permuted,
        Except.mapM_cons_eq_ok_iff.mpr ⟨_, _, first_eq, permuted_eq, rfl⟩, perm.cons result⟩
  | swap first second rest =>
      rcases Except.mapM_cons_eq_ok_iff.mp mapped with ⟨left, tail, left_eq, tail_eq, rfl⟩
      rcases Except.mapM_cons_eq_ok_iff.mp tail_eq with ⟨right, others, right_eq, others_eq, rfl⟩
      have swapped := Except.mapM_cons_eq_ok_iff.mpr ⟨_, _, left_eq, others_eq, rfl⟩
      exact ⟨right :: left :: others,
        Except.mapM_cons_eq_ok_iff.mpr ⟨_, _, right_eq, swapped, rfl⟩, .swap right left others⟩
  | trans _ _ ih ih' =>
      rcases ih mapped with ⟨middle, middle_eq, toMiddle⟩
      rcases ih' middle_eq with ⟨last, last_eq, toLast⟩
      exact ⟨last, last_eq, toMiddle.trans toLast⟩

theorem Except.mapM_append_ok {elements others : List α} {results otherResults : List β}
    (mapped : elements.mapM f = .ok results) (otherMapped : others.mapM f = .ok otherResults) :
    (elements ++ others).mapM f = .ok (results ++ otherResults) := by
  rw [List.mapM_append, mapped, otherMapped]
  rfl

theorem Except.exists_of_mapM_append_ok {elements others : List α} {results : List β}
    (mapped : (elements ++ others).mapM f = .ok results) :
    ∃ front back, elements.mapM f = .ok front ∧ others.mapM f = .ok back ∧
      results = front ++ back := by
  rw [List.mapM_append] at mapped
  rcases Except.bind_eq_ok_iff.mp mapped with ⟨front, front_eq, rest⟩
  rcases Except.bind_eq_ok_iff.mp rest with ⟨back, back_eq, done⟩
  exact ⟨front, back, front_eq, back_eq, (Except.ok.inj done).symm⟩

theorem Except.mapM_ok_of_forall {elements : List α}
    (all : ∀ element ∈ elements, ∃ result, f element = .ok result) :
    ∃ results, elements.mapM f = .ok results := by
  induction elements with
  | nil => exact ⟨[], rfl⟩
  | cons first rest ih =>
      rcases all first List.mem_cons_self with ⟨result, mapped⟩
      rcases ih fun element mem => all element (List.mem_cons_of_mem first mem) with
        ⟨others, rest_eq⟩
      exact ⟨result :: others, Except.mapM_cons_eq_ok_iff.mpr ⟨_, _, mapped, rest_eq, rfl⟩⟩

theorem Except.ok_of_mapM_ok {elements : List α} {results : List β}
    (mapped : elements.mapM f = .ok results) :
    ∀ element ∈ elements, ∃ result ∈ results, f element = .ok result := by
  induction elements generalizing results with
  | nil =>
      intro element absurd
      cases absurd
  | cons first rest ih =>
      rcases Except.mapM_cons_eq_ok_iff.mp mapped with ⟨result, others, first_eq, rest_eq, rfl⟩
      intro element mem
      rcases List.mem_cons.mp mem with rfl | later
      · exact ⟨result, List.mem_cons_self, first_eq⟩
      · rcases ih rest_eq element later with ⟨other, otherMem, other_eq⟩
        exact ⟨other, List.mem_cons_of_mem result otherMem, other_eq⟩

theorem Except.exists_of_mapM_ok {elements : List α} {results : List β}
    (mapped : elements.mapM f = .ok results) :
    ∀ result ∈ results, ∃ element ∈ elements, f element = .ok result := by
  induction elements generalizing results with
  | nil =>
      cases mapped
      intro result absurd
      cases absurd
  | cons first rest ih =>
      rcases Except.mapM_cons_eq_ok_iff.mp mapped with ⟨result, others, first_eq, rest_eq, rfl⟩
      intro other mem
      rcases List.mem_cons.mp mem with rfl | later
      · exact ⟨first, List.mem_cons_self, first_eq⟩
      · rcases ih rest_eq other later with ⟨element, elementMem, element_eq⟩
        exact ⟨element, List.mem_cons_of_mem first elementMem, element_eq⟩

end Map

end Skybase
