import Mathlib.Data.List.Induction
import Mathlib.Logic.Function.Basic

/-!
# Keyed change feeds

A feed is a list of changes, each of which sets or clears one key.  Folding a
feed over a view, a partial map from keys to values, gives the view of a
subscriber that has received it.  At every key only the last change on that
key counts, so two feeds with the same changes on each key, in the same order,
lead to the same view; a feed that is delivered with all its settings before
all its clearings does so exactly at the keys where no clearing is overtaken.
-/

namespace Skybase.Feed

universe u v w

/-- One change of a keyed view. -/
inductive Change (κ : Type u) (ν : Type v) where
  | set (key : κ) (value : ν)
  | clear (key : κ)
deriving DecidableEq

namespace Change

variable {κ : Type u} {ν : Type v} {μ : Type w}

/-- The key a change is about. -/
def key : Change κ ν → κ
  | .set key _ => key
  | .clear key => key

/-- What the key holds after the change. -/
def value : Change κ ν → Option ν
  | .set _ value => some value
  | .clear _ => none

/-- Whether the change sets its key. -/
def isSet : Change κ ν → Bool
  | .set _ _ => true
  | .clear _ => false

/-- Translate the values a change carries. -/
def map (f : ν → μ) : Change κ ν → Change κ μ
  | .set key value => .set key (f value)
  | .clear key => .clear key

@[simp]
theorem key_map (f : ν → μ) (change : Change κ ν) : (change.map f).key = change.key := by
  cases change <;> rfl

@[simp]
theorem isSet_map (f : ν → μ) (change : Change κ ν) : (change.map f).isSet = change.isSet := by
  cases change <;> rfl

theorem value_eq_none_iff (change : Change κ ν) : change.value = none ↔ change.isSet = false := by
  cases change <;> simp [value, isSet]

end Change

variable {κ : Type u} {ν : Type v} {μ : Type w} [DecidableEq κ]

/-- The view after one change. -/
def apply (view : κ → Option ν) (change : Change κ ν) : κ → Option ν :=
  Function.update view change.key change.value

/-- The view after a feed. -/
def replay (view : κ → Option ν) (feed : List (Change κ ν)) : κ → Option ν :=
  feed.foldl apply view

@[simp]
theorem replay_append (view : κ → Option ν) (first second : List (Change κ ν)) :
    replay view (first ++ second) = replay (replay view first) second :=
  List.foldl_append

@[simp]
theorem replay_singleton (view : κ → Option ν) (change : Change κ ν) :
    replay view [change] = apply view change :=
  rfl

theorem apply_self {view : κ → Option ν} {change : Change κ ν} {key : κ}
    (about : change.key = key) : apply view change key = change.value := by
  subst about
  exact Function.update_self _ _ _

theorem apply_of_ne {view : κ → Option ν} {change : Change κ ν} {key : κ}
    (other : change.key ≠ key) : apply view change key = view key :=
  Function.update_of_ne other.symm _ _

/-- Folding a feed commutes with translating values. -/
theorem replay_map (f : ν → μ) (view : κ → Option ν) (feed : List (Change κ ν)) :
    replay (fun key => (view key).map f) (feed.map (Change.map f)) =
      fun key => (replay view feed key).map f := by
  induction feed generalizing view with
  | nil => rfl
  | cons change feed ih =>
      change replay (apply _ _) _ = fun key => (replay (apply view change) feed key).map f
      rw [← ih]
      congr 1
      funext key
      by_cases about : change.key = key
      · rw [apply_self about, apply_self ((Change.key_map f change).trans about)]
        cases change <;> rfl
      · rw [apply_of_ne about, apply_of_ne ((Change.key_map f change).trans_ne about)]

/-- The changes of a feed that are about one key. -/
def on (key : κ) (feed : List (Change κ ν)) : List (Change κ ν) :=
  feed.filter fun change => change.key = key

@[simp]
theorem on_append (key : κ) (first second : List (Change κ ν)) :
    on key (first ++ second) = on key first ++ on key second :=
  List.filter_append _ _

/-- At each key only the last change on that key counts. -/
theorem replay_apply (view : κ → Option ν) (feed : List (Change κ ν)) (key : κ) :
    replay view feed key = (on key feed).getLast?.elim (view key) Change.value := by
  induction feed using List.reverseRecOn with
  | nil => rfl
  | append_singleton feed change ih =>
      rw [replay_append, replay_singleton, on_append]
      by_cases about : change.key = key
      · rw [apply_self about]
        simp [on, about]
      · rw [apply_of_ne about, ih]
        simp [on, about]

/-- Feeds that agree on a key lead to views that agree at it. -/
theorem replay_congr {view : κ → Option ν} {first second : List (Change κ ν)} {key : κ}
    (agree : on key first = on key second) :
    replay view first key = replay view second key := by
  rw [replay_apply, replay_apply, agree]

/-- The delivery that sends every setting before every clearing. -/
def setsFirst (feed : List (Change κ ν)) : List (Change κ ν) :=
  feed.filter (fun change => change.isSet) ++ feed.filter (fun change => !change.isSet)

/-- The changes on a key include a clearing and end with a setting, which a
delivery with all settings first lets that clearing undo. -/
def Overtaken (changes : List (Change κ ν)) : Prop :=
  (∃ change ∈ changes, change.isSet = false) ∧
    ∃ last, changes.getLast? = some last ∧ last.isSet = true

omit [DecidableEq κ] in
theorem getLast?_setsFirst_of_clear {changes : List (Change κ ν)}
    (clears : ∃ change ∈ changes, change.isSet = false) :
    ∃ last, (setsFirst changes).getLast? = some last ∧ last.isSet = false := by
  rcases clears with ⟨change, mem, clearing⟩
  have memClears : change ∈ changes.filter fun change => !change.isSet := by
    simp [mem, clearing]
  obtain ⟨last, last_eq⟩ : ∃ last,
      (changes.filter fun change => !change.isSet).getLast? = some last := by
    cases found : (changes.filter fun change => !change.isSet).getLast? with
    | none => simp [List.getLast?_eq_none_iff.mp found] at memClears
    | some last => exact ⟨last, rfl⟩
  exists last, by simp [setsFirst, last_eq]
  simpa using (List.mem_filter.mp (List.mem_of_getLast? last_eq)).2

omit [DecidableEq κ] in
theorem setsFirst_eq_self {changes : List (Change κ ν)}
    (sets : ∀ change ∈ changes, change.isSet = true) : setsFirst changes = changes := by
  rw [setsFirst, List.filter_eq_self.mpr sets, List.filter_eq_nil_iff.mpr, List.append_nil]
  intro change mem
  simp [sets change mem]

theorem on_setsFirst (key : κ) (feed : List (Change κ ν)) :
    on key (setsFirst feed) = setsFirst (on key feed) := by
  simp only [setsFirst, on, List.filter_append, List.filter_filter, Bool.and_comm]

/-- Delivering the settings first is harmless at a key exactly when no
clearing of that key is overtaken. -/
theorem replay_setsFirst_eq_iff (view : κ → Option ν) (feed : List (Change κ ν)) (key : κ) :
    replay view (setsFirst feed) key = replay view feed key ↔ ¬ Overtaken (on key feed) := by
  rw [replay_apply, replay_apply, on_setsFirst]
  by_cases clears : ∃ change ∈ on key feed, change.isSet = false
  · rcases getLast?_setsFirst_of_clear clears with ⟨last, last_eq, clearing⟩
    obtain ⟨final, final_eq⟩ : ∃ final, (on key feed).getLast? = some final := by
      rcases clears with ⟨change, mem, _⟩
      cases found : (on key feed).getLast? with
      | none => simp [List.getLast?_eq_none_iff.mp found] at mem
      | some final => exact ⟨final, rfl⟩
    rw [last_eq, final_eq]
    simp only [Option.elim_some, Overtaken, clears, true_and, final_eq, Option.some.injEq,
      exists_eq_left', Bool.not_eq_true]
    rw [(Change.value_eq_none_iff last).mpr clearing, eq_comm]
    exact Change.value_eq_none_iff final
  · have sets : ∀ change ∈ on key feed, change.isSet = true := by
      intro change mem
      by_contra unset
      exact clears ⟨change, mem, by simpa using unset⟩
    rw [setsFirst_eq_self sets]
    simp [Overtaken, clears]

omit [DecidableEq κ] in
/-- Whether a clearing is overtaken shows in the kinds of the changes. -/
theorem overtaken_iff_map_isSet (changes : List (Change κ ν)) :
    Overtaken changes ↔
      false ∈ changes.map Change.isSet ∧ (changes.map Change.isSet).getLast? = some true := by
  simp only [Overtaken, List.mem_map, List.getLast?_map, Option.map_eq_some_iff]

end Skybase.Feed
