import Skybase.Feed.Core

/-!
# Selections of a feed

A subscriber may be interested only in the entries of a view whose values meet
a test.  It takes the messages that carry the test of the value they are about
and drops the others.  Its view is the selection of the full view as long as no
entry escapes: a value that meets the test is replaced by one that does not,
and the message that tells so is dropped.
-/

namespace Skybase.Feed

universe u v w

variable {κ : Type u} {ν : Type v} {α : Type w}

/-- The entries of a view whose values meet the test. -/
def select (keep : ν → Bool) (view : κ → Option ν) (key : κ) : Option ν :=
  (view key).filter keep

theorem select_eq_some_iff {keep : ν → Bool} {view : κ → Option ν} {key : κ} {value : ν} :
    select keep view key = some value ↔ view key = some value ∧ keep value = true :=
  Option.filter_eq_some_iff

/-- Whether a message is taken shows the test of the value that it sets, or of
the one that it clears. -/
def Labelled (keep : ν → Bool) (takes : α → Bool) (read : α → Change κ ν)
    (view : κ → Option ν) (message : α) : Prop :=
  match read message with
  | .set _ value => takes message = keep value
  | .clear key => ∀ value, view key = some value → takes message = keep value

/-- The message replaces a value that meets the test by one that does not. -/
def Escapes (keep : ν → Bool) (read : α → Change κ ν) (view : κ → Option ν)
    (message : α) : Prop :=
  ∃ key value, read message = .set key value ∧ keep value = false ∧ select keep view key ≠ none

variable [DecidableEq κ]

/-- The view after messages, by the changes that they stand for. -/
def receive (read : α → Change κ ν) (view : κ → Option ν) (messages : List α) : κ → Option ν :=
  replay view (messages.map read)

@[simp]
theorem receive_nil (read : α → Change κ ν) (view : κ → Option ν) :
    receive read view [] = view :=
  rfl

theorem receive_append (read : α → Change κ ν) (view : κ → Option ν) (first second : List α) :
    receive read view (first ++ second) = receive read (receive read view first) second := by
  rw [receive, List.map_append, replay_append]
  rfl

theorem receive_singleton (read : α → Change κ ν) (view : κ → Option ν) (message : α) :
    receive read view [message] = apply view (read message) :=
  rfl

theorem select_apply (keep : ν → Bool) (view : κ → Option ν) (change : Change κ ν) :
    select keep (apply view change) =
      Function.update (select keep view) change.key (change.value.filter keep) := by
  funext key
  by_cases about : change.key = key
  · subst about
    rw [select, apply_self rfl, Function.update_self]
  · rw [select, apply_of_ne about, Function.update_of_ne (Ne.symm about), select]

/-- One message keeps the selection exactly if nothing escapes by it. -/
theorem receive_filter_iff_of_labelled {keep : ν → Bool} {takes : α → Bool}
    {read : α → Change κ ν} {view : κ → Option ν} {message : α}
    (labelled : Labelled keep takes read view message) :
    receive read (select keep view) ([message].filter takes) =
        select keep (receive read view [message]) ↔
      ¬ Escapes keep read view message := by
  -- a message that is dropped must find nothing selected at its key
  have dropped : ∀ key, select keep view = Function.update (select keep view) key none ↔
      select keep view key = none := by
    intro key
    rw [eq_comm, Function.update_eq_self_iff, eq_comm]
  rw [receive_singleton, select_apply]
  unfold Labelled at labelled
  unfold Escapes
  cases change : read message with
  | set key value =>
      rw [change] at labelled
      cases kept : keep value with
      | true =>
          have taken : takes message = true := labelled.trans kept
          rw [List.filter_cons_of_pos taken, List.filter_nil, receive_singleton, change]
          simp [apply, Change.key, Change.value, Option.filter_some, kept]
      | false =>
          have untaken : takes message = false := labelled.trans kept
          have escape : (∃ other otherValue, Change.set key value = .set other otherValue ∧
              keep otherValue = false ∧ select keep view other ≠ none) ↔
                select keep view key ≠ none := by
            constructor
            · rintro ⟨_, _, ⟨⟩, _, selected⟩
              exact selected
            · intro selected
              exact ⟨key, value, rfl, kept, selected⟩
          rw [List.filter_cons_of_neg (Bool.not_eq_true _ ▸ untaken), List.filter_nil,
            receive_nil, escape,
            not_not, ← dropped key]
          simp [Change.key, Change.value, Option.filter_some, kept]
  | clear key =>
      rw [change] at labelled
      have nothing : ¬ ∃ other otherValue, Change.clear key = .set other otherValue ∧
          keep otherValue = false ∧ select keep view other ≠ none := by
        rintro ⟨_, _, ⟨⟩, _⟩
      rw [iff_true_right nothing]
      cases taken : takes message with
      | true =>
          rw [List.filter_cons_of_pos taken, List.filter_nil, receive_singleton, change]
          rfl
      | false =>
          have empty : select keep view key = none := by
            cases present : view key with
            | none => rw [select, present, Option.filter_none]
            | some value =>
                have unkept : keep value = false := (labelled value present).symm.trans taken
                simp [select, present, unkept]
          rw [List.filter_cons_of_neg (Bool.not_eq_true _ ▸ taken), List.filter_nil, receive_nil]
          exact (dropped key).mpr empty

end Skybase.Feed
