import Mathlib.Order.Basic

/-!
# Labelled partial transitions

Systems are presented by a step function that takes an action and answers
`none` where the action is not enabled.  A run executes a list of actions.
The module packages the induction over runs once: an invariant kept by every
step that meets a guard holds at the end of every run all of whose steps meet
it.
-/

namespace Skybase.Transition

universe u v

/-- A labelled transition function; `none` means that the action is not
enabled in the state. -/
abbrev Step (σ : Type u) (ι : Type v) := σ → ι → Option σ

section Run

variable {σ : Type u} {ι : Type v} {next : Step σ ι}

/-- Execute the actions in order, failing at the first one that is not
enabled. -/
def run (next : Step σ ι) : σ → List ι → Option σ
  | state, [] => some state
  | state, action :: actions =>
      (next state action).bind fun target => run next target actions

@[simp]
theorem run_nil (state : σ) : run next state [] = some state :=
  rfl

theorem run_cons (state : σ) (action : ι) (actions : List ι) :
    run next state (action :: actions) =
      (next state action).bind fun target => run next target actions :=
  rfl

theorem run_cons_eq_some_iff (source target : σ) (action : ι) (actions : List ι) :
    run next source (action :: actions) = some target ↔
      ∃ middle, next source action = some middle ∧
        run next middle actions = some target := by
  rw [run_cons]
  exact Option.bind_eq_some_iff

@[simp]
theorem run_singleton (state : σ) (action : ι) :
    run next state [action] = next state action := by
  rw [run_cons]
  cases next state action <;> rfl

/-- Every step of the run from `state` is taken in a state that meets the
guard. -/
def Along (next : Step σ ι) (guard : σ → ι → Prop) : σ → List ι → Prop
  | _, [] => True
  | state, action :: actions =>
      guard state action ∧
        ∀ target, next state action = some target → Along next guard target actions

@[simp]
theorem along_nil (guard : σ → ι → Prop) (state : σ) : Along next guard state [] :=
  trivial

theorem along_cons_iff (guard : σ → ι → Prop) (state : σ) (action : ι)
    (actions : List ι) :
    Along next guard state (action :: actions) ↔
      guard state action ∧
        ∀ target, next state action = some target → Along next guard target actions :=
  Iff.rfl

theorem along_cons_of_step {guard : σ → ι → Prop} {state target : σ} {action : ι}
    {actions : List ι} (here : guard state action) (step : next state action = some target)
    (rest : Along next guard target actions) : Along next guard state (action :: actions) := by
  constructor
  · exact here
  · intro other otherStep
    rw [step] at otherStep
    cases otherStep
    exact rest

/-- The invariant rule for guarded runs. -/
theorem invariant_of_along {inv : σ → Prop} {guard : σ → ι → Prop}
    (preserved : ∀ source action target, inv source → guard source action →
      next source action = some target → inv target)
    {source target : σ} {actions : List ι} (start : inv source)
    (guarded : Along next guard source actions)
    (reached : run next source actions = some target) : inv target := by
  induction actions generalizing source with
  | nil =>
      cases reached
      exact start
  | cons action actions ih =>
      rcases (run_cons_eq_some_iff _ _ _ _).mp reached with ⟨middle, step, rest⟩
      exact ih (preserved source action middle start guarded.1 step)
        (guarded.2 middle step) rest

theorem along_of_forall_mem {allowed : ι → Prop} {state : σ} {actions : List ι}
    (all : ∀ action ∈ actions, allowed action) :
    Along next (fun _ action => allowed action) state actions := by
  induction actions generalizing state with
  | nil => trivial
  | cons action actions ih =>
      constructor
      · exact all action List.mem_cons_self
      · intro target _
        exact ih fun other mem => all other (List.mem_cons_of_mem action mem)

/-- The invariant rule for all runs. -/
theorem invariant_of_run {inv : σ → Prop}
    (preserved : ∀ source action target, inv source → next source action = some target → inv target)
    {source target : σ} {actions : List ι} (start : inv source)
    (reached : run next source actions = some target) : inv target := by
  have guarded : Along next (fun _ _ => True) source actions :=
    along_of_forall_mem fun _ _ => trivial
  exact invariant_of_along (fun source action target held _ => preserved source action target held)
    start guarded reached

/-- Guards combine. -/
theorem Along.and {first second : σ → ι → Prop} {state : σ} {actions : List ι}
    (left : Along next first state actions) (right : Along next second state actions) :
    Along next (fun state action => first state action ∧ second state action) state actions := by
  induction actions generalizing state with
  | nil => trivial
  | cons action actions ih =>
      constructor
      · exact ⟨left.1, right.1⟩
      · intro target step
        exact ih (left.2 target step) (right.2 target step)

/-- A guard that is demanded only under a condition. -/
theorem along_imp {condition : Prop} {guard : σ → ι → Prop} {state : σ} {actions : List ι}
    (along : condition → Along next guard state actions) :
    Along next (fun state action => condition → guard state action) state actions := by
  induction actions generalizing state with
  | nil => trivial
  | cons action actions ih =>
      constructor
      · exact fun holds => (along holds).1
      · intro target step
        exact ih fun holds => (along holds).2 target step

/-- The property holds in every state that the run from `state` passes
through, its ends included. -/
def Always (next : Step σ ι) (property : σ → Prop) : σ → List ι → Prop
  | state, [] => property state
  | state, action :: actions =>
      property state ∧
        ∀ target, next state action = some target → Always next property target actions

theorem always_cons_iff (property : σ → Prop) (state : σ) (action : ι) (actions : List ι) :
    Always next property state (action :: actions) ↔
      property state ∧
        ∀ target, next state action = some target → Always next property target actions :=
  Iff.rfl

theorem Always.start {property : σ → Prop} {state : σ} {actions : List ι}
    (always : Always next property state actions) : property state := by
  cases actions with
  | nil => exact always
  | cons action actions => exact always.1

/-- Where, under an invariant of the allowed steps, an allowed step keeps the
property exactly if it meets the guard, the property holds throughout an allowed
run exactly if the run is guarded. -/
theorem always_iff_along_of_allowed {inv property : σ → Prop} {allowed guard : σ → ι → Prop}
    (preserved : ∀ source action target, inv source → allowed source action →
      next source action = some target → inv target)
    (kept : ∀ source action target, inv source → allowed source action → property source →
      next source action = some target → (property target ↔ guard source action))
    {source target : σ} {actions : List ι} (invStart : inv source)
    (along : Along next allowed source actions) (start : property source)
    (reached : run next source actions = some target) :
    Always next property source actions ↔ Along next guard source actions := by
  induction actions generalizing source with
  | nil => exact ⟨fun _ => trivial, fun _ => start⟩
  | cons action actions ih =>
      rcases (run_cons_eq_some_iff _ _ _ _).mp reached with ⟨middle, step, rest⟩
      have invMiddle := preserved source action middle invStart along.1 step
      have keptHere := kept source action middle invStart along.1 start step
      have alongRest := along.2 middle step
      have deterministic : ∀ other, next source action = some other → other = middle := by
        intro other otherStep
        rw [step] at otherStep
        exact (Option.some.inj otherStep).symm
      rw [always_cons_iff, along_cons_iff]
      constructor
      · rintro ⟨_, later⟩
        have after := later middle step
        constructor
        · exact keptHere.mp after.start
        · intro other otherStep
          rw [deterministic other otherStep]
          exact (ih invMiddle alongRest after.start rest).mp after
      · rintro ⟨here, later⟩
        constructor
        · exact start
        · intro other otherStep
          rw [deterministic other otherStep]
          exact (ih invMiddle alongRest (keptHere.mpr here) rest).mpr (later middle step)

/-- Where, under an invariant of all steps, a step keeps the property exactly
if it meets the guard, the property holds throughout a run exactly if the run
is guarded. -/
theorem always_iff_along {inv property : σ → Prop} {guard : σ → ι → Prop}
    (preserved : ∀ source action target, inv source →
      next source action = some target → inv target)
    (kept : ∀ source action target, inv source → property source →
      next source action = some target → (property target ↔ guard source action))
    {source target : σ} {actions : List ι} (invStart : inv source) (start : property source)
    (reached : run next source actions = some target) :
    Always next property source actions ↔ Along next guard source actions := by
  have along : Along next (fun _ _ => True) source actions :=
    along_of_forall_mem fun _ _ => trivial
  apply always_iff_along_of_allowed _ _ invStart along start reached
  · exact fun source action target held _ => preserved source action target held
  · exact fun source action target held _ => kept source action target held

/-- Where no step restores the property, a run that ends with it has it
throughout. -/
theorem always_of_holds {inv property : σ → Prop}
    (preserved : ∀ source action target, inv source →
      next source action = some target → inv target)
    (unrestored : ∀ source action target, inv source → next source action = some target →
      property target → property source)
    {source target : σ} {actions : List ι} (invStart : inv source)
    (reached : run next source actions = some target) (holds : property target) :
    Always next property source actions := by
  induction actions generalizing source with
  | nil =>
      cases reached
      exact holds
  | cons action actions ih =>
      rcases (run_cons_eq_some_iff _ _ _ _).mp reached with ⟨middle, step, rest⟩
      have later := ih (preserved source action middle invStart step) rest
      constructor
      · exact unrestored source action middle invStart step later.start
      · intro other otherStep
        rw [step] at otherStep
        cases otherStep
        exact later

theorem Always.finish {property : σ → Prop} {source target : σ} {actions : List ι}
    (always : Always next property source actions)
    (reached : run next source actions = some target) : property target := by
  induction actions generalizing source with
  | nil =>
      cases reached
      exact always
  | cons action actions ih =>
      rcases (run_cons_eq_some_iff _ _ _ _).mp reached with ⟨middle, step, rest⟩
      exact ih (always.2 middle step) rest

/-- Where, under an invariant of all steps, a step keeps the property exactly
if it meets the guard, and no step restores it, a run ends with the property
exactly if it is guarded. -/
theorem holds_iff_along {inv property : σ → Prop} {guard : σ → ι → Prop}
    (preserved : ∀ source action target, inv source →
      next source action = some target → inv target)
    (kept : ∀ source action target, inv source → property source →
      next source action = some target → (property target ↔ guard source action))
    (unrestored : ∀ source action target, inv source → next source action = some target →
      property target → property source)
    {source target : σ} {actions : List ι} (invStart : inv source) (start : property source)
    (reached : run next source actions = some target) :
    property target ↔ Along next guard source actions := by
  rw [← always_iff_along preserved kept invStart start reached]
  constructor
  · exact always_of_holds preserved unrestored invStart reached
  · exact fun always => always.finish reached

end Run

end Skybase.Transition
