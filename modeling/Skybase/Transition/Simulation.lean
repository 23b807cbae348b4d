import Skybase.Transition.Core

/-!
# Backward simulation

A detailed system may settle early what a simpler one settles late, such as
which answer a request that is still under way will get.  The states of the
simpler system that stand for a detailed state are then those for every answer
that is still possible, and a step of the detailed system is matched backwards:
every simpler state after the step is reached from a simpler state before it.
-/

namespace Skybase.Transition

universe u v w

variable {σ : Type u} {ι : Type v} {τ : Type u} {κ : Type v} {ω : Type w}

/-- Runs one after the other. -/
theorem run_append {next : Step σ ι} (source : σ) (first second : List ι) :
    run next source (first ++ second) =
      (run next source first).bind fun middle => run next middle second := by
  induction first generalizing source with
  | nil => rfl
  | cons action actions ih =>
      rw [List.cons_append, run_cons, run_cons]
      cases next source action with
      | none => rfl
      | some target => exact ih target

theorem run_append_of_eq_some {next : Step σ ι} {source middle target : σ}
    {first second : List ι} (reached : run next source first = some middle)
    (rest : run next middle second = some target) :
    run next source (first ++ second) = some target := by
  rw [run_append, reached, Option.bind_some, rest]

/-- Every step of a run is taken in a state that meets an invariant of all
steps. -/
theorem along_of_preserved {next : Step σ ι} {inv : σ → Prop}
    (preserved : ∀ source action target, inv source → next source action = some target → inv target)
    {source : σ} (start : inv source) (actions : List ι) :
    Along next (fun state _ => inv state) source actions := by
  induction actions generalizing source with
  | nil => trivial
  | cons action actions ih =>
      constructor
      · exact start
      · intro target step
        exact ih (preserved source action target start step)

/-- Guards weaken. -/
theorem Along.mono {next : Step σ ι} {guard weaker : σ → ι → Prop} {state : σ} {actions : List ι}
    (along : Along next guard state actions)
    (weakens : ∀ state action, guard state action → weaker state action) :
    Along next weaker state actions := by
  induction actions generalizing state with
  | nil => trivial
  | cons action actions ih =>
      constructor
      · exact weakens state action along.1
      · intro target step
        exact ih (along.2 target step)

/-- A guarded run goes on with a guarded run. -/
theorem along_append {next : Step σ ι} {guard : σ → ι → Prop} {source middle : σ}
    {first second : List ι} (along : Along next guard source first)
    (reached : run next source first = some middle) (rest : Along next guard middle second) :
    Along next guard source (first ++ second) := by
  induction first generalizing source with
  | nil =>
      cases reached
      exact rest
  | cons action actions ih =>
      rcases (run_cons_eq_some_iff _ _ _ _).mp reached with ⟨between, step, later⟩
      exact along_cons_of_step along.1 step (ih (along.2 between step) later)

/-- What a run of the simpler system has to do with one of the detailed system:
it starts in a state that stands for its start, ends in the given one, is
guarded, and shows the same. -/
structure Matches (simpler : Step τ κ) (guardSimpler : τ → κ → Prop) (stands : σ → τ → Prop)
    (source : σ) (observed : List ω) (observeSimpler : κ → List ω) (after : τ)
    (before : τ) (actions : List κ) : Prop where
  stands : stands source before
  reached : run simpler before actions = some after
  guarded : Along simpler guardSimpler before actions
  observed : actions.flatMap observeSimpler = observed

/-- A guarded step of the detailed system is matched backwards by a guarded run
of the simpler one. -/
def BackwardStep (next : Step σ ι) (simpler : Step τ κ) (guard : σ → ι → Prop)
    (guardSimpler : τ → κ → Prop) (stands : σ → τ → Prop) (observe : ι → List ω)
    (observeSimpler : κ → List ω) : Prop :=
  ∀ source action target, guard source action → next source action = some target →
    ∀ after, stands target after → ∃ before actions,
      Matches simpler guardSimpler stands source (observe action) observeSimpler after before
        actions

/-- The rule of backward simulation. -/
theorem run_of_backwardStep {next : Step σ ι} {simpler : Step τ κ} {guard : σ → ι → Prop}
    {guardSimpler : τ → κ → Prop} {stands : σ → τ → Prop} {observe : ι → List ω}
    {observeSimpler : κ → List ω}
    (backward : BackwardStep next simpler guard guardSimpler stands observe observeSimpler)
    {source target : σ} {actions : List ι} (guarded : Along next guard source actions)
    (reached : run next source actions = some target) {after : τ}
    (standsFor : stands target after) :
    ∃ before simplerActions,
      Matches simpler guardSimpler stands source (actions.flatMap observe) observeSimpler after
        before simplerActions := by
  induction actions generalizing source with
  | nil =>
      cases reached
      exact ⟨after, [], standsFor, rfl, trivial, rfl⟩
  | cons action actions ih =>
      rcases (run_cons_eq_some_iff _ _ _ _).mp reached with ⟨middle, step, rest⟩
      rcases ih (guarded.2 middle step) rest with ⟨between, later, matchesRest⟩
      rcases backward source action middle guarded.1 step between matchesRest.stands with
        ⟨before, first, matchesStep⟩
      refine ⟨before, first ++ later, matchesStep.stands, ?_, ?_, ?_⟩
      · exact run_append_of_eq_some matchesStep.reached matchesRest.reached
      · exact along_append matchesStep.guarded matchesStep.reached matchesRest.guarded
      · rw [List.flatMap_append, List.flatMap_cons, matchesStep.observed, matchesRest.observed]

end Skybase.Transition
