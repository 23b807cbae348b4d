import Skybase.Register.Core

/-!
# Replaying operations that a register has already seen

Along a run with nondecreasing versions, in which operations of one version
are one operation, every operation is settled once it has been executed: doing
it again, at any later point, changes nothing.
-/

namespace Skybase.Register

universe u v

variable {τ : Type u} {α : Type v} [LinearOrder τ]

/-- An operation is idempotent. -/
theorem step_step_self (cell : Option (Cell τ α)) (op : Op τ α) :
    step (step cell op) op = step cell op := by
  cases op with
  | put version payload =>
      rcases step_put cell version payload with written | ⟨old, _, newer, kept⟩
      · rw [written, step_put_of_le payload (le_refl _)]
      · rw [kept]
        exact step_of_lt newer
  | remove version =>
      cases cell with
      | none => rfl
      | some old =>
          rcases step_some_cases old (.remove version) with same | ⟨_, next, moved, _, dead⟩
          · rw [same, same]
          · rw [moved]
            exact step_remove_of_dead version dead

/-- A settled operation stays settled under a strictly newer one. -/
theorem step_step_of_lt {cell : Option (Cell τ α)} {op later : Op τ α}
    (settled : step cell op = cell) (newer : op.version < later.version) :
    step (step cell later) op = step cell later := by
  cases cell with
  | none =>
      cases later with
      | put version payload => exact step_of_lt newer
      | remove version => exact settled
  | some old =>
      rcases step_some_cases old later with same | ⟨_, next, moved, version_eq, _⟩
      · rw [same, settled]
      · rw [moved]
        exact step_of_lt (version_eq ▸ newer)

/-- Operations that carry one version are one operation. -/
def TieFree (ops : List (Op τ α)) : Prop :=
  ∀ ⦃first⦄, first ∈ ops → ∀ ⦃second⦄, second ∈ ops →
    first.version = second.version → first = second

/-- Once settled, an operation stays settled along a run of operations that
are no older than it, ties being the operation itself. -/
theorem step_run_of_settled {cell : Option (Cell τ α)} {op : Op τ α} {ops : List (Op τ α)}
    (settled : step cell op = cell) (ordered : ∀ later ∈ ops, op.version ≤ later.version)
    (ties : ∀ later ∈ ops, op.version = later.version → later = op) :
    step (run cell ops) op = run cell ops := by
  induction ops generalizing cell with
  | nil => exact settled
  | cons later ops ih =>
      apply ih _ (fun other mem => ordered other (List.mem_cons_of_mem later mem))
        (fun other mem => ties other (List.mem_cons_of_mem later mem))
      rcases (ordered later List.mem_cons_self).eq_or_lt with tie | newer
      · rw [ties later List.mem_cons_self tie]
        exact step_step_self cell op
      · exact step_step_of_lt settled newer

/-- Every operation of an ordered, tie-free run is settled at its end. -/
theorem step_run_of_mem {cell : Option (Cell τ α)} {ops : List (Op τ α)} {op : Op τ α}
    (ordered : ops.Pairwise fun first second => first.version ≤ second.version)
    (tieFree : TieFree ops) (mem : op ∈ ops) :
    step (run cell ops) op = run cell ops := by
  rcases List.append_of_mem mem with ⟨before, after, rfl⟩
  rw [run_append, run_cons]
  have orderedAfter := (List.pairwise_append.mp ordered).2.1
  apply step_run_of_settled (step_step_self _ op) (List.pairwise_cons.mp orderedAfter).1
  intro later laterMem tie
  exact tieFree (by simp [laterMem]) mem tie.symm

end Skybase.Register
