import Mathlib.Order.Basic
import Mathlib.Data.List.Induction
import Mathlib.Order.Lattice

/-!
# Versioned registers with tombstones

A register holds nothing, or a cell with a version, a payload and a liveness
flag.  `put` writes a payload at a version unless the cell is strictly newer.
`remove` marks a live cell dead at a version unless it is strictly newer; on an
empty register and on a dead cell it does nothing, so that it leaves no trace
there.

Versions range over an arbitrary linear order.  The theorems describe whole
runs of operations: versions never decrease, stale operations do nothing, and
a `put` that is newest in its run decides the final cell.
-/

namespace Skybase.Register

universe u v

/-- The content of a register that has been written at least once. -/
structure Cell (τ : Type u) (α : Type v) where
  version : τ
  payload : α
  live : Bool
deriving DecidableEq

/-- The operations on one register. -/
inductive Op (τ : Type u) (α : Type v) where
  | put (version : τ) (payload : α)
  | remove (version : τ)
deriving DecidableEq

/-- The version an operation carries. -/
def Op.version {τ : Type u} {α : Type v} : Op τ α → τ
  | .put version _ => version
  | .remove version => version

/-- Whether an operation writes a payload. -/
def Op.isPut {τ : Type u} {α : Type v} : Op τ α → Bool
  | .put _ _ => true
  | .remove _ => false

variable {τ : Type u} {α : Type v} [LinearOrder τ]

/-- Whether an operation takes effect on the register. -/
def accepts : Option (Cell τ α) → Op τ α → Bool
  | none, .put _ _ => true
  | none, .remove _ => false
  | some cell, .put version _ => decide (cell.version ≤ version)
  | some cell, .remove version => decide (cell.version ≤ version) && cell.live

theorem accepts_put_iff (cell : Cell τ α) (version : τ) (payload : α) :
    accepts (some cell) (.put version payload) = true ↔ cell.version ≤ version :=
  decide_eq_true_iff

theorem accepts_remove_iff (cell : Cell τ α) (version : τ) :
    accepts (some cell) (.remove version) = true ↔
      cell.version ≤ version ∧ cell.live = true := by
  rw [accepts, Bool.and_eq_true, decide_eq_true_iff]

/-- The cell an accepted operation leaves behind. -/
def write : Option (Cell τ α) → Op τ α → Option (Cell τ α)
  | _, .put version payload => some ⟨version, payload, true⟩
  | cell, .remove version => cell.map fun old => ⟨version, old.payload, false⟩

/-- One operation on a register. -/
def step (cell : Option (Cell τ α)) (op : Op τ α) : Option (Cell τ α) :=
  if accepts cell op then write cell op else cell

/-- A sequence of operations, in order. -/
def run (cell : Option (Cell τ α)) (ops : List (Op τ α)) : Option (Cell τ α) :=
  ops.foldl step cell

@[simp]
theorem run_nil (cell : Option (Cell τ α)) : run cell [] = cell :=
  rfl

@[simp]
theorem run_cons (cell : Option (Cell τ α)) (op : Op τ α) (ops : List (Op τ α)) :
    run cell (op :: ops) = run (step cell op) ops :=
  rfl

@[simp]
theorem run_append (cell : Option (Cell τ α)) (first second : List (Op τ α)) :
    run cell (first ++ second) = run (run cell first) second :=
  List.foldl_append

/-! ## One operation -/

@[simp]
theorem step_none_put (version : τ) (payload : α) :
    step none (.put version payload) = some ⟨version, payload, true⟩ :=
  rfl

theorem step_put_of_le {cell : Cell τ α} {version : τ} (payload : α)
    (newer : cell.version ≤ version) :
    step (some cell) (.put version payload) = some ⟨version, payload, true⟩ := by
  simp [step, accepts, write, newer]

theorem step_remove_of_le {cell : Cell τ α} {version : τ}
    (newer : cell.version ≤ version) (live : cell.live = true) :
    step (some cell) (.remove version) = some ⟨version, cell.payload, false⟩ := by
  simp [step, accepts, write, newer, live]

/-- A removal leaves no mark on a register that is already dead. -/
theorem step_remove_of_dead {cell : Cell τ α} (version : τ) (dead : cell.live = false) :
    step (some cell) (.remove version) = some cell := by
  simp [step, accepts, dead]

/-- An operation older than the cell does nothing. -/
theorem step_of_lt {cell : Cell τ α} {op : Op τ α} (stale : op.version < cell.version) :
    step (some cell) op = some cell := by
  have rejected : accepts (some cell) op = false := by
    cases op with
    | put version payload => exact decide_eq_false (not_le.mpr stale)
    | remove version =>
        have older : version < cell.version := stale
        simp [accepts, not_le.mpr older]
  simp [step, rejected]

omit [LinearOrder τ] in
/-- An operation that takes effect leaves a live cell exactly if it is a `put`. -/
theorem live_of_write {cell : Option (Cell τ α)} {op : Op τ α} {next : Cell τ α}
    (written : write cell op = some next) : next.live = op.isPut := by
  cases op with
  | put version payload =>
      cases written
      rfl
  | remove version =>
      rcases Option.map_eq_some_iff.mp written with ⟨old, _, rfl⟩
      rfl

/-- What one operation can do to a written register: nothing, or move it to
the operation's own version, which is then no older. -/
theorem step_some_cases (cell : Cell τ α) (op : Op τ α) :
    step (some cell) op = some cell ∨
      cell.version ≤ op.version ∧
        ∃ next, step (some cell) op = some next ∧ next.version = op.version ∧
          next.live = op.isPut := by
  by_cases stale : op.version < cell.version
  · exact Or.inl (step_of_lt stale)
  · have newer : cell.version ≤ op.version := not_lt.mp stale
    cases op with
    | put version payload =>
        exact Or.inr ⟨newer, _, step_put_of_le payload newer, rfl, rfl⟩
    | remove version =>
        cases live : cell.live with
        | true => exact Or.inr ⟨newer, _, step_remove_of_le newer live, rfl, rfl⟩
        | false => exact Or.inl (step_remove_of_dead version live)

/-- A written register stays written and its version does not decrease. -/
theorem step_some (cell : Cell τ α) (op : Op τ α) :
    ∃ next, step (some cell) op = some next ∧ cell.version ≤ next.version := by
  rcases step_some_cases cell op with same | ⟨newer, next, stepped, version_eq, _⟩
  · exact ⟨cell, same, le_refl _⟩
  · exact ⟨next, stepped, version_eq ▸ newer⟩

/-- After a `put` the register is written at a version no older than it. -/
theorem step_put (cell : Option (Cell τ α)) (version : τ) (payload : α) :
    step cell (.put version payload) = some ⟨version, payload, true⟩ ∨
      ∃ old, cell = some old ∧ version < old.version ∧
        step cell (.put version payload) = some old := by
  cases cell with
  | none => exact Or.inl rfl
  | some old =>
      rcases le_or_gt old.version version with newer | stale
      · exact Or.inl (step_put_of_le payload newer)
      · exact Or.inr ⟨old, rfl, stale, step_of_lt stale⟩

/-! ## Runs -/

theorem run_some (cell : Cell τ α) (ops : List (Op τ α)) :
    ∃ next, run (some cell) ops = some next ∧ cell.version ≤ next.version := by
  induction ops generalizing cell with
  | nil => exact ⟨cell, rfl, le_refl _⟩
  | cons op ops ih =>
      rcases step_some cell op with ⟨middle, stepped, first⟩
      rcases ih middle with ⟨next, reached, second⟩
      exact ⟨next, by rw [run_cons, stepped, reached], first.trans second⟩

/-- A run of operations that do nothing to the cell does nothing. -/
theorem run_eq_self {cell : Option (Cell τ α)} {ops : List (Op τ α)}
    (settled : ∀ op ∈ ops, step cell op = cell) : run cell ops = cell := by
  induction ops with
  | nil => rfl
  | cons op ops ih =>
      rw [run_cons, settled op List.mem_cons_self]
      exact ih fun later mem => settled later (List.mem_cons_of_mem op mem)

/-- A run of operations that are all older than the cell does nothing. -/
theorem run_of_lt {cell : Cell τ α} {ops : List (Op τ α)}
    (stale : ∀ op ∈ ops, op.version < cell.version) :
    run (some cell) ops = some cell :=
  run_eq_self fun op mem => step_of_lt (stale op mem)

/-- Versions come from the initial cell or from the operations, so a bound on
both bounds the final version. -/
theorem run_version_le {bound : τ} {cell : Option (Cell τ α)} {ops : List (Op τ α)}
    (start : ∀ old, cell = some old → old.version ≤ bound)
    (bounded : ∀ op ∈ ops, op.version ≤ bound) :
    ∀ final, run cell ops = some final → final.version ≤ bound := by
  induction ops generalizing cell with
  | nil => exact start
  | cons op ops ih =>
      rw [run_cons]
      apply ih _ fun later mem => bounded later (List.mem_cons_of_mem op mem)
      intro middle stepped
      have opBound := bounded op List.mem_cons_self
      cases cell with
      | none =>
          cases op with
          | put version payload =>
              cases stepped
              exact opBound
          | remove version => cases stepped
      | some old =>
          rcases step_some_cases old op with same | ⟨_, next, moved, version_eq, _⟩
          · rw [same] at stepped
            exact start middle stepped
          · rw [moved] at stepped
            cases stepped
            exact version_eq ▸ opBound

/-- Every nonempty list has a last entry among those of the greatest version. -/
theorem exists_newest {ι : Type*} (version : ι → τ) {entries : List ι} (nonempty : entries ≠ []) :
    ∃ before entry after, entries = before ++ entry :: after ∧
      (∀ earlier ∈ before, version earlier ≤ version entry) ∧
        ∀ later ∈ after, version later < version entry := by
  induction entries with
  | nil => exact absurd rfl nonempty
  | cons first rest ih =>
      by_cases single : rest = []
      · subst single
        exact ⟨[], first, [], rfl, by simp, by simp⟩
      · obtain ⟨before, entry, after, rfl, earlier, later⟩ := ih single
        rcases le_or_gt (version first) (version entry) with older | newer
        · refine ⟨first :: before, entry, after, rfl, ?_, later⟩
          intro other mem
          rcases List.mem_cons.mp mem with rfl | mem
          · exact older
          · exact earlier other mem
        · refine ⟨[], first, _, rfl, by simp, ?_⟩
          intro other mem
          rcases List.mem_append.mp mem with mem | mem
          · exact (earlier other mem).trans_lt newer
          · rcases List.mem_cons.mp mem with rfl | mem
            · exact newer
            · exact (later other mem).trans newer

/-- A `put` that no earlier operation exceeds and every later one precedes
strictly decides the final cell. -/
theorem run_of_newest_put {cell : Option (Cell τ α)} {before after : List (Op τ α)}
    {version : τ} (payload : α)
    (start : ∀ old, cell = some old → old.version ≤ version)
    (earlier : ∀ op ∈ before, op.version ≤ version)
    (later : ∀ op ∈ after, op.version < version) :
    run cell (before ++ .put version payload :: after) = some ⟨version, payload, true⟩ := by
  rw [run_append, run_cons]
  have written : step (run cell before) (.put version payload) =
      some ⟨version, payload, true⟩ := by
    rcases step_put (run cell before) version payload with done | ⟨old, reached, newer, _⟩
    · exact done
    · exact absurd newer (not_lt.mpr (run_version_le start earlier old reached))
  rw [written]
  exact run_of_lt later

/-- A live cell was live from the start or holds the payload of a `put` of the
run at its version. -/
theorem put_mem_of_run_live {ops : List (Op τ α)} {final : Cell τ α}
    (reached : run none ops = some final) (live : final.live = true) :
    .put final.version final.payload ∈ ops := by
  induction ops using List.reverseRecOn generalizing final with
  | nil => cases reached
  | append_singleton ops op ih =>
      rw [run_append, run_cons, run_nil, step] at reached
      by_cases accepted : accepts (run none ops) op = true
      · rw [if_pos accepted] at reached
        cases op with
        | put version payload =>
            cases reached
            exact List.mem_append_right _ List.mem_cons_self
        | remove version =>
            have dead := live_of_write reached
            rw [live] at dead
            cases dead
      · rw [if_neg accepted] at reached
        exact List.mem_append_left _ (ih reached live)

/-- Removals leave an empty register empty. -/
theorem run_none_of_removes {ops : List (Op τ α)} (removes : ∀ op ∈ ops, op.isPut = false) :
    run (none : Option (Cell τ α)) ops = none := by
  induction ops with
  | nil => rfl
  | cons op ops ih =>
      have rest := ih fun later mem => removes later (List.mem_cons_of_mem op mem)
      cases op with
      | put version payload => exact absurd (removes _ List.mem_cons_self) (by simp [Op.isPut])
      | remove version => exact rest

/-- Puts keep a live register live. -/
theorem run_live_of_puts {cell : Cell τ α} {ops : List (Op τ α)} (live : cell.live = true)
    (puts : ∀ op ∈ ops, op.isPut = true) :
    ∃ final, run (some cell) ops = some final ∧ final.live = true := by
  induction ops generalizing cell with
  | nil => exact ⟨cell, rfl, live⟩
  | cons op ops ih =>
      have rest := fun later mem => puts later (List.mem_cons_of_mem op mem)
      rw [run_cons]
      rcases step_some_cases cell op with same | ⟨_, next, moved, _, live_eq⟩
      · rw [same]
        exact ih live rest
      · rw [moved]
        exact ih (live_eq.trans (puts op List.mem_cons_self)) rest

end Skybase.Register
