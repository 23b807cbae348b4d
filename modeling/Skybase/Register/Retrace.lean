import Skybase.Register.Replay

/-!
# Retracing a run from an older version

Where several operations share a version, a register can fall back while a run
is executed again, and catches up only once the whole of it has been.  If some
of the operations of an ordered run take a cell to where the run leads, so does
the whole run: operations that have been executed more often than the others
do no harm as long as the run is finished.
-/

namespace Skybase.Register

universe u v

variable {τ : Type u} {α : Type v} [LinearOrder τ]

/-- The versions of a run do not decrease. -/
def Ordered (ops : List (Op τ α)) : Prop :=
  ops.Pairwise fun first second => first.version ≤ second.version

/-- No operation is older than the cell. -/
def Precedes (cell : Option (Cell τ α)) (ops : List (Op τ α)) : Prop :=
  ∀ old, cell = some old → ∀ op ∈ ops, old.version ≤ op.version

omit [LinearOrder τ] in
/-- A run that writes has a last put. -/
theorem exists_last_put {ops : List (Op τ α)} (writes : ¬ ∀ op ∈ ops, op.isPut = false) :
    ∃ before version payload after, ops = before ++ .put version payload :: after ∧
      ∀ op ∈ after, op.isPut = false := by
  induction ops with
  | nil => exact absurd (by simp) writes
  | cons op ops ih =>
      by_cases rest : ∀ later ∈ ops, later.isPut = false
      · cases op with
        | put version payload => exact ⟨[], version, payload, ops, rfl, rest⟩
        | remove version => exact absurd (by simpa [Op.isPut] using rest) writes
      · rcases ih rest with ⟨before, version, payload, after, rfl, removes⟩
        exact ⟨op :: before, version, payload, after, rfl, removes⟩

/-- In an ordered run, from a cell that the last put does not precede, the last
put and what follows it decide. -/
theorem run_of_last_put {cell : Option (Cell τ α)} {before after : List (Op τ α)} {version : τ}
    {payload : α} (ordered : Ordered (before ++ .put version payload :: after))
    (start : ∀ old, cell = some old → old.version ≤ version) :
    run cell (before ++ .put version payload :: after) =
      run (some ⟨version, payload, true⟩) after := by
  have earlier : ∀ op ∈ before, op.version ≤ version := fun op mem =>
    (List.pairwise_append.mp ordered).2.2 op mem _ List.mem_cons_self
  rw [run_append, run_cons]
  rcases step_put (run cell before) version payload with written | ⟨old, reached, newer, _⟩
  · rw [written]
  · exact absurd newer (not_lt.mpr (run_version_le start earlier old reached))

/-- A dead cell stays as it is unless a put catches up with it. -/
theorem run_of_dead {cell : Cell τ α} {ops : List (Op τ α)} (dead : cell.live = false)
    (stale : ∀ op ∈ ops, op.isPut = true → op.version < cell.version) :
    run (some cell) ops = some cell := by
  apply run_eq_self
  intro op mem
  cases op with
  | put version payload => exact step_of_lt (stale _ mem rfl)
  | remove version => exact step_remove_of_dead version dead

/-- A live cell that no put catches up with stays as it is, or is removed by
the first operation that is not older. -/
theorem run_of_live {cell : Cell τ α} {ops : List (Op τ α)} (live : cell.live = true)
    (stale : ∀ op ∈ ops, op.isPut = true → op.version < cell.version) :
    (run (some cell) ops = some cell ∧ ∀ op ∈ ops, op.version < cell.version) ∨
      ∃ before op after, ops = before ++ op :: after ∧ (∀ earlier ∈ before,
        earlier.version < cell.version) ∧ cell.version ≤ op.version ∧
        run (some cell) ops = some ⟨op.version, cell.payload, false⟩ := by
  induction ops with
  | nil => exact Or.inl ⟨rfl, by simp⟩
  | cons op ops ih =>
      have staleRest := fun later mem => stale later (List.mem_cons_of_mem op mem)
      rcases lt_or_ge op.version cell.version with older | newer
      · rw [run_cons, step_of_lt older]
        rcases ih staleRest with ⟨unmoved, all⟩ | ⟨before, kill, after, rfl, earlier, bound, killed⟩
        · exact Or.inl ⟨unmoved, List.forall_mem_cons.mpr ⟨older, all⟩⟩
        · exact Or.inr ⟨op :: before, kill, after, rfl,
            List.forall_mem_cons.mpr ⟨older, earlier⟩, bound, killed⟩
      · refine Or.inr ⟨[], op, ops, rfl, by simp, newer, ?_⟩
        cases op with
        | put version payload =>
            exact absurd (stale _ List.mem_cons_self rfl) (not_lt.mpr newer)
        | remove version =>
            have caught : cell.version ≤ version := newer
            rw [run_cons, step_remove_of_le caught live]
            apply run_of_dead rfl
            intro later mem put
            exact (staleRest later mem put).trans_le newer

/-- In an ordered run the operation that removes the cell is the oldest of
those that are not older than the cell. -/
theorem run_of_live_ordered {cell : Cell τ α} {ops : List (Op τ α)} (ordered : Ordered ops)
    (live : cell.live = true) (stale : ∀ op ∈ ops, op.isPut = true → op.version < cell.version) :
    (run (some cell) ops = some cell ∧ ∀ op ∈ ops, op.version < cell.version) ∨
      ∃ op ∈ ops, cell.version ≤ op.version ∧
        (∀ other ∈ ops, cell.version ≤ other.version → op.version ≤ other.version) ∧
        run (some cell) ops = some ⟨op.version, cell.payload, false⟩ := by
  rcases run_of_live live stale with unmoved | ⟨before, op, after, rfl, earlier, bound, killed⟩
  · exact Or.inl unmoved
  · refine Or.inr ⟨op, by simp, bound, ?_, killed⟩
    intro other mem reaches
    rcases List.mem_append.mp mem with mem | mem
    · exact absurd (earlier other mem) (not_lt.mpr reaches)
    · rcases List.mem_cons.mp mem with rfl | mem
      · exact le_refl _
      · exact (List.pairwise_cons.mp (List.pairwise_append.mp ordered).2.1).1 other mem

/-- An ordered run of removals, from a cell that precedes them, either does
nothing to the cell or removes it at the first of them. -/
theorem run_removes {cell : Cell τ α} {removes : List (Op τ α)} (ordered : Ordered removes)
    (only : ∀ op ∈ removes, op.isPut = false)
    (bounded : ∀ op ∈ removes, cell.version ≤ op.version) :
    (run (some cell) removes = some cell ∧ (cell.live = true → removes = [])) ∨
      cell.live = true ∧ ∃ first ∈ removes, (∀ op ∈ removes, first.version ≤ op.version) ∧
        run (some cell) removes = some ⟨first.version, cell.payload, false⟩ := by
  have stale : ∀ op ∈ removes, op.isPut = true → op.version < cell.version := by
    intro op mem put
    rw [only op mem] at put
    cases put
  cases live : cell.live with
  | false => exact Or.inl ⟨run_of_dead live stale, fun absurd => by cases absurd⟩
  | true =>
      rcases run_of_live_ordered ordered live stale with
        ⟨unmoved, older⟩ | ⟨first, mem, _, oldest, killed⟩
      · refine Or.inl ⟨unmoved, fun _ => List.eq_nil_iff_forall_not_mem.mpr fun op mem => ?_⟩
        exact absurd (older op mem) (not_lt.mpr (bounded op mem))
      · exact Or.inr ⟨rfl, first, mem, fun op opMem => oldest op opMem (bounded op opMem), killed⟩

/-- The retracing of removals: if some of them, and operations older than the
cell, take the cell to where all of them lead, then so do all of them. -/
theorem run_removes_of_retraced {cell : Cell τ α} {start : Option (Cell τ α)}
    {removes executed : List (Op τ α)} (ordered : Ordered removes)
    (only : ∀ op ∈ removes, op.isPut = false)
    (precedes : Precedes start removes)
    (among : ∀ op ∈ executed, op.version < cell.version ∨ op ∈ removes)
    (caughtUp : run (some cell) executed = run start removes) :
    run (some cell) removes = run start removes := by
  have staleExecuted : ∀ op ∈ executed, op.isPut = true → op.version < cell.version := by
    intro op mem put
    rcases among op mem with older | listed
    · exact older
    · rw [only op listed] at put
      cases put
  have stale : ∀ op ∈ removes, op.isPut = true → op.version < cell.version := by
    intro op mem put
    rw [only op mem] at put
    cases put
  cases live : cell.live with
  | false => rw [run_of_dead live stale, ← caughtUp, run_of_dead live staleExecuted]
  | true =>
      cases start with
      | none =>
          rcases run_some cell executed with ⟨final, reached, _⟩
          rw [reached, run_none_of_removes only] at caughtUp
          cases caughtUp
      | some old =>
          rcases run_removes ordered only (precedes old rfl) with
            ⟨kept, emptied⟩ | ⟨_, first, firstMem, oldest, removed⟩
          · rw [kept] at caughtUp ⊢
            rcases run_of_live live staleExecuted with
              ⟨unmoved, _⟩ | ⟨_, op, _, rfl, _, reaches, killed⟩
            · rw [unmoved] at caughtUp
              cases caughtUp
              rw [emptied live]
              rfl
            · -- the removal that leads to the start's version is the first that applies
              rw [killed] at caughtUp
              cases caughtUp
              rcases among op (by simp) with older | listed
              · exact absurd older (not_lt.mpr reaches)
              · rcases run_of_live_ordered ordered live stale with
                  ⟨_, older⟩ | ⟨kill, killMem, _, earliest, done⟩
                · exact absurd (older op listed) (not_lt.mpr reaches)
                · have same : kill.version = op.version :=
                    le_antisymm (earliest op listed reaches) (precedes _ rfl kill killMem)
                  rw [done, same]
          · rw [removed] at caughtUp ⊢
            rcases run_of_live live staleExecuted with
              ⟨unmoved, _⟩ | ⟨_, op, _, rfl, _, reaches, killed⟩
            · rw [unmoved] at caughtUp
              cases caughtUp
              cases live
            · rw [killed] at caughtUp
              rcases Cell.mk.inj (Option.some.inj caughtUp) with ⟨version_eq, payload_eq, _⟩
              rw [version_eq] at reaches
              rcases run_of_live_ordered ordered live stale with
                ⟨_, older⟩ | ⟨kill, killMem, _, earliest, done⟩
              · exact absurd (older first firstMem) (not_lt.mpr reaches)
              · have same : kill.version = first.version :=
                  le_antisymm (earliest first firstMem reaches) (oldest kill killMem)
                rw [done, same, payload_eq]

/-- If some operations of an ordered run take a cell to where the whole run
leads from a cell before it, then so does the whole run. -/
theorem run_of_retraced {cell start : Option (Cell τ α)} {ops executed : List (Op τ α)}
    (ordered : Ordered ops) (precedes : Precedes start ops) (among : ∀ op ∈ executed, op ∈ ops)
    (caughtUp : run cell executed = run start ops) : run cell ops = run start ops := by
  by_cases removes : ∀ op ∈ ops, op.isPut = false
  · cases cell with
    | none =>
        rw [run_none_of_removes removes, ← caughtUp,
          run_none_of_removes fun op mem => removes op (among op mem)]
    | some cell =>
        exact run_removes_of_retraced ordered removes precedes
          (fun op mem => Or.inr (among op mem)) caughtUp
  · obtain ⟨before, version, payload, after, rfl, only⟩ := exists_last_put removes
    have fromStart : run start (before ++ .put version payload :: after) =
        run (some ⟨version, payload, true⟩) after := by
      apply run_of_last_put ordered
      exact fun old same => precedes old same (.put version payload) (by simp)
    by_cases reached : ∀ old, cell = some old → old.version ≤ version
    · rw [fromStart, run_of_last_put ordered reached]
    · -- the cell is newer than the last put, so only the removals after it count
      obtain ⟨old, rfl, newer⟩ : ∃ old, cell = some old ∧ version < old.version := by
        simpa only [not_forall, exists_prop, not_le] using reached
      have orderedParts := List.pairwise_append.mp ordered
      have stale : ∀ op ∈ before ++ [.put version payload], op.version < old.version := by
        intro op mem
        rcases List.mem_append.mp mem with mem | mem
        · exact (orderedParts.2.2 op mem _ List.mem_cons_self).trans_lt newer
        · rw [List.mem_singleton.mp mem]
          exact newer
      have onlyAfter : run (some old) (before ++ .put version payload :: after) =
          run (some old) after := by
        rw [List.append_cons, run_append, run_of_lt stale]
      rw [fromStart] at caughtUp ⊢
      rw [onlyAfter]
      apply run_removes_of_retraced (List.pairwise_cons.mp orderedParts.2.1).2 only
      · rintro _ ⟨⟩
        exact (List.pairwise_cons.mp orderedParts.2.1).1
      · intro op mem
        have listed := among op mem
        rw [List.append_cons] at listed
        exact (List.mem_append.mp listed).imp_left (stale op)
      · exact caughtUp

/-- Operations older than some version that the cell has reached do nothing to
it. -/
theorem run_filter_reached {bound : τ} {cell : Cell τ α} {ops : List (Op τ α)}
    (reached : bound ≤ cell.version) :
    run (some cell) (ops.filter fun op => bound ≤ op.version) = run (some cell) ops := by
  induction ops generalizing cell with
  | nil => rfl
  | cons op ops ih =>
      by_cases newer : bound ≤ op.version
      · rcases step_some cell op with ⟨next, stepped, grown⟩
        rw [List.filter_cons_of_pos (by simpa using newer), run_cons, run_cons, stepped]
        exact ih (reached.trans grown)
      · rw [List.filter_cons_of_neg (by simpa using newer), run_cons,
          step_of_lt ((not_le.mp newer).trans_le reached)]
        exact ih reached

/-- Retracing.  After any operations on a register, if some operations of the
rest of an ordered run lead to where the run leads, then so does the rest of
the run. -/
theorem run_retrace {cell : Option (Cell τ α)} {past before ops executed : List (Op τ α)}
    (ordered : Ordered (before ++ ops)) (among : ∀ op ∈ executed, op ∈ ops)
    (caughtUp : run (run cell past) executed = run cell (before ++ ops)) :
    run (run cell past) ops = run cell (before ++ ops) := by
  have parts := List.pairwise_append.mp ordered
  rw [run_append] at caughtUp ⊢
  cases cell with
  | none =>
      apply run_of_retraced parts.2.1 _ among caughtUp
      intro old reached op mem
      apply run_version_le _ _ old reached
      · rintro _ ⟨⟩
      · exact fun earlier earlierMem => parts.2.2 earlier earlierMem op mem
  | some cell =>
      rcases run_some cell past with ⟨now, now_eq, nowGrown⟩
      rcases run_some cell before with ⟨middle, middle_eq, middleGrown⟩
      rw [now_eq, middle_eq] at caughtUp ⊢
      rw [← run_filter_reached middleGrown, ← run_filter_reached nowGrown] at caughtUp ⊢
      apply run_of_retraced (parts.2.1.filter _) _ _ caughtUp
      · rintro _ ⟨⟩ op mem
        obtain ⟨mem, newer⟩ := List.mem_filter.mp mem
        apply run_version_le _ _ middle middle_eq
        · rintro _ ⟨⟩
          exact of_decide_eq_true newer
        · exact fun earlier earlierMem => parts.2.2 earlier earlierMem op mem
      · intro op mem
        rcases List.mem_filter.mp mem with ⟨mem, newer⟩
        exact List.mem_filter.mpr ⟨among op mem, newer⟩

end Skybase.Register
