import Mathlib.Data.List.Basic

/-!
# Replays of a log

A log is a list of operations on some state.  A replay delivers entries of the
log in bursts: it may fall back to any earlier entry, but never skips an entry
that has not been delivered yet.  If every delivered entry is settled, in the
sense that delivering it again changes nothing, then a replay up to a frontier
leaves the state that one pass over the log up to that frontier leaves.
-/

namespace Skybase.Replay

universe u v

variable {σ : Type u} {ω : Type v}

/-- `entries` is a replay of `log` that moves the frontier, the number of
leading entries delivered so far, from `low` to `high`. -/
def Covers (log : List ω) : Nat → List ω → Nat → Prop
  | low, [], high => low = high
  | low, entry :: entries, high =>
      ∃ index, index ≤ low ∧ log[index]? = some entry ∧
        Covers log (max low (index + 1)) entries high

@[simp]
theorem covers_nil_iff (log : List ω) (low high : Nat) :
    Covers log low [] high ↔ low = high :=
  Iff.rfl

theorem covers_cons_iff (log : List ω) (low high : Nat) (entry : ω) (entries : List ω) :
    Covers log low (entry :: entries) high ↔
      ∃ index, index ≤ low ∧ log[index]? = some entry ∧
        Covers log (max low (index + 1)) entries high :=
  Iff.rfl

theorem Covers.le {log : List ω} {low high : Nat} {entries : List ω}
    (covers : Covers log low entries high) : low ≤ high := by
  induction entries generalizing low with
  | nil => exact Nat.le_of_eq covers
  | cons entry entries ih =>
      rcases covers with ⟨index, _, _, rest⟩
      exact Nat.le_trans (Nat.le_max_left _ _) (ih rest)

/-- Replays concatenate. -/
theorem covers_append_iff (log : List ω) (low high : Nat) (first second : List ω) :
    Covers log low (first ++ second) high ↔
      ∃ middle, Covers log low first middle ∧ Covers log middle second high := by
  induction first generalizing low with
  | nil => simp
  | cons entry entries ih =>
      simp only [List.cons_append, covers_cons_iff, ih]
      constructor
      · rintro ⟨index, bound, at_index, middle, left, right⟩
        exact ⟨middle, ⟨index, bound, at_index, left⟩, right⟩
      · rintro ⟨middle, ⟨index, bound, at_index, left⟩, right⟩
        exact ⟨index, bound, at_index, middle, left, right⟩

/-- Delivering one more entry, not past the frontier, extends a replay. -/
theorem Covers.concat {log : List ω} {low high index : Nat} {entries : List ω} {entry : ω}
    (covers : Covers log low entries high) (bound : index ≤ high)
    (at_index : log[index]? = some entry) :
    Covers log low (entries ++ [entry]) (max high (index + 1)) :=
  (covers_append_iff _ _ _ _ _).mpr ⟨high, covers, index, bound, at_index, rfl⟩

/-- A replay from an earlier frontier is one from a later frontier. -/
theorem Covers.raise {log : List ω} {low high later : Nat} {entries : List ω}
    (covers : Covers log low entries high) (le : low ≤ later) :
    Covers log later entries (max later high) := by
  induction entries generalizing low later with
  | nil =>
      rw [covers_nil_iff] at covers ⊢
      rw [← covers, Nat.max_eq_left le]
  | cons entry entries ih =>
      rcases covers with ⟨index, bound, at_index, rest⟩
      have within : index + 1 ≤ high := Nat.le_trans (Nat.le_max_right _ _) rest.le
      have grown : max low (index + 1) ≤ max later (index + 1) := by omega
      refine ⟨index, Nat.le_trans bound le, at_index, ?_⟩
      have raised := ih rest grown
      rwa [Nat.max_assoc, Nat.max_eq_right within] at raised

/-- The entries of a replay stand before its frontier. -/
theorem Covers.exists_index {log : List ω} {low high : Nat} {entries : List ω}
    (covers : Covers log low entries high) {entry : ω} (mem : entry ∈ entries) :
    ∃ index, index < high ∧ log[index]? = some entry := by
  induction entries generalizing low with
  | nil => cases mem
  | cons first entries ih =>
      rcases covers with ⟨index, _, at_index, rest⟩
      rcases List.mem_cons.mp mem with rfl | later
      · exact ⟨index, Nat.lt_of_lt_of_le (Nat.lt_succ_self index)
          (Nat.le_trans (Nat.le_max_right _ _) rest.le), at_index⟩
      · exact ih rest later

/-- Every entry of the log is settled as soon as a pass over the log has
delivered it. -/
def Settles (apply : σ → ω → σ) (start : σ) (log : List ω) : Prop :=
  ∀ frontier index entry, index < frontier → log[index]? = some entry →
    apply ((log.take frontier).foldl apply start) entry = (log.take frontier).foldl apply start

/-- A replay of a log whose entries settle has the effect of one pass. -/
theorem Covers.foldl_eq {apply : σ → ω → σ} {start : σ} {log : List ω}
    (settles : Settles apply start log) {low high : Nat} {entries : List ω}
    (covers : Covers log low entries high) :
    entries.foldl apply ((log.take low).foldl apply start) =
      (log.take high).foldl apply start := by
  induction entries generalizing low with
  | nil =>
      cases covers
      rfl
  | cons entry entries ih =>
      rcases covers with ⟨index, bound, at_index, rest⟩
      rw [List.foldl_cons, ← ih rest]
      congr 1
      rcases Nat.eq_or_lt_of_le bound with rfl | seen
      · -- a new entry: the pass delivers it next
        rw [Nat.max_eq_right (Nat.le_succ index), List.take_add_one, at_index]
        simp
      · rw [Nat.max_eq_left seen]
        exact settles low index entry seen at_index

end Skybase.Replay
