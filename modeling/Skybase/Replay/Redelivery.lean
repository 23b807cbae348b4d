import Mathlib.Order.Basic
import Mathlib.Order.Lattice
import Skybase.Replay.Core

/-!
# Redelivery of a log through a queue

Entries of a log are delivered to a queue and applied from there.  Delivery can
be set back to an earlier entry, and the queue can be lost, in which case
delivery starts again at an entry that has not been applied yet, or before it.
There are two reasons why the log is applied correctly nevertheless.  If its
entries settle, they can be redelivered at will.  If they do not, but the rest
of the log always retraces what has been redone, then delivery must be set back
only while the queue is empty.

Where entries carry a key that does not decrease along the log, a cursor is a
key from which delivery resumes.
-/

namespace Skybase.Replay

universe u v w

/-! ## Cursors -/

section Cursor

variable {ω : Type u} {κ : Type v} [LinearOrder κ] {key : ω → κ} {log : List ω}

/-- Every entry after the first `count` is at the cursor or later, so that
delivery from the cursor on misses none of them. -/
def ResumesAt (key : ω → κ) (log : List ω) (count : Nat) (cursor : κ) : Prop :=
  ∀ entry ∈ log.drop count, cursor ≤ key entry

theorem ResumesAt.mono {count larger : Nat} {cursor : κ} (resumes : ResumesAt key log count cursor)
    (grown : count ≤ larger) : ResumesAt key log larger cursor :=
  fun entry mem => resumes entry ((List.drop_sublist_drop_left log grown).subset mem)

theorem ResumesAt.of_le {count : Nat} {cursor earlier : κ}
    (resumes : ResumesAt key log count cursor) (le : earlier ≤ cursor) :
    ResumesAt key log count earlier :=
  fun entry mem => le.trans (resumes entry mem)

theorem ResumesAt.max {count : Nat} {first second : κ} (left : ResumesAt key log count first)
    (right : ResumesAt key log count second) : ResumesAt key log count (Max.max first second) :=
  fun entry mem => max_le (left entry mem) (right entry mem)

/-- The key of an entry is a cursor for everything after it. -/
theorem resumesAt_key (ordered : log.Pairwise fun first second => key first ≤ key second)
    {count index : Nat} {entry : ω} (at_index : log[index]? = some entry) (passed : index < count) :
    ResumesAt key log count (key entry) := by
  rcases List.getElem?_eq_some_iff.mp at_index with ⟨bound, rfl⟩
  have split := ordered
  rw [← List.take_append_drop count log] at split
  intro later mem
  apply (List.pairwise_append.mp split).2.2 _ _ later mem
  exact List.mem_take_iff_getElem.mpr ⟨index, by omega, rfl⟩

/-- Entries before a cursor from which the first `count` can be dropped are
among these. -/
theorem ResumesAt.length_le {before after : List ω} {count : Nat} {cursor : κ}
    (resumes : ResumesAt key (before ++ after) count cursor)
    (older : ∀ entry ∈ before, key entry < cursor) : before.length ≤ count := by
  by_contra short
  rw [Nat.not_le] at short
  have mem : before[count] ∈ (before ++ after).drop count := by
    rw [List.drop_append_of_le_length (Nat.le_of_lt short)]
    exact List.mem_append_left _ (List.mem_drop_iff_getElem.mpr ⟨0, by omega, by simp⟩)
  exact absurd (resumes _ mem) (not_le.mpr (older _ (List.getElem_mem short)))

/-- A key that the rest of the log does not precede is a cursor for it. -/
theorem resumesAt_append {before after : List ω} {count : Nat} {cursor : κ}
    (later : ∀ entry ∈ after, cursor ≤ key entry) (passed : before.length ≤ count) :
    ResumesAt key (before ++ after) count cursor := by
  intro entry mem
  rw [List.drop_append, List.drop_of_length_le passed, List.nil_append] at mem
  exact later entry (List.mem_of_mem_drop mem)

/-- Filtering an ordered log by a cursor leaves a suffix of it. -/
theorem exists_filter_suffix (ordered : log.Pairwise fun first second => key first ≤ key second)
    (cursor : κ) :
    ∃ before, log = before ++ log.filter (fun entry => cursor ≤ key entry) ∧
      ∀ entry ∈ before, key entry < cursor := by
  induction log with
  | nil => exact ⟨[], rfl, by simp⟩
  | cons first rest ih =>
      rcases List.pairwise_cons.mp ordered with ⟨bound, orderedRest⟩
      by_cases reached : cursor ≤ key first
      · refine ⟨[], ?_, by simp⟩
        have all : ∀ entry ∈ first :: rest, cursor ≤ key entry :=
          List.forall_mem_cons.mpr ⟨reached, fun entry mem => reached.trans (bound entry mem)⟩
        rw [List.nil_append, List.filter_eq_self.mpr (by simpa using all)]
      · rcases ih orderedRest with ⟨before, split, older⟩
        refine ⟨first :: before, ?_, List.forall_mem_cons.mpr ⟨not_le.mp reached, older⟩⟩
        rw [List.filter_cons_of_neg (by simpa using reached), List.cons_append, ← split]

end Cursor

/-! ## Delivering and applying -/

section Redelivery

variable {σ : Type w} {ω : Type u}

/-- A way in which a log is delivered to a queue and applied from it.  `Holds`
relates the state, the queue, and the numbers of leading entries that are
applied and delivered. -/
structure Redelivery (apply : σ → ω → σ) (start : σ) (log : List ω) where
  /-- Whether delivery continues where it stopped, and is set back only while
  the queue is empty. -/
  strict : Prop
  Holds : σ → List ω → Nat → Nat → Prop
  begins : Holds start [] 0 0
  le : ∀ {state queue applied delivered},
    Holds state queue applied delivered → applied ≤ delivered
  delivers : ∀ {state queue applied delivered index entry},
    Holds state queue applied delivered → index ≤ delivered → (strict → index = delivered) →
      log[index]? = some entry → Holds state (queue ++ [entry]) applied (max delivered (index + 1))
  applies : ∀ {state queue applied delivered entry},
    Holds state (entry :: queue) applied delivered →
      ∃ after, applied ≤ after ∧ (∃ index, index < after ∧ log[index]? = some entry) ∧
        Holds (apply state entry) queue after delivered
  loses : ∀ {state queue applied delivered},
    Holds state queue applied delivered → Holds state [] applied applied
  resumes : ∀ {state applied delivered index},
    strict → Holds state [] applied delivered → index ≤ delivered → Holds state [] index index
  finishes : ∀ {state applied delivered},
    Holds state [] applied delivered → log.length ≤ delivered → state = log.foldl apply start

variable {apply : σ → ω → σ} {start : σ} {log : List ω}

/-- Entries at the head of the queue are applied together. -/
theorem Redelivery.appliesAll (redelivery : Redelivery apply start log) {entries : List ω}
    {state : σ} {queue : List ω} {applied delivered : Nat}
    (holds : redelivery.Holds state (entries ++ queue) applied delivered) :
    ∃ after, applied ≤ after ∧
      (∀ entry ∈ entries, ∃ index, index < after ∧ log[index]? = some entry) ∧
        redelivery.Holds (entries.foldl apply state) queue after delivered := by
  induction entries generalizing state applied with
  | nil => exact ⟨applied, Nat.le_refl _, by simp, holds⟩
  | cons entry entries ih =>
      obtain ⟨middle, grown, ⟨index, passed, at_index⟩, rest⟩ := redelivery.applies holds
      rcases ih rest with ⟨after, grownAfter, passedAll, done⟩
      refine ⟨after, Nat.le_trans grown grownAfter, ?_, done⟩
      exact List.forall_mem_cons.mpr
        ⟨⟨index, Nat.lt_of_lt_of_le passed grownAfter, at_index⟩, passedAll⟩

/-- Entries that settle can be redelivered at will. -/
def Redelivery.settled (settles : Settles apply start log) : Redelivery apply start log where
  strict := False
  Holds state queue applied delivered :=
    (∃ past, Covers log 0 past applied ∧ state = past.foldl apply start) ∧
      Covers log applied queue delivered
  begins := ⟨⟨[], rfl, rfl⟩, rfl⟩
  le := by
    rintro _ _ _ _ ⟨_, queued⟩
    exact queued.le
  delivers := by
    rintro state queue applied delivered index entry ⟨past, covers⟩ le _ at_index
    exact ⟨past, covers.concat le at_index⟩
  applies := by
    rintro state queue applied delivered entry ⟨⟨past, done, rfl⟩, index, le, at_index, rest⟩
    refine ⟨max applied (index + 1), Nat.le_max_left _ _, ⟨index, by omega, at_index⟩, ?_, rest⟩
    exact ⟨past ++ [entry], done.concat le at_index, by rw [List.foldl_append]; rfl⟩
  loses := by
    rintro state queue applied delivered ⟨past, _⟩
    exact ⟨past, rfl⟩
  resumes := by
    rintro _ _ _ _ ⟨⟩
  finishes := by
    rintro state applied delivered ⟨⟨past, done, rfl⟩, rfl⟩ reached
    have onePass := done.foldl_eq settles
    rw [List.take_zero, List.take_of_length_le reached] at onePass
    exact onePass

/-- The rest of the log retraces: if some of its entries take a state that has
been reached to where the log leads, then so does the rest of the log. -/
def Retraces (apply : σ → ω → σ) (start : σ) (log : List ω) : Prop :=
  ∀ (past executed : List ω) (count : Nat), (∀ entry ∈ executed, entry ∈ log.drop count) →
    executed.foldl apply (past.foldl apply start) = log.foldl apply start →
      (log.drop count).foldl apply (past.foldl apply start) = log.foldl apply start

/-- The queue continues the applied entries and is continued by those that are
still to be delivered, and the rest of the log leads where the log leads. -/
structure Retraced (apply : σ → ω → σ) (start : σ) (log : List ω) (state : σ) (queue : List ω)
    (applied delivered : Nat) : Prop where
  reached : ∃ past : List ω, state = past.foldl apply start
  queued : log.drop applied = queue ++ log.drop delivered
  counted : applied + queue.length = delivered
  catchesUp : (log.drop applied).foldl apply state = log.foldl apply start

/-- Where the rest of the log retraces, delivery can be set back while the
queue is empty. -/
def Redelivery.retraced (retraces : Retraces apply start log) : Redelivery apply start log where
  strict := True
  Holds := Retraced apply start log
  begins := ⟨⟨[], rfl⟩, rfl, rfl, rfl⟩
  le := by
    intro _ queue applied _ holds
    rw [← holds.counted]
    exact Nat.le_add_right applied queue.length
  delivers := by
    intro state queue applied delivered index entry holds _ here at_index
    obtain rfl := here trivial
    rcases List.getElem?_eq_some_iff.mp at_index with ⟨bound, rfl⟩
    rw [Nat.max_eq_right (Nat.le_succ index)]
    refine ⟨holds.reached, ?_, ?_, holds.catchesUp⟩
    · rw [holds.queued, List.drop_eq_getElem_cons bound, List.append_assoc]
      rfl
    · rw [List.length_append, ← Nat.add_assoc, holds.counted]
      rfl
  applies := by
    intro state queue applied delivered entry holds
    have rest_eq : log.drop applied = entry :: log.drop (applied + 1) ∧
        log.drop (applied + 1) = queue ++ log.drop delivered := by
      have tail_eq : log.drop (applied + 1) = queue ++ log.drop delivered := by
        rw [← List.tail_drop, holds.queued]
        rfl
      exact ⟨by rw [holds.queued, tail_eq]; rfl, tail_eq⟩
    refine ⟨applied + 1, Nat.le_succ _, ⟨applied, Nat.lt_succ_self _, ?_⟩, ?_, rest_eq.2, ?_, ?_⟩
    · rw [← List.head?_drop, rest_eq.1]
      rfl
    · rcases holds.reached with ⟨past, rfl⟩
      exact ⟨past ++ [entry], by rw [List.foldl_append]; rfl⟩
    · rw [← holds.counted, List.length_cons]
      omega
    · have caughtUp := holds.catchesUp
      rw [rest_eq.1] at caughtUp
      exact caughtUp
  loses := by
    intro state queue applied delivered holds
    exact ⟨holds.reached, rfl, rfl, holds.catchesUp⟩
  resumes := by
    intro state applied delivered index _ holds back
    obtain rfl : applied = delivered := holds.counted
    obtain ⟨past, rfl⟩ := holds.reached
    refine ⟨⟨past, rfl⟩, rfl, rfl, retraces past (log.drop applied) index ?_ holds.catchesUp⟩
    exact fun entry mem => (List.drop_sublist_drop_left log back).subset mem
  finishes := by
    intro state applied delivered holds reached
    obtain rfl : applied = delivered := holds.counted
    have caughtUp := holds.catchesUp
    rw [List.drop_of_length_le reached] at caughtUp
    exact caughtUp

end Redelivery

end Skybase.Replay
