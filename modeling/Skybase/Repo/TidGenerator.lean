import Mathlib.Logic.Function.Basic
import Skybase.Repo.Tid
import Skybase.Transition.Core

/-!
# The generator of timestamp identifiers

Any number of threads share one generator.  A call reads the clock, loads the
last value, and tries to replace it until a compare-and-exchange succeeds; a
weak one may also fail without cause.  The clock readings are arbitrary.  Every
success replaces the last value by a greater one, as long as there is room
below the top of the 64-bit range, so the texts that the calls return increase
in the order of their successes.
-/

namespace Skybase.Repo

open Skybase.Transition (Step)

universe u

/-- The clock in microseconds, of which 64 bits are kept; zero before the
epoch. -/
def nowMicros (sinceEpoch : Option Nat) : U64 :=
  match sinceEpoch with
  | some micros => Fin.ofNat (2 ^ 64) micros
  | none => 0

/-- The 53 bits of a clock reading that fit into an identifier. -/
def maskedMicros (nowMicros : U64) : U64 := nowMicros &&& 0x001fffffffffffff

/-- `candidate_base`. -/
def candidateBase (nowMicros : U64) : U64 := maskedMicros nowMicros <<< 10

/-- `next` in the loop of `next_tid`. -/
def nextVal (candidateBase current : U64) : U64 :=
  if candidateBase > current then candidateBase else current.saturatingAdd 1

/-- Where a thread is in `next_tid`. -/
inductive Phase where
  | idle
  | clocked (nowMicros : U64)
  | looping (nowMicros current : U64)

/-- A call that left the loop: its thread, its reading of the clock and the
value it returns. -/
structure TidCall (τ : Type u) where
  thread : τ
  nowMicros : U64
  val : U64

/-- The text that a call returns. -/
def TidCall.tid {τ : Type u} (call : TidCall τ) : String := encodeTidBase32 call.val

/-- `TidGenerator` with its threads, and a record of the calls that left the
loop, in the order of their compare-and-exchanges. -/
structure TidGenerator (τ : Type u) where
  lastVal : U64
  phase : τ → Phase
  completed : List (TidCall τ)

/-- The steps of `next_tid`. -/
inductive TidStep (τ : Type u) where
  /-- `SystemTime::now`, in microseconds since the epoch. -/
  | readClock (thread : τ) (sinceEpoch : Option Nat)
  /-- `last_val.load`. -/
  | load (thread : τ)
  /-- `last_val.compare_exchange_weak`, which may fail spuriously. -/
  | compareExchange (thread : τ) (spurious : Bool)

namespace TidGenerator

variable {τ : Type u}

/-- `TidGenerator::new`, with all threads idle. -/
def new : TidGenerator τ := ⟨0, fun _ => .idle, []⟩

variable [DecidableEq τ]

/-- One step of a thread. -/
def next : Step (TidGenerator τ) (TidStep τ) := fun generator step =>
  match step with
  | .readClock thread sinceEpoch =>
      match generator.phase thread with
      | .idle =>
          some { generator with
            phase := Function.update generator.phase thread (.clocked (nowMicros sinceEpoch)) }
      | _ => none
  | .load thread =>
      match generator.phase thread with
      | .clocked now =>
          some { generator with
            phase := Function.update generator.phase thread (.looping now generator.lastVal) }
      | _ => none
  | .compareExchange thread spurious =>
      match generator.phase thread with
      | .looping now current =>
          if generator.lastVal = current ∧ spurious = false then
            let val := nextVal (candidateBase now) current
            some
              { lastVal := val
                phase := Function.update generator.phase thread .idle
                completed := generator.completed ++ [⟨thread, now, val⟩] }
          else
            some { generator with
              phase := Function.update generator.phase thread (.looping now generator.lastVal) }
      | _ => none

/-- What a step can do to the value and the completed calls: nothing, or one
call replaces the last value and completes. -/
theorem next_cases {source target : TidGenerator τ} {step : TidStep τ}
    (stepped : next source step = some target) :
    (target.lastVal = source.lastVal ∧ target.completed = source.completed) ∨
      ∃ thread now, target.lastVal = nextVal (candidateBase now) source.lastVal ∧
        target.completed = source.completed ++ [⟨thread, now, target.lastVal⟩] := by
  cases step with
  | readClock thread sinceEpoch =>
      simp only [next] at stepped
      split at stepped
      · cases stepped
        exact Or.inl ⟨rfl, rfl⟩
      · cases stepped
  | load thread =>
      simp only [next] at stepped
      split at stepped
      · cases stepped
        exact Or.inl ⟨rfl, rfl⟩
      · cases stepped
  | compareExchange thread spurious =>
      simp only [next] at stepped
      split at stepped
      · next now current _ =>
          split at stepped
          · next succeeds =>
              cases stepped
              exact Or.inr ⟨thread, now, by rw [succeeds.1], rfl⟩
          · cases stepped
            exact Or.inl ⟨rfl, rfl⟩
      · cases stepped

end TidGenerator

/-! ## Candidate values -/

theorem val_maskedMicros (nowMicros : U64) :
    (maskedMicros nowMicros).val = nowMicros.val % 2 ^ 53 := by
  change (nowMicros.val &&& 0x001fffffffffffff) % 2 ^ 64 = _
  rw [Nat.and_two_pow_sub_one_eq_mod nowMicros.val 53]
  omega

/-- Shifting the masked reading loses nothing. -/
theorem val_candidateBase (nowMicros : U64) :
    (candidateBase nowMicros).val = (maskedMicros nowMicros).val * 2 ^ 10 := by
  have masked := val_maskedMicros nowMicros
  change ((maskedMicros nowMicros).val <<< 10) % 2 ^ 64 = _
  rw [Nat.shiftLeft_eq]
  omega

theorem candidateBase_le (nowMicros : U64) : (candidateBase nowMicros).val ≤ 2 ^ 63 - 2 ^ 10 := by
  have masked := val_maskedMicros nowMicros
  rw [val_candidateBase]
  omega

/-- With room above the current value, the next value is greater, not below the
candidate, and at most one above the greater of the two. -/
theorem nextVal_bounds (base : U64) {current : U64} (room : current.val < 2 ^ 64 - 1) :
    current < nextVal base current ∧ base ≤ nextVal base current ∧
      (nextVal base current).val ≤ max base.val (current.val + 1) := by
  unfold nextVal
  split
  · next newer => exact ⟨newer, le_refl _, le_max_left _ _⟩
  · next older =>
      have bound : current.val + (1 : U64).val < 2 ^ 64 := by
        change current.val + 1 < 2 ^ 64
        omega
      have added : (current.saturatingAdd 1).val = current.val + 1 := by
        rw [U64.saturatingAdd, dif_pos bound]
        rfl
      rw [Fin.lt_def, Fin.le_def, added]
      have below : base.val ≤ current.val := Fin.le_def.mp (not_lt.mp older)
      exact ⟨by omega, by omega, le_max_right _ _⟩

/-! ## The order of the calls -/

namespace TidGenerator

variable {τ : Type u}

/-- What holds of a generator as long as its values have room: each completed
call took a value above all earlier ones and not below its own candidate. -/
structure Ordered (generator : TidGenerator τ) : Prop where
  room : generator.lastVal.val ≤ 2 ^ 63 - 2 ^ 10 + generator.completed.length
  increasing : generator.completed.Pairwise fun first second => first.val < second.val
  newest : ∀ call ∈ generator.completed, call.val ≤ generator.lastVal
  fresh : ∀ call ∈ generator.completed, candidateBase call.nowMicros ≤ call.val

theorem ordered_new : (new : TidGenerator τ).Ordered where
  room := Nat.zero_le _
  increasing := List.Pairwise.nil
  newest := by simp [new]
  fresh := by simp [new]

variable [DecidableEq τ]

/-- The number of completed calls never decreases. -/
theorem length_completed_le {source target : TidGenerator τ} {step : TidStep τ}
    (stepped : next source step = some target) :
    source.completed.length ≤ target.completed.length := by
  rcases next_cases stepped with ⟨_, completed_eq⟩ | ⟨thread, now, _, completed_eq⟩
  · rw [completed_eq]
  · rw [completed_eq, List.length_append]
    exact Nat.le_add_right _ _

theorem ordered_next {source target : TidGenerator τ} {step : TidStep τ}
    (ordered : source.Ordered) (few : target.completed.length < 2 ^ 62)
    (stepped : next source step = some target) : target.Ordered := by
  rcases next_cases stepped with ⟨last_eq, completed_eq⟩ | ⟨thread, now, last_eq, completed_eq⟩
  · constructor
    · rw [last_eq, completed_eq]
      exact ordered.room
    · rw [completed_eq]
      exact ordered.increasing
    · rw [last_eq, completed_eq]
      exact ordered.newest
    · rw [completed_eq]
      exact ordered.fresh
  · have length_eq : target.completed.length = source.completed.length + 1 := by
      rw [completed_eq, List.length_append, List.length_singleton]
    have sourceRoom := ordered.room
    have candidate := candidateBase_le now
    obtain ⟨above, notBelow, atMost⟩ := nextVal_bounds (candidateBase now)
      (show source.lastVal.val < 2 ^ 64 - 1 by omega)
    rw [← last_eq] at above notBelow atMost
    constructor
    · rw [length_eq]
      omega
    · rw [completed_eq, List.pairwise_append]
      refine ⟨ordered.increasing, List.pairwise_singleton _ _, ?_⟩
      intro call mem latest latestMem
      rw [List.mem_singleton.mp latestMem]
      exact lt_of_le_of_lt (ordered.newest call mem) above
    · intro call mem
      rw [completed_eq, List.mem_append, List.mem_singleton] at mem
      rcases mem with earlier | rfl
      · exact (ordered.newest call earlier).trans above.le
      · exact le_refl _
    · intro call mem
      rw [completed_eq, List.mem_append, List.mem_singleton] at mem
      rcases mem with earlier | rfl
      · exact ordered.fresh call earlier
      · exact notBelow

/-- Every run with room keeps the calls ordered. -/
theorem ordered_of_run {steps : List (TidStep τ)} {generator : TidGenerator τ}
    (reached : Transition.run next new steps = some generator)
    (few : generator.completed.length < 2 ^ 62) : generator.Ordered := by
  have preserved : ∀ (source : TidGenerator τ) (step : TidStep τ) (target : TidGenerator τ),
      (source.completed.length < 2 ^ 62 → source.Ordered) → next source step = some target →
        (target.completed.length < 2 ^ 62 → target.Ordered) := by
    intro source step target held stepped few
    exact ordered_next (held ((length_completed_le stepped).trans_lt few)) few stepped
  exact Transition.invariant_of_run preserved (fun _ => ordered_new) reached few

/-- A value whose top bit is clear decodes to at least the masked reading of
the clock that it was computed from. -/
theorem decode_of_fresh {nowMicros val : U64} (fresh : candidateBase nowMicros ≤ val)
    (clear : val.val < 2 ^ 63) :
    ∃ timestamp, decodeTidTimestampUs (encodeTidBase32 val) = some timestamp ∧
      maskedMicros nowMicros ≤ timestamp := by
  refine ⟨val >>> 10, decodeTidTimestampUs_encodeTidBase32 clear, ?_⟩
  have shifted : (val >>> 10).val = val.val / 2 ^ 10 := by
    change (val.val >>> 10) % 2 ^ 64 = _
    rw [Nat.shiftRight_eq_div_pow]
    omega
  rw [Fin.le_def, val_candidateBase] at fresh
  rw [Fin.le_def, shifted]
  omega

/-- Uniqueness and order of the identifiers.  In every run of any threads with
fewer than `2 ^ 62` completed calls, the texts returned have thirteen
characters, are distinct and increase in the order of the successful
exchanges, hence along the calls of each thread; and one whose top bit is clear
decodes to at least the masked reading of its call's clock. -/
theorem nextTid_increasing {steps : List (TidStep τ)} {generator : TidGenerator τ}
    (reached : Transition.run next new steps = some generator)
    (few : generator.completed.length < 2 ^ 62) :
    (∀ call ∈ generator.completed, call.tid.length = 13) ∧
      (generator.completed.map TidCall.tid).Nodup ∧
      (generator.completed.map TidCall.tid).Pairwise (· < ·) ∧
      (∀ thread, ((generator.completed.filter fun call => call.thread = thread).map
        TidCall.tid).Pairwise (· < ·)) ∧
      ∀ call ∈ generator.completed, call.val.val < 2 ^ 63 →
        ∃ timestamp, decodeTidTimestampUs call.tid = some timestamp ∧
          maskedMicros call.nowMicros ≤ timestamp := by
  have ordered := ordered_of_run reached few
  have texts : generator.completed.Pairwise fun first second => first.tid < second.tid :=
    ordered.increasing.imp encodeTidBase32_lt
  have increasing : (generator.completed.map TidCall.tid).Pairwise (· < ·) :=
    List.pairwise_map.mpr texts
  refine ⟨fun call _ => length_encodeTidBase32 call.val, ?_, increasing, ?_, ?_⟩
  · apply increasing.imp
    intro first second less same
    rw [same] at less
    exact String.lt_irrefl second less
  · intro thread
    exact List.pairwise_map.mpr (texts.filter _)
  · intro call mem clear
    exact decode_of_fresh (ordered.fresh call mem) clear

/-- Two calls race: one succeeds after a spurious failure, the other reads a
clock before the epoch and has to try twice. -/
theorem nextTid_increasing_race :
    let steps : List (TidStep Bool) :=
      [.readClock true (some 5), .readClock false none, .load true, .load false,
        .compareExchange true true, .compareExchange true false, .compareExchange false false,
        .compareExchange false false]
    ∃ generator, Transition.run next new steps = some generator ∧
      generator.completed.length = 2 ∧
      (generator.completed.map TidCall.tid).Pairwise (· < ·) := by
  intro steps
  have reached : Transition.run next new steps = some _ := rfl
  exact ⟨_, reached, rfl, (nextTid_increasing reached (by decide)).2.2.1⟩

end TidGenerator

end Skybase.Repo
