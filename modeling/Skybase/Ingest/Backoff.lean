import Skybase.Checked.Core
import Skybase.Integer
import Skybase.Lexicon.Timestamp
import Skybase.Transition.Core

/-!
# Reconnect backoff

The delays between reconnect attempts double from the initial delay up to the
maximum, and each is jittered by at most a percentage of it.  The arithmetic is
that of machine integers, as checked expressions; what is proved is that along
every run they all have a value, and that the value is the closed form over
unbounded integers.
-/

namespace Skybase.Lexicon.Duration

/-- `Duration::from_millis`. -/
def fromMillis (millis : U64) : Duration where
  secs := ⟨millis.val / 1000, (Nat.div_le_self _ _).trans_lt millis.isLt⟩
  nanos := ⟨millis.val % 1000 * 1000000, by omega⟩

/-- `Duration::as_millis`. -/
def asMillis (duration : Duration) : Nat :=
  duration.secs.val * 1000 + duration.nanos.val / 1000000

/-- The derived order: by the seconds first. -/
instance : LE Duration :=
  ⟨fun first second => first.secs < second.secs ∨
    first.secs = second.secs ∧ first.nanos ≤ second.nanos⟩

instance (first second : Duration) : Decidable (first ≤ second) :=
  inferInstanceAs (Decidable (_ ∨ _))

/-- `Ord::max`. -/
def max (first second : Duration) : Duration := if first ≤ second then second else first

/-- `Ord::min`. -/
def min (first second : Duration) : Duration := if first ≤ second then first else second

@[simp]
theorem asMillis_fromMillis (millis : U64) : (fromMillis millis).asMillis = millis.val := by
  simp only [asMillis, fromMillis]
  omega

/-- Whole milliseconds are counted in the order of the durations. -/
theorem asMillis_le_of_le {first second : Duration} (le : first ≤ second) :
    first.asMillis ≤ second.asMillis := by
  have firstNanos := first.nanos.isLt
  rcases le with less | ⟨same, nanosLe⟩
  · have secsLt := Fin.lt_def.mp less
    simp only [asMillis]
    omega
  · have quotients := Nat.div_le_div_right (c := 1000000) (Fin.le_def.mp nanosLe)
    simp only [asMillis, same]
    omega

theorem asMillis_le_of_not_le {first second : Duration} (notLe : ¬ first ≤ second) :
    second.asMillis ≤ first.asMillis := by
  apply asMillis_le_of_le
  rcases lt_trichotomy first.secs second.secs with less | same | greater
  · exact absurd (Or.inl less) notLe
  · refine Or.inr ⟨same.symm, ?_⟩
    by_contra greater
    exact notLe (Or.inr ⟨same, (not_le.mp greater).le⟩)
  · exact Or.inl greater

@[simp]
theorem asMillis_max (first second : Duration) :
    (first.max second).asMillis = Max.max first.asMillis second.asMillis := by
  unfold max
  split
  · next le => exact (max_eq_right (asMillis_le_of_le le)).symm
  · next notLe => exact (max_eq_left (asMillis_le_of_not_le notLe)).symm

@[simp]
theorem asMillis_min (first second : Duration) :
    (first.min second).asMillis = Min.min first.asMillis second.asMillis := by
  unfold min
  split
  · next le => exact (min_eq_left (asMillis_le_of_le le)).symm
  · next notLe => exact (min_eq_right (asMillis_le_of_not_le notLe)).symm

end Skybase.Lexicon.Duration

namespace Skybase.Ingest

open Checked Lexicon
open Checked.Expr (is_of is_ofNat)

/-! ## The manager -/

/-- `DEFAULT_JITTER_PERCENT`. -/
def defaultJitterPercent : U32 := 20

/-- `MIN_BACKOFF_FLOOR_MS`. -/
def minBackoffFloorMs : U64 := 50

/-- `CLOCK_WARP_FALLBACK_NANOS`. -/
def clockWarpFallbackNanos : Nat := 123456789

/-- `LCG_MULTIPLIER`. -/
def lcgMultiplier : Expr u64 := .of u64 6364136223846793005

/-- A reading of the monotonic clock. -/
abbrev Instant := Nat

/-- `BackoffManager`. -/
structure BackoffManager where
  initialDelay : Duration
  maxDelay : Duration
  currentDelay : Duration
  consecutiveFailures : U32
  jitterPercent : U32
  lastAttemptAt : Option Instant

namespace BackoffManager

/-- `BackoffManager::new`. -/
def new (initialDelay maxDelay : Duration) : BackoffManager :=
  let safeInitial := initialDelay.max (.fromMillis minBackoffFloorMs)
  let safeMax := maxDelay.max safeInitial
  { initialDelay := safeInitial
    maxDelay := safeMax
    currentDelay := safeInitial
    consecutiveFailures := 0
    jitterPercent := defaultJitterPercent
    lastAttemptAt := none }

/-- `BackoffManager::with_jitter`. -/
def withJitter (manager : BackoffManager) (jitterPercent : U32) : BackoffManager :=
  { manager with jitterPercent := min jitterPercent 100 }

/-- The entropy of the system clock, with its fallback before the epoch. -/
def entropyNanos : SystemTime → Nat
  | .sinceEpoch duration => duration.nanos.val
  | .beforeEpoch _ => clockWarpFallbackNanos

/-- The number that the linear congruential generator draws. -/
def pseudoRand (nanos : Nat) (consecutiveFailures : U32) : Expr u32 :=
  (((Expr.of u64 nanos).wrappingMul lcgMultiplier).wrappingAdd
    (.of u64 consecutiveFailures.val) >>> 32).cast u32

/-- The jitter drawn, in percent. -/
def jitterOffsetPct (jitterPercent : U32) (rand : Expr u32) : Expr i64 :=
  let jitterRangePct : Expr i64 := .of i64 jitterPercent.val
  let modulo := ((Expr.of u32 jitterPercent.val).saturatingMul 2).saturatingAdd 1
  (rand % modulo).cast i64 - jitterRangePct

/-- The jittered delay in milliseconds. -/
def jitteredMs (baseMs : Expr u64) (jitterOffsetPct : Expr i64) : Expr u64 :=
  jitterOffsetPct.branch (0 ≤ ·)
    (baseMs.saturatingAdd (baseMs.saturatingMul (jitterOffsetPct.cast u64) / 100))
    (baseMs.saturatingSub (baseMs.saturatingMul ((-jitterOffsetPct).cast u64) / 100))

/-- `as_millis() as u64`. -/
def millisU64 (duration : Duration) : Expr u64 := (Expr.of u128 duration.asMillis).cast u64

/-- `Duration::from_millis` on the value of an expression. -/
def durationOf? (millis : Expr u64) : Option Duration :=
  match millis with
  | .value number fits =>
      some (.fromMillis ⟨number.toNat, by have := fits.2; simp only [u64] at this; omega⟩)
  | .overflow => none

/-- `BackoffManager::next_backoff`, at a reading of either clock; `none` where the
arithmetic panics. -/
def nextBackoff (manager : BackoffManager) (now : Instant) (time : SystemTime) :
    Option (Duration × BackoffManager) := do
  let base := manager.currentDelay
  let consecutiveFailures := manager.consecutiveFailures.saturatingAdd 1
  let next ← durationOf? ((millisU64 manager.currentDelay).saturatingMul 2)
  let baseMs := millisU64 base
  let rand := pseudoRand (entropyNanos time) consecutiveFailures
  let offset := jitterOffsetPct manager.jitterPercent rand
  let delay ← durationOf? (max (jitteredMs baseMs offset) (.of u64 minBackoffFloorMs.val))
  return (delay,
    { manager with
      currentDelay := next.min manager.maxDelay
      consecutiveFailures := consecutiveFailures
      lastAttemptAt := some now })

/-- `BackoffManager::reset`. -/
def reset (manager : BackoffManager) : BackoffManager :=
  { manager with currentDelay := manager.initialDelay, consecutiveFailures := 0 }

/-! ## One delay -/

theorem is_millisU64 {duration : Duration} (bounded : duration.asMillis < 2 ^ 64) :
    (millisU64 duration).Is duration.asMillis := by
  have wide : u128.Fits duration.asMillis := by
    constructor <;> simp only [u128] <;> omega
  exact (is_of wide).cast (fits_u64 (by omega) (by omega))

theorem durationOf?_of_is {millis : Expr u64} {number : U64} (is : millis.Is number.val) :
    durationOf? millis = some (.fromMillis number) := by
  rcases is.exists_eq with ⟨fits, rfl⟩
  rfl

theorem entropyNanos_lt (time : SystemTime) : entropyNanos time < 1000000000 := by
  cases time with
  | sinceEpoch duration => exact duration.nanos.isLt
  | beforeEpoch _ => exact (by decide : clockWarpFallbackNanos < 1000000000)

/-- The generator always draws a number. -/
theorem exists_is_pseudoRand {nanos : Nat} (bounded : nanos < 1000000000) (failures : U32) :
    ∃ rand : Int, 0 ≤ rand ∧ (pseudoRand nanos failures).Is rand := by
  have isNanos : (Expr.of u64 nanos).Is nanos := is_of (fits_u64 (by omega) (by omega))
  have isMultiplier : lcgMultiplier.Is 6364136223846793005 := is_of (by decide)
  have failuresLt := failures.isLt
  have isFailures : (Expr.of u64 failures.val).Is failures.val :=
    is_of (fits_u64 (by omega) (by omega))
  have isSeed := (isNanos.wrapping (· * ·) isMultiplier).wrapping (· + ·) isFailures
  have seedFits := isSeed.fits
  have shifted := isSeed.shiftRight 32 seedFits.1
  have low : 0 ≤ u64.wrap (u64.wrap (nanos * 6364136223846793005) + failures.val) := seedFits.1
  have high : u64.wrap (u64.wrap (nanos * 6364136223846793005) + failures.val) ≤ 2 ^ 64 - 1 :=
    seedFits.2
  exact ⟨_, Int.ediv_nonneg low (by decide), shifted.cast (fits_u32 (by omega) (by omega))⟩

/-- The modulus is not zero, and the jitter is within its percentage. -/
theorem exists_is_jitterOffsetPct {jitterPercent : U32} (clamped : jitterPercent.val ≤ 100)
    {rand : Expr u32} {drawn : Int} (nonneg : 0 ≤ drawn) (isRand : rand.Is drawn) :
    ∃ offset : Int, (jitterOffsetPct jitterPercent rand).Is offset ∧
      -(jitterPercent.val : Int) ≤ offset ∧ offset ≤ jitterPercent.val := by
  have isJitter : (Expr.of u32 jitterPercent.val).Is jitterPercent.val :=
    is_of (fits_u32 (by omega) (by omega))
  have isDouble : ((Expr.of u32 jitterPercent.val).saturatingMul 2).Is
      (jitterPercent.val * 2 : Int) := by
    apply (isJitter.saturating (· * ·) (is_ofNat 2 (by decide))).of_eq
    rw [Kind.clamp_of_nonneg (by omega)]
    simp only [u32]
    omega
  have isModulo : (((Expr.of u32 jitterPercent.val).saturatingMul 2).saturatingAdd 1).Is
      (jitterPercent.val * 2 + 1 : Int) := by
    apply (isDouble.saturating (· + ·) (is_ofNat 1 (by decide))).of_eq
    rw [Kind.clamp_of_nonneg (by omega)]
    simp only [u32]
    omega
  have isRest := isRand.mod isModulo nonneg (by omega)
  have restNonneg := Int.emod_nonneg drawn (b := jitterPercent.val * 2 + 1) (by omega)
  have restLt := Int.emod_lt_of_pos drawn (b := jitterPercent.val * 2 + 1) (by omega)
  have wideFits : i64.Fits (drawn % (jitterPercent.val * 2 + 1 : Int)) :=
    fits_i64 (by omega) (by omega)
  have isWide := isRest.cast wideFits
  have isRange : (Expr.of i64 jitterPercent.val).Is jitterPercent.val :=
    is_of (fits_i64 (by omega) (by omega))
  refine ⟨_, isWide.sub isRange ?_, by omega, by omega⟩
  constructor <;> simp only [i64] <;> omega

/-- The share of the base that is added or taken, in saturating arithmetic, is at most the
percentage of it. -/
theorem exists_is_share {baseMs percent : Expr u64} {base share : Nat} (isBase : baseMs.Is base)
    (isPercent : percent.Is share) {most : Nat} (le : share ≤ most) :
    ∃ part : Nat, (baseMs.saturatingMul percent / 100).Is part ∧ part ≤ base * most / 100 := by
  have product : u64.clamp ((base : Int) * share) = (min (2 ^ 64 - 1) (base * share) : Nat) := by
    rw [Kind.clamp_of_nonneg (by positivity)]
    simp only [u64]
    push_cast
    rfl
  have isProduct := (isBase.saturating (· * ·) isPercent).of_eq product
  have isPart := isProduct.div (is_ofNat 100 (by decide)) (by omega) (by decide)
  refine ⟨_, isPart.of_eq (Int.natCast_div _ _).symm, Nat.div_le_div_right ?_⟩
  exact (min_le_right _ _).trans (Nat.mul_le_mul_left base le)

/-- The jittered delay is within a percentage of the base. -/
theorem exists_is_jitteredMs {baseMs : Expr u64} {base most : Nat} {offset : Int}
    {offsetPct : Expr i64} (isBase : baseMs.Is base) (isOffset : offsetPct.Is offset)
    (clamped : most ≤ 100) (low : -(most : Int) ≤ offset) (high : offset ≤ most) :
    ∃ jittered : Nat, (jitteredMs baseMs offsetPct).Is jittered ∧
      base - base * most / 100 ≤ jittered ∧ jittered ≤ base + base * most / 100 := by
  have bounded : (base : Int) ≤ 2 ^ 64 - 1 := isBase.fits.2
  have offsetFits := isOffset.fits
  rw [jitteredMs, isOffset.branch]
  by_cases nonneg : 0 ≤ offset
  · rw [if_pos (decide_eq_true nonneg)]
    have fits := offsetFits.2
    simp only [i64] at fits
    have percentFits : u64.Fits offset := fits_u64 nonneg (by omega)
    have isPercent := isOffset.cast percentFits
    rw [← Int.toNat_of_nonneg nonneg] at isPercent
    have shareLe : offset.toNat ≤ most := by omega
    rcases exists_is_share isBase isPercent shareLe with ⟨part, isPart, partLe⟩
    have isSum := isBase.saturating (· + ·) isPart
    refine ⟨min (2 ^ 64 - 1) (base + part), isSum.of_eq ?_, by omega, by omega⟩
    rw [Kind.clamp_of_nonneg (by omega)]
    simp only [u64]
    push_cast
    rfl
  · rw [if_neg (by simpa using nonneg)]
    have fits := offsetFits.1
    simp only [i64] at fits
    have isNeg := isOffset.neg (fits_i64 (by omega) (by omega))
    have percentFits : u64.Fits (-offset) := fits_u64 (by omega) (by omega)
    have isPercent := isNeg.cast percentFits
    rw [← Int.toNat_of_nonneg (show 0 ≤ -offset by omega)] at isPercent
    have shareLe : (-offset).toNat ≤ most := by omega
    rcases exists_is_share isBase isPercent shareLe with ⟨part, isPart, partLe⟩
    have isDifference := isBase.saturating (· - ·) isPart
    refine ⟨base - part, isDifference.of_eq ?_, by omega, by omega⟩
    simp only [Kind.clamp, u64]
    omega

/-- The manager after a delay was drawn. -/
def advanced (manager : BackoffManager) (now : Instant) : BackoffManager :=
  let doubled : U64 := ⟨min (2 ^ 64 - 1) (manager.currentDelay.asMillis * 2), by omega⟩
  { manager with
    currentDelay := (Duration.fromMillis doubled).min manager.maxDelay
    consecutiveFailures := manager.consecutiveFailures.saturatingAdd 1
    lastAttemptAt := some now }

/-- A call does not panic: it doubles the base, and draws a delay within the percentage of
it. -/
theorem exists_nextBackoff_eq {manager : BackoffManager} {base : Nat}
    (base_eq : manager.currentDelay.asMillis = base) (bounded : base < 2 ^ 64)
    (clamped : manager.jitterPercent.val ≤ 100) (now : Instant) (time : SystemTime) :
    ∃ delay : U64,
      manager.nextBackoff now time = some (.fromMillis delay, manager.advanced now) ∧
        max 50 (base - base * manager.jitterPercent.val / 100) ≤ delay.val ∧
        delay.val ≤ max 50 (base + base * manager.jitterPercent.val / 100) := by
  have isBase : (millisU64 manager.currentDelay).Is base := by
    rw [← base_eq] at bounded ⊢
    exact is_millisU64 bounded
  have doubled : u64.clamp ((base : Int) * 2) = (min (2 ^ 64 - 1) (base * 2) : Nat) := by
    rw [Kind.clamp_of_nonneg (by omega)]
    simp only [u64]
    push_cast
    rfl
  have isNext : ((millisU64 manager.currentDelay).saturatingMul 2).Is
      (min (2 ^ 64 - 1) (base * 2) : Nat) :=
    (isBase.saturating (· * ·) (is_ofNat 2 (by decide))).of_eq doubled
  rcases exists_is_pseudoRand (entropyNanos_lt time)
    (manager.consecutiveFailures.saturatingAdd 1) with ⟨drawn, drawnNonneg, isRand⟩
  rcases exists_is_jitterOffsetPct clamped drawnNonneg isRand with ⟨offset, isOffset, low, high⟩
  rcases exists_is_jitteredMs isBase isOffset clamped low high with
    ⟨jittered, isJittered, above, below⟩
  have isFloor : (Expr.of u64 minBackoffFloorMs.val).Is minBackoffFloorMs.val := is_of (by decide)
  have isDelay := isJittered.max isFloor
  have floored : max (jittered : Int) minBackoffFloorMs.val = (max jittered 50 : Nat) := by
    push_cast
    rfl
  have delayLt := isDelay.fits.2
  rw [floored] at delayLt
  simp only [u64] at delayLt
  let next : U64 := ⟨min (2 ^ 64 - 1) (base * 2), by omega⟩
  let delay : U64 := ⟨max jittered 50, by omega⟩
  have next_eq := durationOf?_of_is (show Expr.Is _ next.val from isNext)
  have delay_eq := durationOf?_of_is (show Expr.Is _ delay.val from isDelay.of_eq floored)
  refine ⟨delay, ?_, by dsimp only [delay]; omega, by dsimp only [delay]; omega⟩
  subst base_eq
  rw [nextBackoff]
  simp only [next_eq, delay_eq, Option.bind_eq_bind, Option.bind_some]
  rfl

/-! ## Runs -/

/-- What a run does with the manager. -/
inductive Action where
  | nextBackoff (now : Instant) (time : SystemTime)
  | reset

/-- One call; `none` where it panics. -/
def step (manager : BackoffManager) : Action → Option BackoffManager
  | .nextBackoff now time => (manager.nextBackoff now time).map Prod.snd
  | .reset => some manager.reset

/-- The number of delays drawn since the last reset. -/
def callsSinceReset : Nat → List Action → Nat
  | calls, [] => calls
  | calls, .nextBackoff _ _ :: actions => callsSinceReset (calls + 1) actions
  | _, .reset :: actions => callsSinceReset 0 actions

/-- The manager after so many delays since its last reset, with the bases between the
initial one and the largest. -/
structure After (initial most : Nat) (jitterPercent : U32) (calls : Nat)
    (manager : BackoffManager) : Prop where
  initial_eq : manager.initialDelay.asMillis = initial
  most_eq : manager.maxDelay.asMillis = most
  base_eq : manager.currentDelay.asMillis = min (initial * 2 ^ calls) most
  failures_eq : manager.consecutiveFailures.val = min calls (2 ^ 32 - 1)
  jitter_eq : manager.jitterPercent = jitterPercent

section Calls

variable {initial most calls : Nat} {jitterPercent : U32} {manager : BackoffManager}

theorem After.advanced (after : After initial most jitterPercent calls manager)
    (bounded : most < 2 ^ 64) (now : Instant) :
    After initial most jitterPercent (calls + 1) (manager.advanced now) where
  initial_eq := after.initial_eq
  most_eq := after.most_eq
  base_eq := by
    simp only [BackoffManager.advanced, Duration.asMillis_min, Duration.asMillis_fromMillis,
      after.base_eq, after.most_eq, pow_succ, ← Nat.mul_assoc]
    omega
  failures_eq := by
    rw [BackoffManager.advanced, U32.val_saturatingAdd, after.failures_eq]
    change min (min calls _ + 1) _ = _
    omega
  jitter_eq := after.jitter_eq

theorem After.reset (after : After initial most jitterPercent calls manager)
    (le : initial ≤ most) : After initial most jitterPercent 0 manager.reset where
  initial_eq := after.initial_eq
  most_eq := after.most_eq
  base_eq := by
    rw [BackoffManager.reset, after.initial_eq, pow_zero, Nat.mul_one, min_eq_left le]
  failures_eq := rfl
  jitter_eq := after.jitter_eq

theorem After.exists_nextBackoff (after : After initial most jitterPercent calls manager)
    (bounded : most < 2 ^ 64) (clamped : jitterPercent.val ≤ 100) (now : Instant)
    (time : SystemTime) :
    ∃ delay : U64,
      manager.nextBackoff now time = some (.fromMillis delay, manager.advanced now) ∧
        max 50 (min (initial * 2 ^ calls) most -
          min (initial * 2 ^ calls) most * jitterPercent.val / 100) ≤ delay.val ∧
        delay.val ≤ max 50 (min (initial * 2 ^ calls) most +
          min (initial * 2 ^ calls) most * jitterPercent.val / 100) := by
  rw [← after.jitter_eq] at clamped ⊢
  exact exists_nextBackoff_eq after.base_eq ((min_le_right _ _).trans_lt bounded) clamped now time

/-- No run panics. -/
theorem After.exists_run (after : After initial most jitterPercent calls manager)
    (le : initial ≤ most) (bounded : most < 2 ^ 64) (clamped : jitterPercent.val ≤ 100)
    (actions : List Action) :
    ∃ reached, Transition.run step manager actions = some reached ∧
      After initial most jitterPercent (callsSinceReset calls actions) reached := by
  induction actions generalizing manager calls with
  | nil => exact ⟨manager, rfl, after⟩
  | cons action actions ih =>
      rw [Transition.run_cons]
      cases action with
      | nextBackoff now time =>
          rcases after.exists_nextBackoff bounded clamped now time with ⟨delay, called, _⟩
          rw [step, called, Option.map_some, Option.bind_some]
          exact ih (after.advanced bounded now)
      | reset => exact ih (after.reset le)

end Calls

/-- A new manager, with the jitter that is set on it, if any. -/
def configured (initialDelay maxDelay : Duration) : Option U32 → BackoffManager
  | none => new initialDelay maxDelay
  | some jitterPercent => (new initialDelay maxDelay).withJitter jitterPercent

/-- The jitter of a manager so configured. -/
def configuredJitter : Option U32 → U32
  | none => defaultJitterPercent
  | some jitterPercent => min jitterPercent 100

theorem configuredJitter_le (jitter : Option U32) : (configuredJitter jitter).val ≤ 100 := by
  cases jitter with
  | none => decide
  | some jitterPercent => exact Fin.le_def.mp (min_le_right jitterPercent 100)

theorem after_configured (initialDelay maxDelay : Duration) (jitter : Option U32) :
    After (max initialDelay.asMillis 50) (max maxDelay.asMillis (max initialDelay.asMillis 50))
      (configuredJitter jitter) 0 (configured initialDelay maxDelay jitter) := by
  have new_after : After (max initialDelay.asMillis 50)
      (max maxDelay.asMillis (max initialDelay.asMillis 50)) defaultJitterPercent 0
      (new initialDelay maxDelay) := by
    have floor : (Duration.fromMillis minBackoffFloorMs).asMillis = 50 := rfl
    constructor <;> simp [new, floor]
  cases jitter with
  | none => exact new_after
  | some jitterPercent =>
      exact ⟨new_after.initial_eq, new_after.most_eq, new_after.base_eq, new_after.failures_eq, rfl⟩

/-- The backoff law: no run panics, and the base of the call after it is the initial delay
doubled once for each call since the last reset, up to the maximum; its delay is within the
percentage of the base, and above the floor. -/
theorem backoff_law (initialDelay maxDelay : Duration) (jitter : Option U32)
    (initialBounded : initialDelay.asMillis < 2 ^ 64) (maxBounded : maxDelay.asMillis < 2 ^ 64)
    (actions : List Action) (now : Instant) (time : SystemTime) :
    let initial := max initialDelay.asMillis 50
    let most := max maxDelay.asMillis initial
    let base := min (initial * 2 ^ callsSinceReset 0 actions) most
    let jitterPercent := (configuredJitter jitter).val
    ∃ (manager next : BackoffManager) (delay : U64),
      Transition.run step (configured initialDelay maxDelay jitter) actions = some manager ∧
        manager.nextBackoff now time = some (.fromMillis delay, next) ∧
        manager.currentDelay.asMillis = base ∧
        max 50 (base - base * jitterPercent / 100) ≤ delay.val ∧
        delay.val ≤ max 50 (base + base * jitterPercent / 100) ∧
        next.consecutiveFailures.val = min (callsSinceReset 0 actions + 1) (2 ^ 32 - 1) := by
  intro initial most base jitterPercent
  have bounded : most < 2 ^ 64 := by omega
  have clamped := configuredJitter_le jitter
  have start := after_configured initialDelay maxDelay jitter
  rcases start.exists_run (le_max_right _ _) bounded clamped actions with ⟨manager, ran, after⟩
  rcases after.exists_nextBackoff bounded clamped now time with ⟨delay, called, above, below⟩
  exact ⟨manager, manager.advanced now, delay, ran, called, after.base_eq, above, below,
    (after.advanced bounded now).failures_eq⟩

/-- The second delay of the default manager. -/
theorem backoff_law_second :
    ∃ (manager next : BackoffManager) (delay : U64),
      Transition.run step (configured ⟨0, 500000000⟩ ⟨30, 0⟩ none)
          [.nextBackoff 0 (.beforeEpoch .zero)] = some manager ∧
        manager.nextBackoff 1 (.sinceEpoch ⟨1790906400, 500000000⟩) =
          some (.fromMillis delay, next) ∧
        manager.currentDelay.asMillis = 1000 ∧ 800 ≤ delay.val ∧ delay.val ≤ 1200 ∧
        next.consecutiveFailures.val = 2 := by
  have initialMillis : Duration.asMillis ⟨0, 500000000⟩ = 500 := by decide
  have maxMillis : Duration.asMillis ⟨30, 0⟩ = 30000 := by decide
  have jitter : (configuredJitter none).val = 20 := by decide
  have law := backoff_law ⟨0, 500000000⟩ ⟨30, 0⟩ none (by rw [initialMillis]; decide)
    (by rw [maxMillis]; decide) [.nextBackoff 0 (.beforeEpoch .zero)] 1
    (.sinceEpoch ⟨1790906400, 500000000⟩)
  simpa [initialMillis, maxMillis, jitter, callsSinceReset] using law

end BackoffManager

end Skybase.Ingest
