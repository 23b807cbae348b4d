import Mathlib.Data.List.Induction
import Mathlib.Data.Nat.Basic
import Mathlib.Tactic.Ring

/-!
# Digits of fixed width

The digits of a number in a base, most significant first, padded to a fixed
width.  Among digit lists of one width the value is a bijection onto an initial
segment of the numbers, and the lexicographic order is the order of the values.
An alphabet in increasing order carries the order over to its letters.
-/

namespace Skybase.Digits

universe u

/-- The lowest `width` digits of a number, most significant first. -/
def digits (base : Nat) : Nat → Nat → List Nat
  | 0, _ => []
  | width + 1, number => digits base width (number / base) ++ [number % base]

/-- The number that a digit list extends a number to. -/
def valueFrom (base start : Nat) (ds : List Nat) : Nat :=
  ds.foldl (fun value digit => value * base + digit) start

/-- The number that a digit list denotes. -/
def value (base : Nat) (ds : List Nat) : Nat := valueFrom base 0 ds

variable {base : Nat}

@[simp]
theorem valueFrom_nil (start : Nat) : valueFrom base start [] = start :=
  rfl

@[simp]
theorem valueFrom_cons (start digit : Nat) (ds : List Nat) :
    valueFrom base start (digit :: ds) = valueFrom base (start * base + digit) ds :=
  rfl

theorem valueFrom_append (start : Nat) (first second : List Nat) :
    valueFrom base start (first ++ second) = valueFrom base (valueFrom base start first) second :=
  List.foldl_append

theorem valueFrom_eq (start : Nat) (ds : List Nat) :
    valueFrom base start ds = start * base ^ ds.length + value base ds := by
  induction ds generalizing start with
  | nil => simp [value]
  | cons digit ds ih =>
      rw [value, valueFrom_cons, valueFrom_cons, ih, ih (0 * base + digit), List.length_cons]
      ring

/-- Reducing the number that is extended keeps the result, up to the modulus. -/
theorem valueFrom_mod (modulus start : Nat) (ds : List Nat) :
    valueFrom base (start % modulus) ds % modulus = valueFrom base start ds % modulus := by
  rw [valueFrom_eq, valueFrom_eq start, Nat.add_mod, Nat.mod_mul_mod, ← Nat.add_mod]

theorem value_cons (digit : Nat) (ds : List Nat) :
    value base (digit :: ds) = digit * base ^ ds.length + value base ds := by
  rw [value, valueFrom_cons, valueFrom_eq, Nat.zero_mul, Nat.zero_add]

theorem value_append_singleton (ds : List Nat) (digit : Nat) :
    value base (ds ++ [digit]) = value base ds * base + digit := by
  rw [value, valueFrom_append]
  rfl

@[simp]
theorem length_digits (width number : Nat) : (digits base width number).length = width := by
  induction width generalizing number with
  | zero => rfl
  | succ width ih => rw [digits, List.length_append, ih, List.length_singleton]

theorem digits_lt (positive : 0 < base) (width number : Nat) :
    ∀ digit ∈ digits base width number, digit < base := by
  induction width generalizing number with
  | zero => simp [digits]
  | succ width ih =>
      intro digit mem
      rw [digits, List.mem_append, List.mem_singleton] at mem
      rcases mem with high | rfl
      · exact ih (number / base) digit high
      · exact Nat.mod_lt number positive

/-- The digits of a number denote it, up to the width. -/
theorem value_digits (width number : Nat) :
    value base (digits base width number) = number % base ^ width := by
  induction width generalizing number with
  | zero => simp [digits, value, Nat.mod_one]
  | succ width ih =>
      rw [digits, value_append_singleton, ih, Nat.pow_succ', Nat.mod_mul]
      ring

/-- A digit list consists of the digits of its value. -/
theorem digits_value {ds : List Nat} (small : ∀ digit ∈ ds, digit < base) :
    digits base ds.length (value base ds) = ds := by
  induction ds using List.reverseRecOn with
  | nil => rfl
  | append_singleton ds digit ih =>
      have digitSmall : digit < base := small digit (by simp)
      have positive : 0 < base := Nat.zero_lt_of_lt digitSmall
      have high : (value base ds * base + digit) / base = value base ds := by
        rw [Nat.mul_comm, Nat.mul_add_div positive, Nat.div_eq_of_lt digitSmall, Nat.add_zero]
      have low : (value base ds * base + digit) % base = digit := by
        rw [Nat.mul_comm, Nat.mul_add_mod, Nat.mod_eq_of_lt digitSmall]
      rw [List.length_append, List.length_singleton, digits, value_append_singleton, high, low,
        ih fun other mem => small other (by simp [mem])]

/-- A digit list of some width denotes a number below that power of the base. -/
theorem value_lt {ds : List Nat} (small : ∀ digit ∈ ds, digit < base) :
    value base ds < base ^ ds.length := by
  induction ds with
  | nil => simp [value]
  | cons digit ds ih =>
      have tail := ih fun other mem => small other (List.mem_cons_of_mem digit mem)
      have head : digit + 1 ≤ base := small digit List.mem_cons_self
      rw [value_cons, List.length_cons, Nat.pow_succ']
      calc digit * base ^ ds.length + value base ds
          < (digit + 1) * base ^ ds.length := by rw [Nat.add_one_mul]; omega
        _ ≤ base * base ^ ds.length := Nat.mul_le_mul_right _ head

/-- Digit lists of one width are ordered as their values. -/
theorem lt_iff_value_lt {first second : List Nat} (width : first.length = second.length)
    (firstSmall : ∀ digit ∈ first, digit < base) (secondSmall : ∀ digit ∈ second, digit < base) :
    first < second ↔ value base first < value base second := by
  induction first generalizing second with
  | nil =>
      cases second with
      | nil => simp
      | cons digit second => cases width
  | cons digit first ih =>
      cases second with
      | nil => cases width
      | cons other second =>
          have tails : first.length = second.length := Nat.succ.inj width
          have firstTail := fun d mem => firstSmall d (List.mem_cons_of_mem digit mem)
          have secondTail := fun d mem => secondSmall d (List.mem_cons_of_mem other mem)
          have firstBound := value_lt firstTail
          have secondBound := value_lt secondTail
          rw [List.cons_lt_cons_iff, ih tails firstTail secondTail, value_cons, value_cons, tails]
          rw [tails] at firstBound
          rcases Nat.lt_trichotomy digit other with less | rfl | greater
          · have step := Nat.mul_le_mul_right (base ^ second.length) (Nat.succ_le_of_lt less)
            rw [Nat.succ_mul] at step
            simp only [less, true_or, true_iff]
            omega
          · simp only [lt_irrefl, true_and, false_or]
            omega
          · have step := Nat.mul_le_mul_right (base ^ second.length) (Nat.succ_le_of_lt greater)
            rw [Nat.succ_mul] at step
            have apart :
                ¬ (digit < other ∨ digit = other ∧ value base first < value base second) := by
              omega
            simp only [apart, false_iff]
            omega

theorem digits_lt_digits {width first second : Nat} (positive : 0 < base) (less : first < second)
    (bound : second < base ^ width) : digits base width first < digits base width second := by
  rw [lt_iff_value_lt (by simp) (digits_lt positive _ _) (digits_lt positive _ _), value_digits,
    value_digits, Nat.mod_eq_of_lt (less.trans bound), Nat.mod_eq_of_lt bound]
  exact less

/-! ## Letters -/

/-- A strictly increasing alphabet keeps the lexicographic order. -/
theorem map_lt_map {α : Type u} [LT α] {letter : Nat → α}
    (increasing : ∀ first second, first < second → second < base → letter first < letter second)
    {first second : List Nat} (secondSmall : ∀ digit ∈ second, digit < base)
    (less : first < second) : first.map letter < second.map letter := by
  induction first generalizing second with
  | nil =>
      cases second with
      | nil => exact absurd less (List.lt_irrefl _)
      | cons other second => exact List.nil_lt_cons _ _
  | cons digit first ih =>
      cases second with
      | nil => exact absurd less (List.not_lt_nil _)
      | cons other second =>
          rw [List.cons_lt_cons_iff] at less
          rw [List.map_cons, List.map_cons, List.cons_lt_cons_iff]
          rcases less with smaller | ⟨rfl, tail⟩
          · exact Or.inl (increasing _ _ smaller (secondSmall other List.mem_cons_self))
          · exact Or.inr ⟨rfl, ih (fun d mem => secondSmall d (List.mem_cons_of_mem _ mem)) tail⟩

end Skybase.Digits
