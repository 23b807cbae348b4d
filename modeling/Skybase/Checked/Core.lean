import Mathlib.Data.Int.Order.Basic
import Mathlib.Algebra.Order.Group.Unbundled.Int

/-!
# Checked machine arithmetic

Expressions of a machine integer type, written with the ordinary operators.  An
expression has a value as long as every step of it stays in the range of its
type, and none from the first step on that leaves it: an expression with a value
is one whose evaluation neither overflows nor underflows.  Division truncates
towards zero, and a cast keeps the value modulo the size of its target.
-/

namespace Skybase.Checked

/-- A machine integer type: its range. -/
structure Kind where
  low : Int
  high : Int
  low_nonpos : low ≤ 0
  high_nonneg : 0 ≤ high

/-- The type `u64`. -/
def u64 : Kind := ⟨0, 2 ^ 64 - 1, by decide, by decide⟩

/-- The type `u128`. -/
def u128 : Kind := ⟨0, 2 ^ 128 - 1, by decide, by decide⟩

/-- The type `u32`. -/
def u32 : Kind := ⟨0, 2 ^ 32 - 1, by decide, by decide⟩

/-- The type `i64`. -/
def i64 : Kind := ⟨-2 ^ 63, 2 ^ 63 - 1, by decide, by decide⟩

namespace Kind

variable {kind : Kind}

/-- A number in the range of a type. -/
def Fits (kind : Kind) (value : Int) : Prop := kind.low ≤ value ∧ value ≤ kind.high

instance (value : Int) : Decidable (kind.Fits value) :=
  inferInstanceAs (Decidable (_ ∧ _))

/-- What lies between zero and a value of the type is one as well. -/
theorem Fits.of_le {value smaller : Int} (fits : kind.Fits value) (nonneg : 0 ≤ smaller)
    (le : smaller ≤ value) : kind.Fits smaller :=
  ⟨kind.low_nonpos.trans nonneg, le.trans fits.2⟩

/-- The number of the type that is closest to a number. -/
def clamp (kind : Kind) (number : Int) : Int := max kind.low (min kind.high number)

theorem fits_clamp (number : Int) : kind.Fits (kind.clamp number) := by
  have zero := kind.low_nonpos.trans kind.high_nonneg
  exact ⟨le_max_left _ _, max_le zero (min_le_left _ _)⟩

/-- From above, only the upper end of the range is met by a number that is not negative. -/
theorem clamp_of_nonneg {number : Int} (nonneg : 0 ≤ number) :
    kind.clamp number = min kind.high number :=
  max_eq_right (kind.low_nonpos.trans (le_min kind.high_nonneg nonneg))

/-- The number of the type that a number is congruent to modulo the size of the type. -/
def wrap (kind : Kind) (number : Int) : Int :=
  kind.low + (number - kind.low) % (kind.high - kind.low + 1)

theorem fits_wrap (number : Int) : kind.Fits (kind.wrap number) := by
  have low := kind.low_nonpos
  have high := kind.high_nonneg
  have size : 0 < kind.high - kind.low + 1 := by omega
  have above := Int.emod_nonneg (number - kind.low) size.ne'
  have below := Int.emod_lt_of_pos (number - kind.low) size
  constructor <;> rw [wrap] <;> omega

end Kind

/-- An expression of a type: its value, or an overflow of some step of it. -/
inductive Expr (kind : Kind) : Type where
  | value (number : Int) (fits : kind.Fits number)
  | overflow

namespace Expr

variable {kind target : Kind}

/-- A number as a step of an expression. -/
def of (kind : Kind) (number : Int) : Expr kind :=
  if fits : kind.Fits number then value number fits else overflow

/-- The number that an expression has for its value. -/
def value? : Expr kind → Option Int
  | value number _ => some number
  | overflow => none

/-- A step from the value of an expression. -/
def bind (expr : Expr kind) (step : Int → Expr target) : Expr target :=
  match expr with
  | value number _ => step number
  | overflow => overflow

instance : Add (Expr kind) :=
  ⟨fun first second => first.bind fun left => second.bind fun right => of kind (left + right)⟩

instance : Sub (Expr kind) :=
  ⟨fun first second => first.bind fun left => second.bind fun right => of kind (left - right)⟩

instance : Mul (Expr kind) :=
  ⟨fun first second => first.bind fun left => second.bind fun right => of kind (left * right)⟩

instance : Div (Expr kind) :=
  ⟨fun first second => first.bind fun left => second.bind fun right =>
    if right = 0 then overflow else of kind (left.tdiv right)⟩

instance : Mod (Expr kind) :=
  ⟨fun first second => first.bind fun left => second.bind fun right =>
    if right = 0 then overflow else of kind (left.tmod right)⟩

instance : Neg (Expr kind) := ⟨fun expr => expr.bind fun number => of kind (-number)⟩

instance : Max (Expr kind) :=
  ⟨fun first second => first.bind fun left => second.bind fun right => of kind (max left right)⟩

/-- The shift `>>` by a number of bits that the type has. -/
instance : HShiftRight (Expr kind) Nat (Expr kind) :=
  ⟨fun expr bits => expr.bind fun number => of kind (number / 2 ^ bits)⟩

/-- An operation that stops at the ends of the range. -/
def saturating (operation : Int → Int → Int) (first second : Expr kind) : Expr kind :=
  first.bind fun left => second.bind fun right => of kind (kind.clamp (operation left right))

/-- `saturating_add`. -/
def saturatingAdd : Expr kind → Expr kind → Expr kind := saturating (· + ·)

/-- `saturating_sub`. -/
def saturatingSub : Expr kind → Expr kind → Expr kind := saturating (· - ·)

/-- `saturating_mul`. -/
def saturatingMul : Expr kind → Expr kind → Expr kind := saturating (· * ·)

/-- An operation modulo the size of the type. -/
def wrapping (operation : Int → Int → Int) (first second : Expr kind) : Expr kind :=
  first.bind fun left => second.bind fun right => of kind (kind.wrap (operation left right))

/-- `wrapping_add`. -/
def wrappingAdd : Expr kind → Expr kind → Expr kind := wrapping (· + ·)

/-- `wrapping_mul`. -/
def wrappingMul : Expr kind → Expr kind → Expr kind := wrapping (· * ·)

instance (number : Nat) : OfNat (Expr kind) number := ⟨of kind number⟩

/-- `if` on the value of an expression; only the chosen branch is evaluated. -/
def branch (expr : Expr kind) (test : Int → Bool) (yes no : Expr target) : Expr target :=
  expr.bind fun number => if test number then yes else no

/-- The cast `as`: the value modulo the size of the target. -/
def cast (target : Kind) (expr : Expr kind) : Expr target :=
  expr.bind fun number =>
    of target (target.low + (number - target.low) % (target.high - target.low + 1))

/-- The expression is evaluated, to a number. -/
def Is (expr : Expr kind) (number : Int) : Prop := expr.value? = some number

theorem is_of {number : Int} (fits : kind.Fits number) : (of kind number).Is number := by
  rw [Is, of, dif_pos fits, value?]

theorem is_ofNat (number : Nat) (fits : kind.Fits number) :
    Is (OfNat.ofNat number : Expr kind) number :=
  is_of fits

theorem Is.of_eq {expr : Expr kind} {number other : Int} (is : expr.Is number)
    (eq : number = other) : expr.Is other :=
  eq ▸ is

theorem Is.exists_eq {expr : Expr kind} {number : Int} (is : expr.Is number) :
    ∃ fits : kind.Fits number, expr = value number fits := by
  cases expr with
  | value evaluated fits =>
      obtain rfl : evaluated = number := Option.some.inj is
      exact ⟨fits, rfl⟩
  | overflow => exact nomatch is

theorem Is.fits {expr : Expr kind} {number : Int} (is : expr.Is number) : kind.Fits number :=
  is.exists_eq.1

theorem Is.bind {expr : Expr kind} {number : Int} (is : expr.Is number)
    (step : Int → Expr target) : expr.bind step = step number := by
  obtain ⟨_, rfl⟩ := is.exists_eq
  rfl

section Steps

variable {first second : Expr kind} {left right : Int}

theorem Is.add (isLeft : first.Is left) (isRight : second.Is right)
    (fits : kind.Fits (left + right)) : (first + second).Is (left + right) := by
  change (first.bind _).Is _
  rw [isLeft.bind, isRight.bind]
  exact is_of fits

theorem Is.sub (isLeft : first.Is left) (isRight : second.Is right)
    (fits : kind.Fits (left - right)) : (first - second).Is (left - right) := by
  change (first.bind _).Is _
  rw [isLeft.bind, isRight.bind]
  exact is_of fits

theorem Is.mul (isLeft : first.Is left) (isRight : second.Is right)
    (fits : kind.Fits (left * right)) : (first * second).Is (left * right) := by
  change (first.bind _).Is _
  rw [isLeft.bind, isRight.bind]
  exact is_of fits

/-- The quotient of a number that is not negative rounds down, and is in range. -/
theorem Is.div (isLeft : first.Is left) (isRight : second.Is right) (nonneg : 0 ≤ left)
    (pos : 0 < right) : (first / second).Is (left / right) := by
  change (first.bind _).Is _
  rw [isLeft.bind, isRight.bind, if_neg pos.ne', Int.tdiv_eq_ediv_of_nonneg nonneg]
  exact is_of (isLeft.fits.of_le (Int.ediv_nonneg nonneg pos.le) (Int.ediv_le_self _ nonneg))

/-- The remainder of a number that is not negative is in range. -/
theorem Is.mod (isLeft : first.Is left) (isRight : second.Is right) (nonneg : 0 ≤ left)
    (pos : 0 < right) : (first % second).Is (left % right) := by
  change (first.bind _).Is _
  rw [isLeft.bind, isRight.bind, if_neg pos.ne', Int.tmod_eq_emod_of_nonneg nonneg]
  have quotient := Int.mul_nonneg pos.le (Int.ediv_nonneg nonneg pos.le)
  have le : left % right ≤ left := by rw [Int.emod_def]; omega
  exact is_of (isLeft.fits.of_le (Int.emod_nonneg _ pos.ne') le)

theorem Is.neg (is : first.Is left) (fits : kind.Fits (-left)) : (-first).Is (-left) := by
  change (first.bind _).Is _
  rw [is.bind]
  exact is_of fits

theorem Is.max (isLeft : first.Is left) (isRight : second.Is right) :
    (Max.max first second).Is (Max.max left right) := by
  change (first.bind _).Is _
  rw [isLeft.bind, isRight.bind]
  have fits : kind.Fits (Max.max left right) := by
    rcases le_total left right with le | le
    · rw [max_eq_right le]
      exact isRight.fits
    · rw [max_eq_left le]
      exact isLeft.fits
  exact is_of fits

/-- A shift of a number that is not negative rounds its quotient down. -/
theorem Is.shiftRight (is : first.Is left) (bits : Nat) (nonneg : 0 ≤ left) :
    (first >>> bits).Is (left / 2 ^ bits) := by
  change (first.bind _).Is _
  rw [is.bind]
  have pos : (0 : Int) ≤ 2 ^ bits := Int.pow_nonneg (by decide)
  exact is_of (is.fits.of_le (Int.ediv_nonneg nonneg pos) (Int.ediv_le_self _ nonneg))

theorem Is.saturating (operation : Int → Int → Int) (isLeft : first.Is left)
    (isRight : second.Is right) :
    (Expr.saturating operation first second).Is (kind.clamp (operation left right)) := by
  rw [Expr.saturating, isLeft.bind, isRight.bind]
  exact is_of (Kind.fits_clamp _)

/-- What wraps has a value, whatever it wraps from. -/
theorem Is.wrapping (operation : Int → Int → Int) (isLeft : first.Is left)
    (isRight : second.Is right) :
    (Expr.wrapping operation first second).Is (kind.wrap (operation left right)) := by
  rw [Expr.wrapping, isLeft.bind, isRight.bind]
  exact is_of (Kind.fits_wrap _)

theorem Is.branch (is : first.Is left) (test : Int → Bool) (yes no : Expr target) :
    first.branch test yes no = if test left then yes else no :=
  is.bind _

/-- A cast keeps a number that is in the range of its target. -/
theorem Is.cast (is : first.Is left) (fits : target.Fits left) :
    (first.cast target).Is left := by
  have above := fits.1
  have below := fits.2
  have kept : target.low + (left - target.low) % (target.high - target.low + 1) = left := by
    rw [Int.emod_eq_of_lt (by omega) (by omega)]
    omega
  rw [Expr.cast, is.bind, kept]
  exact is_of fits

end Steps

end Expr

end Skybase.Checked
