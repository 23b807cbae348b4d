import Mathlib.Data.Fin.Basic
import Mathlib.Order.Fin.Basic
import Mathlib.Algebra.Group.Int.Defs
import Mathlib.Algebra.Group.Nat.Defs
import Mathlib.Algebra.Ring.Nat

/-!
# Machine integers

Unsigned 64-bit integers are `Fin (2 ^ 64)`; signed ones, where the source
converts to them, are integers within the range of `i64`.  The checked
conversions and the decimal text of a `u64` follow the standard library.
-/

namespace Skybase

/-- The type `u64`. -/
abbrev U64 := Fin (2 ^ 64)

/-- The type `u32`. -/
abbrev U32 := Fin (2 ^ 32)

instance U64.neZero : NeZero (2 ^ 64) := ⟨by decide⟩

instance U32.neZero : NeZero (2 ^ 32) := ⟨by decide⟩

namespace U64

/-- `u64` values by their number. -/
def toInt (value : U64) : Int := value.val

theorem toInt_le_toInt_iff (first second : U64) :
    first.toInt ≤ second.toInt ↔ first ≤ second := by
  rw [toInt, toInt, Int.ofNat_le, Fin.le_def]

theorem toInt_lt_toInt_iff (first second : U64) :
    first.toInt < second.toInt ↔ first < second := by
  rw [toInt, toInt, Int.ofNat_lt, Fin.lt_def]

theorem toInt_inj {first second : U64} : first.toInt = second.toInt ↔ first = second := by
  rw [toInt, toInt, Int.ofNat_inj, Fin.ext_iff]

end U64

/-- `u64::saturating_add`. -/
def U64.saturatingAdd (first second : U64) : U64 :=
  if bound : first.val + second.val < 2 ^ 64 then ⟨first.val + second.val, bound⟩
  else Fin.last (2 ^ 64 - 1)

/-- `u32::saturating_add`. -/
def U32.saturatingAdd (first second : U32) : U32 :=
  if bound : first.val + second.val < 2 ^ 32 then ⟨first.val + second.val, bound⟩
  else Fin.last (2 ^ 32 - 1)

theorem U32.val_saturatingAdd (first second : U32) :
    (first.saturatingAdd second).val = min (first.val + second.val) (2 ^ 32 - 1) := by
  rw [saturatingAdd]
  split
  · next bound => exact (min_eq_left (Nat.le_sub_one_of_lt bound)).symm
  · next overflow =>
      rw [min_eq_right (by omega)]
      rfl

/-- `u64::saturating_sub`. -/
def U64.saturatingSub (first second : U64) : U64 :=
  ⟨first.val - second.val, (Nat.sub_le _ _).trans_lt first.isLt⟩

/-- `i64::MAX`. -/
def i64Max : Int := 2 ^ 63 - 1

/-- Whether a `u64` is in the range of `i64`. -/
def FitsI64 (value : U64) : Prop := value.toInt ≤ i64Max

instance (value : U64) : Decidable (FitsI64 value) :=
  inferInstanceAs (Decidable (_ ≤ _))

/-- The display text of `TryFromIntError`.  The standard library does not promise
its words, and no statement depends on them. -/
def tryFromIntError : String := "out of range integral type conversion attempted"

/-- `i64::try_from` on a `u64`. -/
def i64TryFrom (value : U64) : Except String Int :=
  if FitsI64 value then .ok value.toInt else .error tryFromIntError

theorem i64TryFrom_of_fits {value : U64} (fits : FitsI64 value) :
    i64TryFrom value = .ok value.toInt :=
  if_pos fits

theorem i64TryFrom_of_not_fits {value : U64} (overflow : ¬ FitsI64 value) :
    i64TryFrom value = .error tryFromIntError :=
  if_neg overflow

/-- `u64::try_from` on an `i64`. -/
def u64TryFrom (value : Int) : Except String U64 :=
  if bound : 0 ≤ value ∧ value.toNat < 2 ^ 64 then .ok ⟨value.toNat, bound.2⟩
  else .error tryFromIntError

@[simp]
theorem u64TryFrom_toInt (value : U64) : u64TryFrom value.toInt = .ok value := by
  have bound : 0 ≤ value.toInt ∧ value.toInt.toNat < 2 ^ 64 :=
    ⟨Int.natCast_nonneg _, value.isLt⟩
  rw [u64TryFrom, dif_pos bound]
  rfl

/-! ## Decimal text -/

/-- The loop of `u64::from_str` over the digits, with its accumulator. -/
def parseU64Digits (accumulated : U64) : List Char → Except String U64
  | [] => .ok accumulated
  | digit :: digits =>
      if digit.isDigit then
        let next := accumulated.val * 10 + (digit.toNat - '0'.toNat)
        if bound : next < 2 ^ 64 then parseU64Digits ⟨next, bound⟩ digits
        else .error "number too large to fit in target type"
      else .error "invalid digit found in string"

/-- `str::parse::<u64>`: an optional plus sign and at least one digit. -/
def parseU64 (text : String) : Except String U64 :=
  match text.toList with
  | [] => .error "cannot parse integer from empty string"
  | ['+'] => .error "invalid digit found in string"
  | '+' :: digits => parseU64Digits 0 digits
  | digits => parseU64Digits 0 digits

/-- `u64::to_string`. -/
def U64.text (value : U64) : String := value.val.repr

theorem parseU64Digits_eq_ok {digits : List Char} (allDigits : ∀ digit ∈ digits, digit.isDigit)
    (accumulated value : U64)
    (total : Nat.ofDigitChars 10 digits accumulated.val = value.val) :
    parseU64Digits accumulated digits = .ok value := by
  induction digits generalizing accumulated with
  | nil =>
      rw [Nat.ofDigitChars_nil] at total
      rw [parseU64Digits, Fin.ext total]
  | cons digit digits ih =>
      rw [Nat.ofDigitChars_cons, Nat.mul_comm] at total
      have grown : accumulated.val * 10 + (digit.toNat - '0'.toNat) ≤ value.val := by
        rw [← total, Nat.ofDigitChars_eq_ofDigitChars_zero]
        exact Nat.le_trans (Nat.le_mul_of_pos_left _ (Nat.pow_pos (by decide)))
          (Nat.le_add_right _ _)
      have bound : accumulated.val * 10 + (digit.toNat - '0'.toNat) < 2 ^ 64 :=
        grown.trans_lt value.isLt
      rw [parseU64Digits, if_pos (allDigits digit List.mem_cons_self), dif_pos bound]
      exact ih (fun later mem => allDigits later (List.mem_cons_of_mem digit mem)) _ total

/-- The decimal text of a `u64` consists of digits. -/
theorem U64.isAlphanum_text (value : U64) : ∀ c ∈ value.text.toList, c.isAlphanum = true := by
  intro c mem
  rw [text, Nat.toList_repr] at mem
  have digit : c.isDigit = true := Nat.isDigit_of_mem_toDigits (by decide) (by decide) mem
  rw [Char.isAlphanum, digit, Bool.or_true]

/-- The decimal text of a `u64` parses back to it. -/
@[simp]
theorem parseU64_text (value : U64) : parseU64 value.text = .ok value := by
  have digits : ∀ digit ∈ Nat.toDigits 10 value.val, digit.isDigit := fun digit mem =>
    Nat.isDigit_of_mem_toDigits (by decide) (by decide) mem
  have parsed : parseU64Digits 0 (Nat.toDigits 10 value.val) = .ok value :=
    parseU64Digits_eq_ok digits 0 value Nat.ofDigitChars_ten_toDigits
  rw [parseU64, U64.text, Nat.toList_repr]
  cases text : Nat.toDigits 10 value.val with
  | nil => exact absurd text Nat.toDigits_ne_nil
  | cons first rest =>
      have firstDigit := digits first (text ▸ List.mem_cons_self)
      have notSign : first ≠ '+' := by
        rintro rfl
        exact absurd firstDigit (by decide)
      rw [text] at parsed
      split <;> simp_all

end Skybase
