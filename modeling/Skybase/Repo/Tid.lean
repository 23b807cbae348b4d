import Mathlib.Data.List.GetD
import Mathlib.Data.List.Lex
import Skybase.Digits.Core
import Skybase.Integer
import Skybase.Text

/-!
# Timestamp identifiers

The base-32 text of a 64-bit value and the decoder of its timestamp.  Thirteen
digits carry 65 bits, and the accumulator of the decoder has 64: it loses the
highest bit of the digits before it checks the reserved one.  The decoder is
therefore exact on all texts but those whose lost bit is set and whose reserved
bit is clear.
-/

namespace Skybase.Repo

open Skybase.Digits

/-! ## The codec -/

/-- `BASE32_CHARS`. -/
def base32Chars : List Char := "234567abcdefghijklmnopqrstuvwxyz".toList

/-- The loop of `encode_tid_base32`, which fills the buffer from its last
position to its first; `written` is the part that is filled. -/
def encodeLoop : Nat → U64 → List Char → List Char
  | 0, _, written => written
  | positions + 1, val, written =>
      encodeLoop positions (val >>> 5) (base32Chars.getD (val &&& 0x1f).val '2' :: written)

/-- `encode_tid_base32`. -/
def encodeTidBase32 (val : U64) : String := String.ofList (encodeLoop 13 val [])

/-- `u64::from` on a byte. -/
def u64FromByte (b : UInt8) : U64 :=
  ⟨b.toNat, b.toNat_lt.trans (by decide)⟩

/-- The digit that a byte stands for. -/
def tidDigit (b : UInt8) : Option U64 :=
  if 0x32 ≤ b ∧ b ≤ 0x37 then some (u64FromByte (b - 0x32))
  else if 0x61 ≤ b ∧ b ≤ 0x7A then some (u64FromByte (b - 0x61) + 6)
  else none

/-- The loop of `decode_tid_timestamp_us` over the bytes, with its accumulator. -/
def decodeLoop : U64 → List UInt8 → Option U64
  | val, [] => some val
  | val, b :: bytes =>
      match tidDigit b with
      | none => none
      | some digit => decodeLoop ((val <<< 5) ||| digit) bytes

/-- The value that `decode_tid_timestamp_us` accumulates. -/
def tidValue (tid : String) : Option U64 :=
  if Text.len tid ≠ 13 then none else decodeLoop 0 (Text.bytes tid)

/-- `decode_tid_timestamp_us`. -/
def decodeTidTimestampUs (tid : String) : Option U64 :=
  match tidValue tid with
  | none => none
  | some val => if val >>> 63 ≠ 0 then none else some (val >>> 10)

/-! ## Digits and letters -/

/-- The letter of a digit. -/
def letter (digit : Nat) : Char := base32Chars.getD digit '2'

/-- The byte of a digit. -/
def letterByte (digit : Nat) : UInt8 := UInt8.ofNat (letter digit).toNat

theorem letter_lt_letter : ∀ first second, first < second → second < 32 →
    letter first < letter second := by
  have sorted : ∀ second < 32, ∀ first < second, letter first < letter second := by decide
  exact fun first second less bound => sorted second bound first less

theorem utf8EncodeChar_letter {digit : Nat} (small : digit < 32) :
    String.utf8EncodeChar (letter digit) = [letterByte digit] := by
  have ascii : ∀ digit < 32, String.utf8EncodeChar (letter digit) = [letterByte digit] := by
    decide
  exact ascii digit small

theorem tidDigit_letterByte {digit : Nat} (small : digit < 32) :
    ∃ bound, tidDigit (letterByte digit) = some ⟨digit, bound⟩ := by
  have known : ∀ digit < 32, (tidDigit (letterByte digit)).map Fin.val = some digit := by decide
  rcases Option.map_eq_some_iff.mp (known digit small) with ⟨value, value_eq, rfl⟩
  exact ⟨value.isLt, value_eq⟩

theorem eq_letterByte_of_tidDigit {b : UInt8} {digit : U64} (known : tidDigit b = some digit) :
    digit.val < 32 ∧ b = letterByte digit.val := by
  have low : ∀ digit < 6, letterByte digit = UInt8.ofNat (0x32 + digit) := by decide
  have high : ∀ digit < 26, letterByte (digit + 6) = UInt8.ofNat (0x61 + digit) := by decide
  unfold tidDigit at known
  split at known
  · next range =>
      rw [UInt8.le_iff_toNat_le, UInt8.le_iff_toNat_le] at range
      have least : (0x32 : UInt8).toNat = 0x32 := rfl
      have greatest : (0x37 : UInt8).toNat = 0x37 := rfl
      have offset : digit.val = b.toNat - 0x32 := by
        rw [← Option.some.inj known]
        exact UInt8.toNat_sub_of_le _ _ (UInt8.le_iff_toNat_le.mpr range.1)
      have small : digit.val < 6 := by omega
      refine ⟨by omega, ?_⟩
      rw [low _ small, offset, Nat.add_sub_cancel' (by omega), UInt8.ofNat_toNat]
  · split at known
    · next range =>
        rw [UInt8.le_iff_toNat_le, UInt8.le_iff_toNat_le] at range
        have least : (0x61 : UInt8).toNat = 0x61 := rfl
        have greatest : (0x7A : UInt8).toNat = 0x7A := rfl
        have offset : digit.val = b.toNat - 0x61 + 6 := by
          rw [← Option.some.inj known]
          change ((b - 0x61).toNat + 6) % 2 ^ 64 = _
          rw [UInt8.toNat_sub_of_le _ _ (UInt8.le_iff_toNat_le.mpr range.1)]
          omega
        have small : b.toNat - 0x61 < 26 := by omega
        refine ⟨by omega, ?_⟩
        rw [offset, high _ small, Nat.add_sub_cancel' (by omega), UInt8.ofNat_toNat]
    · cases known

/-- The text with the given digits. -/
def word (ds : List Nat) : String := String.ofList (ds.map letter)

theorem bytes_word {ds : List Nat} (small : ∀ digit ∈ ds, digit < 32) :
    Text.bytes (word ds) = ds.map letterByte := by
  rw [Text.bytes, word, String.toList_ofList]
  induction ds with
  | nil => rfl
  | cons digit ds ih =>
      rw [List.map_cons, List.flatMap_cons, utf8EncodeChar_letter (small digit List.mem_cons_self),
        ih fun other mem => small other (List.mem_cons_of_mem digit mem)]
      rfl

theorem word_lt_word {first second : List Nat} (secondSmall : ∀ digit ∈ second, digit < 32)
    (less : first < second) : word first < word second := by
  rw [String.lt_iff, word, word, String.toList_ofList, String.toList_ofList]
  exact map_lt_map letter_lt_letter secondSmall less

/-! ## The encoder -/

theorem encodeLoop_eq (positions : Nat) (val : U64) (written : List Char) :
    encodeLoop positions val written = (digits 32 positions val.val).map letter ++ written := by
  induction positions generalizing val written with
  | zero => rfl
  | succ positions ih =>
      have shifted : (val >>> 5).val = val.val / 32 := by
        change (val.val >>> 5) % 2 ^ 64 = _
        rw [Nat.shiftRight_eq_div_pow, Nat.mod_eq_of_lt (by have := val.isLt; omega)]
      have masked : (val &&& 0x1f).val = val.val % 32 := by
        change (val.val &&& 0x1f) % 2 ^ 64 = _
        rw [Nat.and_two_pow_sub_one_eq_mod val.val 5, Nat.mod_eq_of_lt (by omega)]
      rw [encodeLoop, ih, shifted, masked, digits, List.map_append, List.append_assoc]
      rfl

theorem encodeTidBase32_eq (val : U64) : encodeTidBase32 val = word (digits 32 13 val.val) := by
  rw [encodeTidBase32, encodeLoop_eq, List.append_nil, word]

/-- The encoding keeps the order. -/
theorem encodeTidBase32_lt {first second : U64} (less : first < second) :
    encodeTidBase32 first < encodeTidBase32 second := by
  have bound : second.val < 32 ^ 13 := second.isLt.trans (by decide)
  rw [encodeTidBase32_eq, encodeTidBase32_eq]
  exact word_lt_word (digits_lt (by decide) 13 second.val) (digits_lt_digits (by decide) less bound)

/-! ## The decoder -/

/-- `(val << 5) | digit` drops the bits beyond the 64th. -/
theorem val_shiftIn (val : U64) {digit : U64} (small : digit.val < 32) :
    ((val <<< 5) ||| digit).val = (val.val * 32 + digit.val) % 2 ^ 64 := by
  have shifted : (val.val <<< 5) % 2 ^ 64 = 2 ^ 5 * (val.val % 2 ^ 59) := by
    rw [Nat.shiftLeft_eq]
    omega
  change ((val.val <<< 5) % 2 ^ 64 ||| digit.val) % 2 ^ 64 = _
  rw [shifted, ← Nat.two_pow_add_eq_or_of_lt small]
  omega

/-- The loop accepts the bytes of digits and computes their value modulo the
size of the accumulator. -/
theorem decodeLoop_eq_some_iff (val result : U64) (bytes : List UInt8) :
    decodeLoop val bytes = some result ↔
      ∃ ds, (∀ digit ∈ ds, digit < 32) ∧ bytes = ds.map letterByte ∧
        result.val = valueFrom 32 val.val ds % 2 ^ 64 := by
  induction bytes generalizing val with
  | nil =>
      constructor
      · intro done
        cases done
        exact ⟨[], by simp, rfl, (Nat.mod_eq_of_lt (Fin.isLt _)).symm⟩
      · rintro ⟨ds, _, bytes_eq, result_eq⟩
        have empty : ds = [] := List.map_eq_nil_iff.mp bytes_eq.symm
        rw [empty, valueFrom_nil, Nat.mod_eq_of_lt val.isLt] at result_eq
        rw [decodeLoop, Fin.ext result_eq]
  | cons b bytes ih =>
      rw [decodeLoop]
      constructor
      · intro decoded
        cases known : tidDigit b with
        | none =>
            rw [known] at decoded
            cases decoded
        | some digit =>
            rw [known] at decoded
            rcases eq_letterByte_of_tidDigit known with ⟨small, rfl⟩
            rcases (ih _).mp decoded with ⟨ds, smalls, rfl, result_eq⟩
            rw [val_shiftIn val small, valueFrom_mod] at result_eq
            exact ⟨digit.val :: ds, List.forall_mem_cons.mpr ⟨small, smalls⟩, rfl, result_eq⟩
      · rintro ⟨ds, smalls, bytes_eq, result_eq⟩
        cases ds with
        | nil => cases bytes_eq
        | cons digit ds =>
            rw [List.forall_mem_cons] at smalls
            obtain ⟨rfl, rfl⟩ := List.cons.inj bytes_eq
            rcases tidDigit_letterByte smalls.1 with ⟨bound, known⟩
            rw [known]
            apply (ih _).mpr
            refine ⟨ds, smalls.2, rfl, ?_⟩
            rw [val_shiftIn val smalls.1, valueFrom_mod]
            exact result_eq

/-- What the decoder accumulates: the value of thirteen digits, modulo the size
of the accumulator. -/
theorem tidValue_eq_some_iff (tid : String) (val : U64) :
    tidValue tid = some val ↔
      ∃ ds, ds.length = 13 ∧ (∀ digit ∈ ds, digit < 32) ∧ tid = word ds ∧
        val.val = value 32 ds % 2 ^ 64 := by
  unfold tidValue
  constructor
  · intro decoded
    split at decoded
    · cases decoded
    · next length =>
        rw [not_not, Text.len] at length
        rcases (decodeLoop_eq_some_iff _ _ _).mp decoded with ⟨ds, small, bytes_eq, val_eq⟩
        have tid_eq : tid = word ds := Text.bytes_injective (bytes_eq.trans (bytes_word small).symm)
        rw [bytes_eq, List.length_map] at length
        exact ⟨ds, length, small, tid_eq, val_eq⟩
  · rintro ⟨ds, length, small, rfl, val_eq⟩
    have len_eq : Text.len (word ds) = 13 := by
      rw [Text.len, bytes_word small, List.length_map, length]
    rw [if_neg (not_not.mpr len_eq)]
    exact (decodeLoop_eq_some_iff _ _ _).mpr ⟨ds, small, bytes_word small, val_eq⟩

/-- The decoder accepts the texts of thirteen digits whose value, modulo the
size of the accumulator, has the reserved bit clear. -/
theorem decodeTidTimestampUs_eq_some_iff (tid : String) (timestamp : U64) :
    decodeTidTimestampUs tid = some timestamp ↔
      ∃ val, tidValue tid = some val ∧ val.val < 2 ^ 63 ∧ val >>> 10 = timestamp := by
  have reserved : ∀ val : U64, val >>> 63 ≠ 0 ↔ ¬ val.val < 2 ^ 63 := by
    intro val
    have shifted : (val >>> 63).val = val.val / 2 ^ 63 := by
      change (val.val >>> 63) % 2 ^ 64 = _
      rw [Nat.shiftRight_eq_div_pow, Nat.mod_eq_of_lt (by have := val.isLt; omega)]
    rw [Ne, Fin.ext_iff, shifted]
    change ¬ val.val / 2 ^ 63 = 0 ↔ _
    rw [Nat.div_eq_zero_iff_lt (by decide)]
  unfold decodeTidTimestampUs
  cases tidValue tid with
  | none => simp
  | some val => simp only [reserved, Option.some.injEq, exists_eq_left', ite_not,
      Option.ite_none_right_eq_some]

/-! ## The image of the encoder -/

theorem word_injective {first second : List Nat} (firstSmall : ∀ digit ∈ first, digit < 32)
    (secondSmall : ∀ digit ∈ second, digit < 32) (same : word first = word second) :
    first = second := by
  rcases lt_trichotomy first second with less | equal | greater
  · exact absurd (same ▸ word_lt_word secondSmall less) (String.lt_irrefl _)
  · exact equal
  · exact absurd (same ▸ word_lt_word firstSmall greater) (String.lt_irrefl _)

theorem value_digits_val (val : U64) : value 32 (digits 32 13 val.val) = val.val := by
  rw [value_digits, Nat.mod_eq_of_lt (val.isLt.trans (by decide))]

/-- The decoder reads the encoded value back. -/
theorem tidValue_encodeTidBase32 (val : U64) : tidValue (encodeTidBase32 val) = some val := by
  rw [tidValue_eq_some_iff, encodeTidBase32_eq]
  refine ⟨digits 32 13 val.val, length_digits 13 _, digits_lt (by decide) 13 _, rfl, ?_⟩
  rw [value_digits_val, Nat.mod_eq_of_lt val.isLt]

theorem decodeTidTimestampUs_encodeTidBase32 {val : U64} (clear : val.val < 2 ^ 63) :
    decodeTidTimestampUs (encodeTidBase32 val) = some (val >>> 10) :=
  (decodeTidTimestampUs_eq_some_iff _ _).mpr ⟨val, tidValue_encodeTidBase32 val, clear, rfl⟩

theorem length_encodeTidBase32 (val : U64) : (encodeTidBase32 val).length = 13 := by
  rw [encodeTidBase32_eq, word, String.length_ofList, List.length_map, length_digits]

/-- Thirteen characters of the alphabet, the first of them from `k` to `r`: of
the 65 bits of such a text, the highest is set and the reserved one clear. -/
def Wraps (tid : String) : Prop :=
  ∃ first rest, tid.toList = first :: rest ∧ 'k' ≤ first ∧ first ≤ 'r' ∧ rest.length = 12 ∧
    ∀ c ∈ first :: rest, c ∈ base32Chars

/-- The characters of the alphabet are the letters of digits. -/
theorem exists_map_letter {chars : List Char} (known : ∀ c ∈ chars, c ∈ base32Chars) :
    ∃ ds : List Nat, (∀ digit ∈ ds, digit < 32) ∧ chars = ds.map letter := by
  induction chars with
  | nil => exact ⟨[], by simp, rfl⟩
  | cons c chars ih =>
      rw [List.forall_mem_cons] at known
      rcases List.mem_iff_getElem.mp known.1 with ⟨digit, bound, c_eq⟩
      rcases ih known.2 with ⟨ds, small, chars_eq⟩
      have letter_eq : letter digit = c := by
        rw [letter, List.getD_eq_getElem _ _ bound, c_eq]
      exact ⟨digit :: ds, List.forall_mem_cons.mpr ⟨bound, small⟩, by
        rw [chars_eq, List.map_cons, letter_eq]⟩

theorem letter_mem {digit : Nat} (small : digit < 32) : letter digit ∈ base32Chars := by
  rw [letter, List.getD_eq_getElem _ _ small]
  exact List.getElem_mem small

/-- In terms of its digits, a text wraps if its value lies between the loss of
the highest bit and the next number with the reserved bit. -/
theorem wraps_iff (tid : String) :
    Wraps tid ↔
      ∃ ds, ds.length = 13 ∧ (∀ digit ∈ ds, digit < 32) ∧ tid = word ds ∧
        2 ^ 64 ≤ value 32 ds ∧ value 32 ds < 2 ^ 64 + 2 ^ 63 := by
  have range : ∀ digit < 32, 'k' ≤ letter digit ∧ letter digit ≤ 'r' ↔ 16 ≤ digit ∧ digit < 24 := by
    decide
  have top : ∀ digit ds, List.length ds = 12 → (∀ low ∈ ds, low < 32) →
      (2 ^ 64 ≤ value 32 (digit :: ds) ∧ value 32 (digit :: ds) < 2 ^ 64 + 2 ^ 63 ↔
        16 ≤ digit ∧ digit < 24) := by
    intro digit ds length small
    have bound := value_lt small
    rw [value_cons, length]
    rw [length] at bound
    omega
  constructor
  · rintro ⟨first, rest, tid_eq, least, greatest, length, known⟩
    rcases exists_map_letter known with ⟨ds, small, chars_eq⟩
    cases ds with
    | nil => cases chars_eq
    | cons digit ds =>
        obtain ⟨rfl, rfl⟩ := List.cons.inj chars_eq
        rw [List.length_map] at length
        have high := (range digit (small digit List.mem_cons_self)).mp ⟨least, greatest⟩
        refine ⟨digit :: ds, by rw [List.length_cons, length], small, ?_, ?_⟩
        · rw [← String.toList_inj, tid_eq, word, String.toList_ofList, List.map_cons]
        · exact (top digit ds length (List.forall_mem_cons.mp small).2).mpr high
  · rintro ⟨ds, length, small, rfl, high⟩
    cases ds with
    | nil => cases length
    | cons digit ds =>
        have tailLength : ds.length = 12 := Nat.succ.inj length
        have tailSmall := (List.forall_mem_cons.mp small).2
        have digitRange := (top digit ds tailLength tailSmall).mp high
        have ends := (range digit (small digit List.mem_cons_self)).mpr digitRange
        refine ⟨letter digit, ds.map letter, ?_, ends.1, ends.2, ?_, ?_⟩
        · rw [word, String.toList_ofList, List.map_cons]
        · rw [List.length_map, tailLength]
        · intro c mem
          rw [← List.map_cons] at mem
          rcases List.mem_map.mp mem with ⟨low, lowMem, rfl⟩
          exact letter_mem (small low lowMem)

/-- No text that wraps is an encoding. -/
theorem encodeTidBase32_ne_of_wraps {tid : String} (wraps : Wraps tid) (val : U64) :
    encodeTidBase32 val ≠ tid := by
  intro encoded
  rcases (wraps_iff tid).mp wraps with ⟨ds, _, small, rfl, lost, _⟩
  rw [encodeTidBase32_eq] at encoded
  rw [← word_injective (digits_lt (by decide) 13 _) small encoded, value_digits_val] at lost
  exact absurd val.isLt (not_lt.mpr lost)

/-- The decoder accepts every text that wraps. -/
theorem decodes_of_wraps {tid : String} (wraps : Wraps tid) :
    ∃ timestamp, decodeTidTimestampUs tid = some timestamp := by
  rcases (wraps_iff tid).mp wraps with ⟨ds, length, small, tid_eq, lost, clear⟩
  have read : tidValue tid = some ⟨value 32 ds % 2 ^ 64, Nat.mod_lt _ (by decide)⟩ :=
    (tidValue_eq_some_iff _ _).mpr ⟨ds, length, small, tid_eq, rfl⟩
  refine ⟨_, (decodeTidTimestampUs_eq_some_iff _ _).mpr ⟨_, read, ?_, rfl⟩⟩
  change value 32 ds % 2 ^ 64 < 2 ^ 63
  omega

/-- A text that the decoder accepts has the value it reads, or `2 ^ 64` more if
it wraps. -/
theorem value_of_tidValue {tid : String} {val : U64} (read : tidValue tid = some val)
    (clear : val.val < 2 ^ 63) :
    ∃ ds, ds.length = 13 ∧ (∀ digit ∈ ds, digit < 32) ∧ tid = word ds ∧
      (Wraps tid → value 32 ds = val.val + 2 ^ 64) ∧ (¬ Wraps tid → value 32 ds = val.val) := by
  rcases (tidValue_eq_some_iff _ _).mp read with ⟨ds, length, small, tid_eq, val_eq⟩
  have bound := value_lt small
  rw [length] at bound
  refine ⟨ds, length, small, tid_eq, ?_, ?_⟩
  · intro wraps
    rcases (wraps_iff tid).mp wraps with ⟨others, _, othersSmall, tid_others, lower, upper⟩
    rw [word_injective othersSmall small (tid_others.symm.trans tid_eq)] at lower upper
    omega
  · intro regular
    have unlost : value 32 ds < 2 ^ 64 := by
      by_contra lost
      apply regular
      exact (wraps_iff tid).mpr ⟨ds, length, small, tid_eq, by omega, by omega⟩
    omega

/-- Every other text that the decoder accepts encodes the value it reads. -/
theorem encodeTidBase32_of_tidValue {tid : String} {val : U64} (read : tidValue tid = some val)
    (clear : val.val < 2 ^ 63) (regular : ¬ Wraps tid) : encodeTidBase32 val = tid := by
  rcases value_of_tidValue read clear with ⟨ds, length, small, tid_eq, _, unwrapped⟩
  rw [encodeTidBase32_eq, ← unwrapped regular, tid_eq, ← length, digits_value small]

/-- Two texts accepted as one value are the same if both or neither wraps. -/
theorem eq_iff_of_tidValue {first second : String} {val : U64} (clear : val.val < 2 ^ 63)
    (firstRead : tidValue first = some val) (secondRead : tidValue second = some val) :
    first = second ↔ (Wraps first ↔ Wraps second) := by
  constructor
  · rintro rfl
    exact Iff.rfl
  · intro alike
    rcases value_of_tidValue firstRead clear with
      ⟨ds, length, small, first_eq, firstWrapped, firstRegular⟩
    rcases value_of_tidValue secondRead clear with
      ⟨others, othersLength, othersSmall, second_eq, secondWrapped, secondRegular⟩
    have same : value 32 ds = value 32 others := by
      by_cases wraps : Wraps first
      · rw [firstWrapped wraps, secondWrapped (alike.mp wraps)]
      · rw [firstRegular wraps, secondRegular (fun other => wraps (alike.mpr other))]
    rw [first_eq, second_eq, ← digits_value small, ← digits_value othersSmall, same, length,
      othersLength]

/-- The encoder keeps the order.  The decoder accepts a text exactly as the
encoding of a value with a clear reserved bit, with its timestamp, if the text
does not wrap.  Another text that is accepted as the same value differs from it
exactly if one of them wraps; and a text of thirteen digits with the reserved
bit or a higher one set is rejected, again exactly if it does not wrap. -/
theorem decodeTidTimestampUs_exact (tid : String) :
    (∀ first second, first < second → encodeTidBase32 first < encodeTidBase32 second) ∧
      ((∀ timestamp, decodeTidTimestampUs tid = some timestamp ↔
            ∃ val : U64, val.val < 2 ^ 63 ∧ encodeTidBase32 val = tid ∧ val >>> 10 = timestamp) ↔
          ¬ Wraps tid) ∧
      (∀ other val, val.val < 2 ^ 63 → tidValue tid = some val → tidValue other = some val →
        (tid = other ↔ (Wraps tid ↔ Wraps other))) ∧
      ∀ ds, ds.length = 13 → (∀ digit ∈ ds, digit < 32) → 2 ^ 63 ≤ value 32 ds → tid = word ds →
        (decodeTidTimestampUs tid = none ↔ ¬ Wraps tid) := by
  refine ⟨fun _ _ => encodeTidBase32_lt, ?_, ?_, ?_⟩
  · constructor
    · intro exact wraps
      rcases decodes_of_wraps wraps with ⟨timestamp, decoded⟩
      rcases (exact timestamp).mp decoded with ⟨val, _, encoded, _⟩
      exact encodeTidBase32_ne_of_wraps wraps val encoded
    · intro regular timestamp
      constructor
      · intro decoded
        rcases (decodeTidTimestampUs_eq_some_iff _ _).mp decoded with ⟨val, read, clear, shifted⟩
        exact ⟨val, clear, encodeTidBase32_of_tidValue read clear regular, shifted⟩
      · rintro ⟨val, clear, rfl, rfl⟩
        exact decodeTidTimestampUs_encodeTidBase32 clear
  · intro other val clear read otherRead
    exact eq_iff_of_tidValue clear read otherRead
  · rintro ds _ small large tid_eq
    constructor
    · intro rejected wraps
      rcases decodes_of_wraps wraps with ⟨timestamp, decoded⟩
      rw [rejected] at decoded
      cases decoded
    · intro regular
      rw [Option.eq_none_iff_forall_ne_some]
      intro timestamp decoded
      rcases (decodeTidTimestampUs_eq_some_iff _ _).mp decoded with ⟨val, read, clear, _⟩
      rcases value_of_tidValue read clear with ⟨others, _, othersSmall, tid_others, _, unwrapped⟩
      rw [word_injective small othersSmall (tid_eq.symm.trans tid_others), unwrapped regular]
        at large
      omega

/-- The text of `2 ^ 64` is accepted as zero, though no value is encoded so. -/
theorem decodeTidTimestampUs_wrapped :
    decodeTidTimestampUs "k222222222222" = some 0 ∧
      ¬ ∃ val : U64, val.val < 2 ^ 63 ∧ encodeTidBase32 val = "k222222222222" ∧ val >>> 10 = 0 := by
  constructor
  · decide
  · rintro ⟨val, _, encoded, _⟩
    have known : ('k' :: "222222222222".toList).all base32Chars.contains = true := by decide
    have wraps : Wraps "k222222222222" :=
      ⟨'k', "222222222222".toList, by decide, by decide, by decide, by decide,
        fun c mem => List.contains_iff_mem.mp (List.all_eq_true.mp known c mem)⟩
    exact encodeTidBase32_ne_of_wraps wraps val encoded

end Skybase.Repo
