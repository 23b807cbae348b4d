import Skybase.Error
import Skybase.Json.Shape

/-!
# JSON texts

A writer of trees as compact JSON texts and the reader of these texts, which
stops at the recursion limit of `serde_json`.  The reader gives back the tree
that was written, if the limit allows it.  Two details are simplified: doubles
are written by their bits, and control characters stand for themselves.
-/

namespace Skybase.Json.Compact

/-! ## Writer -/

/-- A character of a string. -/
def escape (c : Char) : List Char := if c = '"' ∨ c = '\\' then ['\\', c] else [c]

def writeString (text : String) : List Char := '"' :: text.toList.flatMap escape ++ ['"']

def writeNumber : Number → List Char
  | .posInt value => Nat.toDigits 10 value.val
  | .negInt magnitude => '-' :: Nat.toDigits 10 (magnitude.val + 1)
  | .float bits => Nat.toDigits 10 bits.val ++ ['e', '0']

mutual
/-- The text of a tree. -/
def write : Value → List Char
  | .null => ['n', 'u', 'l', 'l']
  | .bool true => ['t', 'r', 'u', 'e']
  | .bool false => ['f', 'a', 'l', 's', 'e']
  | .number value => writeNumber value
  | .string text => writeString text
  | .array [] => ['[', ']']
  | .array (element :: elements) => '[' :: write element ++ writeElements elements
  | .object [] => ['\x7b', '\x7d']
  | .object ((key, value) :: members) =>
      '\x7b' :: writeString key ++ ':' :: write value ++ writeMembers members

/-- What follows an element of an array. -/
def writeElements : List Value → List Char
  | [] => [']']
  | element :: elements => ',' :: write element ++ writeElements elements

/-- What follows a member of an object. -/
def writeMembers : List (String × Value) → List Char
  | [] => ['\x7d']
  | (key, value) :: members => ',' :: writeString key ++ ':' :: write value ++ writeMembers members
end

/-! ## Reader -/

def limitError : String := "recursion limit exceeded"

/-- The rest of a string, and what follows it. -/
def readString : List Char → Except String (List Char × List Char)
  | [] => .error "EOF while parsing a string"
  | '"' :: rest => .ok ([], rest)
  | '\\' :: c :: rest =>
      if c = '"' ∨ c = '\\' then (readString rest).map fun (text, rest) => (c :: text, rest)
      else .error "invalid escape"
  | c :: rest => (readString rest).map fun (text, rest) => (c :: text, rest)

/-- The digits in front, and what follows them. -/
def readDigits (chars : List Char) : Nat × List Char :=
  (Nat.ofDigitChars 10 (chars.takeWhile Char.isDigit) 0, chars.dropWhile Char.isDigit)

/-- A number that is not negative. -/
def readNumber (chars : List Char) : Except String (Value × List Char) :=
  let (value, rest) := readDigits chars
  if bound : value < 2 ^ 64 then
    match rest with
    | 'e' :: '0' :: rest => .ok (.number (.float ⟨value, bound⟩), rest)
    | rest => .ok (.number (.posInt ⟨value, bound⟩), rest)
  else .error "number out of range"

/-- A number behind its minus sign. -/
def readNegative (chars : List Char) : Except String (Value × List Char) :=
  let (value, rest) := readDigits chars
  if bound : 0 < value ∧ value - 1 < 2 ^ 63 then .ok (.number (.negInt ⟨value - 1, bound.2⟩), rest)
  else .error "number out of range"

/-- A literal. -/
def readLiteral : List Char → Except String (Value × List Char)
  | 'n' :: 'u' :: 'l' :: 'l' :: rest => .ok (.null, rest)
  | 't' :: 'r' :: 'u' :: 'e' :: rest => .ok (.bool true, rest)
  | 'f' :: 'a' :: 'l' :: 's' :: 'e' :: rest => .ok (.bool false, rest)
  | _ => .error "expected value"

/-- A character that must follow. -/
def expect (c : Char) : List Char → Except String (List Char)
  | other :: rest => if other = c then .ok rest else .error "expected another character"
  | [] => .error "EOF while parsing"

mutual
/-- A tree in front of a text, and what follows it.  The fuel bounds the calls
and the budget the depth. -/
def readValue : Nat → Nat → List Char → Except String (Value × List Char)
  | 0, _, _ => .error "out of fuel"
  | _ + 1, _, [] => .error "EOF while parsing a value"
  | fuel + 1, budget, c :: rest =>
      if c = '"' then (readString rest).map fun (text, rest) => (.string (String.ofList text), rest)
      else if c = '[' then
        match budget with
        | 0 => .error limitError
        | budget + 1 =>
            if rest.head? = some ']' then .ok (.array [], rest.tail)
            else do
              let (element, rest) ← readValue fuel budget rest
              let (elements, rest) ← readElements fuel budget rest
              pure (.array (element :: elements), rest)
      else if c = '\x7b' then
        match budget with
        | 0 => .error limitError
        | budget + 1 =>
            if rest.head? = some '\x7d' then .ok (.object [], rest.tail)
            else do
              let (member, rest) ← readMember fuel budget rest
              let (members, rest) ← readMembers fuel budget rest
              pure (.object (member :: members), rest)
      else if c = '-' then readNegative rest
      else if c.isDigit then readNumber (c :: rest)
      else readLiteral (c :: rest)
termination_by structural fuel _ _ => fuel

/-- What follows an element of an array. -/
def readElements : Nat → Nat → List Char → Except String (List Value × List Char)
  | 0, _, _ => .error "out of fuel"
  | _ + 1, _, [] => .error "EOF while parsing a list"
  | fuel + 1, budget, c :: rest =>
      if c = ']' then .ok ([], rest)
      else if c = ',' then do
        let (element, rest) ← readValue fuel budget rest
        let (elements, rest) ← readElements fuel budget rest
        pure (element :: elements, rest)
      else .error "expected a comma or a bracket"

/-- A member of an object. -/
def readMember : Nat → Nat → List Char → Except String ((String × Value) × List Char)
  | 0, _, _ => .error "out of fuel"
  | fuel + 1, budget, chars => do
      let rest ← expect '"' chars
      let (key, rest) ← readString rest
      let rest ← expect ':' rest
      let (value, rest) ← readValue fuel budget rest
      pure ((String.ofList key, value), rest)

/-- What follows a member of an object. -/
def readMembers : Nat → Nat → List Char → Except String (List (String × Value) × List Char)
  | 0, _, _ => .error "out of fuel"
  | _ + 1, _, [] => .error "EOF while parsing an object"
  | fuel + 1, budget, c :: rest =>
      if c = '\x7d' then .ok ([], rest)
      else if c = ',' then do
        let (member, rest) ← readMember fuel budget rest
        let (members, rest) ← readMembers fuel budget rest
        pure (member :: members, rest)
      else .error "expected a comma or a brace"
end

/-- The tree of a text. -/
def read (text : String) : Except String Value :=
  match readValue text.toList.length 127 text.toList with
  | .error err => .error err
  | .ok (value, []) => .ok value
  | .ok _ => .error "trailing characters"

/-! ## Strings and numbers -/

theorem readString_escape (c : Char) (rest : List Char) :
    readString (escape c ++ rest) =
      (readString rest).map fun (text, rest) => (c :: text, rest) := by
  by_cases special : c = '"' ∨ c = '\\'
  · rw [escape, if_pos special, List.cons_append, List.singleton_append, readString, if_pos special]
  · rw [escape, if_neg special, List.singleton_append]
    rw [not_or] at special
    rw [readString.eq_4 _ _ special.1 (fun _ _ absurd _ => special.2 absurd)]

theorem readString_flatMap (chars rest : List Char) :
    readString (chars.flatMap escape ++ '"' :: rest) = .ok (chars, rest) := by
  induction chars with
  | nil => rfl
  | cons c chars ih =>
      rw [List.flatMap_cons, List.append_assoc, readString_escape, ih]
      rfl

/-- What may follow a value. -/
def Ends (rest : List Char) : Prop := ∀ c ∈ rest.head?, c = ',' ∨ c = ']' ∨ c = '\x7d'

theorem ends_nil : Ends [] := by
  rintro c ⟨⟩

theorem ends_cons {c : Char} (ends : c = ',' ∨ c = ']' ∨ c = '\x7d') (rest : List Char) :
    Ends (c :: rest) := by
  rintro other ⟨⟩
  exact ends

theorem readDigits_toDigits (value : Nat) {rest : List Char}
    (ends : ∀ c ∈ rest.head?, c.isDigit = false) :
    readDigits (Nat.toDigits 10 value ++ rest) = (value, rest) := by
  have digits : ∀ c ∈ Nat.toDigits 10 value, c.isDigit = true := fun c mem =>
    Nat.isDigit_of_mem_toDigits (by decide) (by decide) mem
  have none : rest.takeWhile Char.isDigit = [] ∧ rest.dropWhile Char.isDigit = rest := by
    cases rest with
    | nil => exact ⟨rfl, rfl⟩
    | cons c rest =>
        have other := ends c rfl
        exact ⟨List.takeWhile_cons_of_neg (by simp [other]),
          List.dropWhile_cons_of_neg (by simp [other])⟩
  rw [readDigits, List.takeWhile_append_of_pos digits, List.dropWhile_append_of_pos digits, none.1,
    none.2, List.append_nil, Nat.ofDigitChars_ten_toDigits]

theorem Ends.not_isDigit {rest : List Char} (ends : Ends rest) :
    ∀ c ∈ rest.head?, c.isDigit = false := by
  intro c mem
  rcases ends c mem with rfl | rfl | rfl
  · decide
  · decide
  · decide

theorem readNumber_posInt (value : U64) {rest : List Char} (ends : Ends rest) :
    readNumber (writeNumber (.posInt value) ++ rest) = .ok (.number (.posInt value), rest) := by
  rw [readNumber, writeNumber, readDigits_toDigits value.val ends.not_isDigit]
  simp only
  rw [dif_pos value.isLt]
  split
  · next absurd =>
      rcases ends 'e' rfl with other | other | other
      · cases other
      · cases other
      · cases other
  · rfl

theorem readNumber_float (bits : U64) (rest : List Char) :
    readNumber (writeNumber (.float bits) ++ rest) = .ok (.number (.float bits), rest) := by
  have ends : ∀ c ∈ (['e', '0'] ++ rest).head?, c.isDigit = false := by
    rintro c ⟨⟩
    decide
  rw [readNumber, writeNumber, List.append_assoc, readDigits_toDigits bits.val ends]
  simp only
  rw [dif_pos bits.isLt]
  rfl

theorem readNegative_negInt (magnitude : Fin (2 ^ 63)) {rest : List Char} (ends : Ends rest) :
    readNegative (Nat.toDigits 10 (magnitude.val + 1) ++ rest) =
      .ok (.number (.negInt magnitude), rest) := by
  rw [readNegative, readDigits_toDigits _ ends.not_isDigit]
  simp only
  rw [dif_pos ⟨Nat.succ_pos _, magnitude.isLt⟩]
  rfl

/-! ## Trees -/

mutual
/-- The fuel that reading a written tree takes. -/
def size : Value → Nat
  | .array (element :: elements) => size element + sizeOfElements elements + 1
  | .object ((_, value) :: members) => size value + sizeOfMembers members + 2
  | _ => 1

def sizeOfElements : List Value → Nat
  | [] => 1
  | element :: elements => size element + sizeOfElements elements + 1

def sizeOfMembers : List (String × Value) → Nat
  | [] => 1
  | (_, value) :: members => size value + sizeOfMembers members + 2
end

/-- A digit begins a number. -/
theorem readValue_of_isDigit (fuel budget : Nat) {c : Char} (digit : c.isDigit = true)
    (rest : List Char) : readValue (fuel + 1) budget (c :: rest) = readNumber (c :: rest) := by
  have other : ∀ special : Char, special.isDigit = false → c ≠ special := by
    rintro special notDigit rfl
    rw [digit] at notDigit
    cases notDigit
  rw [readValue.eq_def]
  simp only [other '"' (by decide), other '[' (by decide), other '\x7b' (by decide),
    other '-' (by decide), digit, if_false, if_true]

theorem readValue_digits (fuel budget value : Nat) (rest : List Char) :
    readValue (fuel + 1) budget (Nat.toDigits 10 value ++ rest) =
      readNumber (Nat.toDigits 10 value ++ rest) := by
  have digits : ∀ c ∈ Nat.toDigits 10 value, c.isDigit = true := fun c mem =>
    Nat.isDigit_of_mem_toDigits (by decide) (by decide) mem
  cases text : Nat.toDigits 10 value with
  | nil => exact absurd text Nat.toDigits_ne_nil
  | cons first others =>
      exact readValue_of_isDigit fuel budget (digits first (text ▸ List.mem_cons_self)) _

theorem readValue_writeNumber (fuel budget : Nat) (value : Number) {rest : List Char}
    (ends : Ends rest) :
    readValue (fuel + 1) budget (writeNumber value ++ rest) = .ok (.number value, rest) := by
  cases value with
  | posInt value =>
      rw [← readNumber_posInt value ends]
      exact readValue_digits fuel budget value.val rest
  | negInt magnitude =>
      rw [← readNegative_negInt magnitude ends]
      rfl
  | float bits =>
      rw [← readNumber_float bits rest, writeNumber, List.append_assoc]
      exact readValue_digits fuel budget bits.val _

/-- No text of a tree looks like the end of an array. -/
theorem head?_write (value : Value) (rest : List Char) :
    (write value ++ rest).head? ≠ some ']' := by
  have digits : ∀ number tail, (Nat.toDigits 10 number ++ tail).head? ≠ some ']' := by
    intro number tail
    cases text : Nat.toDigits 10 number with
    | nil => exact absurd text Nat.toDigits_ne_nil
    | cons first others =>
        have digit : first.isDigit = true := Nat.isDigit_of_mem_toDigits (by decide) (by decide)
          (text ▸ List.mem_cons_self : first ∈ Nat.toDigits 10 number)
        rintro ⟨⟩
        exact absurd digit (by decide)
  cases value with
  | null => exact fun absurd => by cases absurd
  | bool value => cases value <;> exact fun absurd => by cases absurd
  | number value =>
      cases value with
      | posInt value => exact digits value.val rest
      | negInt magnitude => exact fun absurd => by cases absurd
      | float bits =>
          rw [write, writeNumber, List.append_assoc]
          exact digits bits.val _
  | string text => exact fun absurd => by cases absurd
  | array elements => cases elements <;> exact fun absurd => by cases absurd
  | object members => cases members <;> exact fun absurd => by cases absurd

theorem size_pos (value : Value) : 0 < size value := by
  cases value with
  | array elements => cases elements <;> simp [size]
  | object members => rcases members with _ | ⟨⟨key, value⟩, members⟩ <;> simp [size]
  | _ => simp [size]

theorem ends_writeElements (elements : List Value) (rest : List Char) :
    Ends (writeElements elements ++ rest) := by
  cases elements with
  | nil => exact ends_cons (Or.inr (Or.inl rfl)) _
  | cons element elements => exact ends_cons (Or.inl rfl) _

theorem ends_writeMembers (members : List (String × Value)) (rest : List Char) :
    Ends (writeMembers members ++ rest) := by
  cases members with
  | nil => exact ends_cons (Or.inr (Or.inr rfl)) _
  | cons member members => exact ends_cons (Or.inl rfl) _

theorem readString_writeString (text : String) (rest : List Char) :
    (writeString text ++ rest).head? = some '"' ∧
      readString (writeString text ++ rest).tail = .ok (text.toList, rest) := by
  constructor
  · rfl
  · rw [writeString, List.append_assoc, List.cons_append, List.tail_cons, List.singleton_append]
    exact readString_flatMap text.toList rest

/-- An array that is not empty. -/
theorem readValue_array (fuel budget : Nat) {chars : List Char} (more : chars.head? ≠ some ']') :
    readValue (fuel + 1) (budget + 1) ('[' :: chars) =
      (do
        let (element, rest) ← readValue fuel budget chars
        let (elements, rest) ← readElements fuel budget rest
        pure (.array (element :: elements), rest)) := by
  rw [readValue.eq_def]
  simp only [more, if_false, if_true]
  rfl

/-- An object that is not empty. -/
theorem readValue_object (fuel budget : Nat) {chars : List Char}
    (more : chars.head? ≠ some '\x7d') :
    readValue (fuel + 1) (budget + 1) ('\x7b' :: chars) =
      (do
        let (member, rest) ← readMember fuel budget chars
        let (members, rest) ← readMembers fuel budget rest
        pure (.object (member :: members), rest)) := by
  rw [readValue.eq_def]
  simp only [more, if_false, if_true]
  rfl

/-- Two readings within one budget. -/
theorem limited_bind {α β : Type} {first second budget : Nat} {value : α} {result : β}
    {next : α → Except String β}
    (continued : next value = if second ≤ budget then .ok result else .error limitError) :
    ((if first ≤ budget then .ok value else .error limitError : Except String α) >>= next) =
      if max first second ≤ budget then .ok result else .error limitError := by
  by_cases fits : first ≤ budget
  · simp only [fits, if_true, max_le_iff, true_and]
    exact continued
  · simp only [fits, if_false, max_le_iff, false_and]
    rfl

theorem limited_pure {α β : Type} {depth budget : Nat} {value : α} (f : α → β) :
    ((if depth ≤ budget then .ok value else .error limitError : Except String α) >>= fun value =>
        pure (f value)) =
      if depth ≤ budget then .ok (f value) else .error limitError := by
  split <;> rfl

mutual
/-- Reading gives back the tree that was written, if the budget allows it. -/
theorem readValue_write : ∀ (value : Value) (fuel budget : Nat) {rest : List Char},
    size value ≤ fuel → Ends rest →
      readValue fuel budget (write value ++ rest) =
        if value.depth ≤ budget then .ok (value, rest) else .error limitError
  | value, 0, _, _, enough, _ => absurd (size_pos value) (not_lt.mpr enough)
  | .null, fuel + 1, budget, rest, _, _ => rfl
  | .bool true, fuel + 1, budget, rest, _, _ => rfl
  | .bool false, fuel + 1, budget, rest, _, _ => rfl
  | .number value, fuel + 1, budget, rest, _, ends => by
      rw [write, readValue_writeNumber fuel budget value ends, Value.depth, if_pos (Nat.zero_le _)]
  | .string text, fuel + 1, budget, rest, _, _ => by
      have inner := (readString_writeString text rest).2
      rw [Value.depth, if_pos (Nat.zero_le _)]
      change (readString (writeString text ++ rest).tail).map _ = _
      rw [inner]
      simp [Except.map]
  | .array [], fuel + 1, 0, rest, _, _ => rfl
  | .array [], fuel + 1, budget + 1, rest, _, _ => rfl
  | .array (element :: elements), fuel + 1, 0, rest, _, _ => rfl
  | .array (element :: elements), fuel + 1, budget + 1, rest, enough, _ => by
      rw [size] at enough
      have first := readValue_write element fuel budget (by omega)
        (ends_writeElements elements rest)
      have later := readElements_write elements fuel budget (by omega) rest
      rw [write, List.cons_append, List.cons_append, List.append_assoc,
        readValue_array fuel budget (head?_write element _), first, Value.depth,
        Value.depthOfElements]
      simp only [Nat.add_le_add_iff_right]
      apply limited_bind
      change (readElements fuel budget (writeElements elements ++ rest) >>= fun read =>
        pure (Value.array (element :: read.1), read.2)) = _
      rw [later, limited_pure]
  | .object [], fuel + 1, 0, rest, _, _ => rfl
  | .object [], fuel + 1, budget + 1, rest, _, _ => rfl
  | .object ((key, value) :: members), fuel + 1, 0, rest, _, _ => rfl
  | .object ((key, value) :: members), fuel + 1, budget + 1, rest, enough, _ => by
      rw [size] at enough
      have first := readMember_write key value fuel budget (by omega)
        (ends_writeMembers members rest)
      have later := readMembers_write members fuel budget (by omega) rest
      rw [write, Value.depth, Value.depthOfMembers]
      simp only [List.cons_append, List.append_assoc, Nat.add_le_add_iff_right]
      rw [readValue_object fuel budget (by exact fun absurd => by cases absurd), first]
      apply limited_bind
      change (readMembers fuel budget (writeMembers members ++ rest) >>= fun read =>
        pure (Value.object ((key, value) :: read.1), read.2)) = _
      rw [later, limited_pure]

theorem readElements_write : ∀ (elements : List Value) (fuel budget : Nat),
    sizeOfElements elements ≤ fuel → ∀ rest : List Char,
      readElements fuel budget (writeElements elements ++ rest) =
        if Value.depthOfElements elements ≤ budget then .ok (elements, rest) else .error limitError
  | [], 0, _, enough, _ => absurd enough (by simp [sizeOfElements])
  | [], fuel + 1, budget, _, rest => rfl
  | element :: elements, 0, _, enough, _ => absurd enough (by simp [sizeOfElements])
  | element :: elements, fuel + 1, budget, enough, rest => by
      rw [sizeOfElements] at enough
      have first := readValue_write element fuel budget (by omega)
        (ends_writeElements elements rest)
      have later := readElements_write elements fuel budget (by omega) rest
      rw [writeElements, List.cons_append, List.cons_append, List.append_assoc,
        Value.depthOfElements]
      change (readValue fuel budget (write element ++ (writeElements elements ++ rest)) >>= _) = _
      rw [first]
      apply limited_bind
      change (readElements fuel budget (writeElements elements ++ rest) >>= fun read =>
        pure (element :: read.1, read.2)) = _
      rw [later, limited_pure]

theorem readMember_write : ∀ (key : String) (value : Value) (fuel budget : Nat) {rest : List Char},
    size value + 1 ≤ fuel → Ends rest →
      readMember fuel budget (writeString key ++ ':' :: (write value ++ rest)) =
        if value.depth ≤ budget then .ok ((key, value), rest) else .error limitError
  | _, _, 0, _, _, enough, _ => absurd enough (by simp)
  | key, value, fuel + 1, budget, rest, enough, ends => by
      have inner := (readString_writeString key (':' :: (write value ++ rest))).2
      have read := readValue_write value fuel budget (Nat.le_of_succ_le_succ enough) ends
      change (readString (writeString key ++ ':' :: (write value ++ rest)).tail >>= _) = _
      rw [inner]
      change (readValue fuel budget (write value ++ rest) >>= fun read =>
        pure ((String.ofList key.toList, read.1), read.2)) = _
      rw [read, limited_pure, String.ofList_toList]

theorem readMembers_write : ∀ (members : List (String × Value)) (fuel budget : Nat),
    sizeOfMembers members ≤ fuel → ∀ rest : List Char,
      readMembers fuel budget (writeMembers members ++ rest) =
        if Value.depthOfMembers members ≤ budget then .ok (members, rest) else .error limitError
  | [], 0, _, enough, _ => absurd enough (by simp [sizeOfMembers])
  | [], fuel + 1, budget, _, rest => rfl
  | member :: members, 0, _, enough, _ => absurd enough (by simp [sizeOfMembers])
  | (key, value) :: members, fuel + 1, budget, enough, rest => by
      rw [sizeOfMembers] at enough
      have first := readMember_write key value fuel budget (by omega)
        (ends_writeMembers members rest)
      have later := readMembers_write members fuel budget (by omega) rest
      rw [writeMembers, Value.depthOfMembers]
      simp only [List.cons_append, List.append_assoc]
      change (readMember fuel budget
        (writeString key ++ ':' :: (write value ++ (writeMembers members ++ rest))) >>= _) = _
      rw [first]
      apply limited_bind
      change (readMembers fuel budget (writeMembers members ++ rest) >>= fun read =>
        pure ((key, value) :: read.1, read.2)) = _
      rw [later, limited_pure]
end

/-! ## Whole texts -/

theorem length_writeString (text : String) : 2 ≤ (writeString text).length := by
  simp [writeString]

mutual
/-- The length of the text is enough fuel. -/
theorem size_le_length : ∀ value : Value, size value ≤ (write value).length
  | .null => by simp [size, write]
  | .bool true => by simp [size, write]
  | .bool false => by simp [size, write]
  | .number value => by
      have digits : ∀ number, 0 < (Nat.toDigits 10 number).length := fun number =>
        List.length_pos_iff.mpr Nat.toDigits_ne_nil
      cases value with
      | posInt value => exact digits value.val
      | negInt magnitude => simp [size, write, writeNumber]
      | float bits => simp [size, write, writeNumber]
  | .string text => by
      have := length_writeString text
      simp only [size, write]
      omega
  | .array [] => by simp [size, write]
  | .array (element :: elements) => by
      have first := size_le_length element
      have later := sizeOfElements_le_length elements
      simp only [size, write, List.length_cons, List.length_append]
      omega
  | .object [] => by simp [size, write]
  | .object ((key, value) :: members) => by
      have first := size_le_length value
      have later := sizeOfMembers_le_length members
      simp only [size, write, List.length_cons, List.length_append]
      omega

theorem sizeOfElements_le_length :
    ∀ elements : List Value, sizeOfElements elements ≤ (writeElements elements).length
  | [] => by simp [sizeOfElements, writeElements]
  | element :: elements => by
      have first := size_le_length element
      have later := sizeOfElements_le_length elements
      simp only [sizeOfElements, writeElements, List.length_cons, List.length_append]
      omega

theorem sizeOfMembers_le_length :
    ∀ members : List (String × Value), sizeOfMembers members ≤ (writeMembers members).length
  | [] => by simp [sizeOfMembers, writeMembers]
  | (key, value) :: members => by
      have first := size_le_length value
      have later := sizeOfMembers_le_length members
      simp only [sizeOfMembers, writeMembers, List.length_cons, List.length_append]
      omega
end

/-- A tree that is written and read again is the same, if it keeps the
recursion limit. -/
theorem read_write (value : Value) :
    read (String.ofList (write value)) =
      if value.depth ≤ 127 then .ok value else .error limitError := by
  have whole := readValue_write value (write value).length 127 (size_le_length value) ends_nil
  rw [List.append_nil] at whole
  rw [read, String.toList_ofList, whole]
  by_cases shallow : value.depth ≤ 127
  · rw [if_pos shallow, if_pos shallow]
  · rw [if_neg shallow, if_neg shallow]

/-- The codec of compact texts. -/
def codec : SerdeJson where
  toString value := .ok (String.ofList (write value))
  fromStr text := (read text).map Value.canonicalize
  toString_ok _ := ⟨_, rfl⟩

theorem fromStr_text (value : Value) :
    codec.fromStr (codec.text value) =
      if value.depth ≤ 127 then .ok value.canonicalize else .error limitError := by
  change (read (String.ofList (write value))).map Value.canonicalize = _
  rw [read_write]
  split <;> rfl

theorem codec_limited : codec.Limited where
  readsBack value canonical _ shallow := by
    rw [SerdeJson.ReadsBack, fromStr_text, if_pos shallow,
      Value.canonicalize_of_canonical canonical]
  reads value shallow := ⟨_, (fromStr_text value).trans (if_pos shallow)⟩
  rejects value deep := ⟨_, (fromStr_text value).trans (if_neg (not_le.mpr deep))⟩

end Skybase.Json.Compact
