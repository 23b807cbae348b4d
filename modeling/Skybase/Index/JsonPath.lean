import Skybase.Index.Complement

/-!
# Well-formed JSON paths

A path of SQLite is a dollar sign and segments, each a dot with a key or an index
in brackets.  The validation of paths looks at one character after the other and
never at the structure, so it also accepts texts in which dots and brackets do
not delimit segments.  The segments of a text can be told from the neighbours of
its dots and brackets.
-/

namespace Skybase.Index

open Skybase.Json

/-! ## Segments -/

/-- The characters of a key. -/
def isKeyChar (ch : Char) : Bool := ch.isAlphanum || ch == '_' || ch == '-'

/-- A sequence of segments, each `.key` or `[digits]`. -/
inductive Segments : List Char → Prop where
  | nil : Segments []
  | key {key rest : List Char} (nonempty : key ≠ []) (keyChars : ∀ c ∈ key, isKeyChar c = true)
      (later : Segments rest) : Segments ('.' :: (key ++ rest))
  | index {digits rest : List Char} (nonempty : digits ≠ [])
      (allDigits : ∀ c ∈ digits, c.isDigit = true) (later : Segments rest) :
      Segments ('[' :: (digits ++ ']' :: rest))

/-- A dollar sign and segments. -/
def WellFormedPath (path : String) : Prop :=
  ∃ segments, path.toList = '$' :: segments ∧ Segments segments

/-- Every dot and every bracket of a text delimits a segment: the neighbours of a dot and of the
brackets are the right ones, and every closing bracket has its opening one. -/
structure Delimited (chars : List Char) : Prop where
  keyed : ∀ front back, chars = front ++ '.' :: back → ∃ c ∈ back.head?, isKeyChar c = true
  indexed : ∀ front back, chars = front ++ '[' :: back → ∃ digits rest,
    digits ≠ [] ∧ (∀ c ∈ digits, c.isDigit = true) ∧ back = digits ++ ']' :: rest
  closed : ∀ front back, chars = front ++ ']' :: back → ∀ c ∈ back.head?, c = '.' ∨ c = '['
  balanced : chars.count ']' = chars.count '['

theorem isKeyChar_of_isDigit {c : Char} (digit : c.isDigit = true) : isKeyChar c = true := by
  rw [isKeyChar, Char.isAlphanum, digit, Bool.or_true, Bool.true_or, Bool.true_or]

/-- No delimiter is a character of a key. -/
theorem not_mem_of_keyChars {chars : List Char} (keyChars : ∀ c ∈ chars, isKeyChar c = true) :
    '.' ∉ chars ∧ '[' ∉ chars ∧ ']' ∉ chars :=
  ⟨fun mem => absurd (keyChars _ mem) (by decide), fun mem => absurd (keyChars _ mem) (by decide),
    fun mem => absurd (keyChars _ mem) (by decide)⟩

/-- A character of an appended text is in the one part or in the other. -/
theorem append_eq_append_cons {first second front back : List Char} {c : Char}
    (eq : first ++ second = front ++ c :: back) :
    (∃ rest, first = front ++ c :: rest ∧ back = rest ++ second) ∨
      ∃ rest, front = first ++ rest ∧ second = rest ++ c :: back := by
  obtain ⟨rest, front_eq, second_eq⟩ | ⟨rest, first_eq, back_eq⟩ := List.append_eq_append_iff.mp eq
  · exact .inr ⟨rest, front_eq, second_eq⟩
  · cases rest with
    | nil => exact .inr ⟨[], by rw [first_eq, List.append_nil, List.append_nil], back_eq.symm⟩
    | cons head rest =>
        obtain ⟨rfl, rfl⟩ := List.cons.inj back_eq
        exact .inl ⟨rest, first_eq, rfl⟩

namespace Delimited

theorem nil : Delimited [] where
  keyed front back eq := absurd eq (by simp)
  indexed front back eq := absurd eq (by simp)
  closed front back eq := absurd eq (by simp)
  balanced := rfl

theorem head_of_segments {chars : List Char} (segments : Segments chars) :
    ∀ c ∈ chars.head?, c = '.' ∨ c = '[' := by
  cases segments with
  | nil => exact fun c mem => nomatch mem
  | key => exact fun c mem => .inl (Option.some.inj mem).symm
  | index => exact fun c mem => .inr (Option.some.inj mem).symm

/-- A key in front keeps the delimiters where they are. -/
theorem cons_key {key rest : List Char} (nonempty : key ≠ [])
    (keyChars : ∀ c ∈ key, isKeyChar c = true) (later : Delimited rest) :
    Delimited ('.' :: (key ++ rest)) := by
  obtain ⟨noDot, noOpen, noClose⟩ := not_mem_of_keyChars keyChars
  have inRest {front back : List Char} {c : Char} (notDot : c ≠ '.') (absent : c ∉ key)
      (eq : '.' :: (key ++ rest) = front ++ c :: back) : ∃ front', rest = front' ++ c :: back := by
    rw [← List.cons_append] at eq
    obtain ⟨tail, inKey, -⟩ | ⟨front', -, found⟩ := append_eq_append_cons eq
    · have mem : c ∈ '.' :: key := inKey ▸ List.mem_append_right front List.mem_cons_self
      exact absurd mem (by simp [notDot, absent])
    · exact ⟨front', found⟩
  constructor
  · intro front back eq
    cases front with
    | nil =>
        obtain ⟨-, rfl⟩ := List.cons.inj eq
        cases key with
        | nil => exact absurd rfl nonempty
        | cons first key => exact ⟨first, rfl, keyChars first List.mem_cons_self⟩
    | cons head front =>
        obtain ⟨-, eq⟩ := List.cons.inj eq
        obtain ⟨tail, inKey, -⟩ | ⟨front', -, found⟩ := append_eq_append_cons eq
        · exact absurd (inKey ▸ List.mem_append_right front List.mem_cons_self) noDot
        · exact later.keyed front' back found
  · intro front back eq
    obtain ⟨front', found⟩ := inRest (by decide) noOpen eq
    exact later.indexed front' back found
  · intro front back eq
    obtain ⟨front', found⟩ := inRest (by decide) noClose eq
    exact later.closed front' back found
  · simp [List.count_append, List.count_eq_zero_of_not_mem noOpen,
      List.count_eq_zero_of_not_mem noClose, later.balanced]

/-- An index in front keeps the delimiters where they are. -/
theorem cons_index {digits rest : List Char} (nonempty : digits ≠ [])
    (allDigits : ∀ c ∈ digits, c.isDigit = true) (later : Delimited rest)
    (head : ∀ c ∈ rest.head?, c = '.' ∨ c = '[') : Delimited ('[' :: (digits ++ ']' :: rest)) := by
  obtain ⟨noDot, noOpen, noClose⟩ :=
    not_mem_of_keyChars fun c mem => isKeyChar_of_isDigit (allDigits c mem)
  -- a delimiter is the opening bracket, or the closing one, or one of the rest
  have place {front back : List Char} {c : Char} (absent : c ∉ digits)
      (eq : '[' :: (digits ++ ']' :: rest) = front ++ c :: back) :
      (c = '[' ∧ back = digits ++ ']' :: rest) ∨ (c = ']' ∧ back = rest) ∨
        ∃ front', rest = front' ++ c :: back := by
    cases front with
    | nil =>
        obtain ⟨rfl, rfl⟩ := List.cons.inj eq
        exact .inl ⟨rfl, rfl⟩
    | cons first front =>
        obtain ⟨-, eq⟩ := List.cons.inj eq
        obtain ⟨tail, inDigits, -⟩ | ⟨front', -, found⟩ := append_eq_append_cons eq
        · exact absurd (inDigits ▸ List.mem_append_right front List.mem_cons_self) absent
        · cases front' with
          | nil =>
              obtain ⟨rfl, rfl⟩ := List.cons.inj found
              exact .inr (.inl ⟨rfl, rfl⟩)
          | cons first' front' => exact .inr (.inr ⟨front', (List.cons.inj found).2⟩)
  constructor
  · intro front back eq
    obtain ⟨dot, -⟩ | ⟨dot, -⟩ | ⟨front', found⟩ := place noDot eq
    · exact absurd dot (by decide)
    · exact absurd dot (by decide)
    · exact later.keyed front' back found
  · intro front back eq
    obtain ⟨-, rfl⟩ | ⟨bracket, -⟩ | ⟨front', found⟩ := place noOpen eq
    · exact ⟨digits, rest, nonempty, allDigits, rfl⟩
    · exact absurd bracket (by decide)
    · exact later.indexed front' back found
  · intro front back eq
    obtain ⟨bracket, -⟩ | ⟨-, rfl⟩ | ⟨front', found⟩ := place noClose eq
    · exact absurd bracket (by decide)
    · exact head
    · exact later.closed front' back found
  · simp [List.count_append, List.count_eq_zero_of_not_mem noOpen,
      List.count_eq_zero_of_not_mem noClose, later.balanced]

theorem of_segments {chars : List Char} (segments : Segments chars) : Delimited chars := by
  induction segments with
  | nil => exact nil
  | key nonempty keyChars _ ih => exact cons_key nonempty keyChars ih
  | index nonempty allDigits later ih =>
      exact cons_index nonempty allDigits ih (head_of_segments later)

end Delimited

/-- Where every opening bracket has its index, there are at least as many closing ones. -/
theorem count_open_le_close {chars : List Char}
    (indexed : ∀ front back, chars = front ++ '[' :: back → ∃ digits rest,
      digits ≠ [] ∧ (∀ c ∈ digits, c.isDigit = true) ∧ back = digits ++ ']' :: rest) :
    chars.count '[' ≤ chars.count ']' := by
  induction length : chars.length using Nat.strong_induction_on generalizing chars with
  | h size ih =>
      cases chars with
      | nil => exact Nat.le_refl 0
      | cons first back =>
          rw [List.length_cons] at length
          by_cases opens : first = '['
          · subst opens
            obtain ⟨digits, rest, -, allDigits, rfl⟩ := indexed [] back rfl
            obtain ⟨-, noOpen, noClose⟩ :=
              not_mem_of_keyChars fun c mem => isKeyChar_of_isDigit (allDigits c mem)
            rw [List.length_append, List.length_cons] at length
            have later := ih rest.length (by omega)
              (fun front back eq => indexed ('[' :: (digits ++ ']' :: front)) back (by simp [eq]))
              rfl
            simp [List.count_append, List.count_eq_zero_of_not_mem noOpen,
              List.count_eq_zero_of_not_mem noClose, later]
          · have later := ih back.length (by omega)
              (fun front rest eq => indexed (first :: front) rest (by rw [eq]; rfl)) rfl
            rw [List.count_cons_of_ne opens]
            exact later.trans List.count_le_count_cons

namespace Delimited

theorem of_append {front chars : List Char} (delimited : Delimited (front ++ chars))
    (balanced : front.count ']' = front.count '[') : Delimited chars where
  keyed left right eq := delimited.keyed (front ++ left) right (by rw [eq, List.append_assoc])
  indexed left right eq := delimited.indexed (front ++ left) right (by rw [eq, List.append_assoc])
  closed left right eq := delimited.closed (front ++ left) right (by rw [eq, List.append_assoc])
  balanced := by
    have whole := delimited.balanced
    rw [List.count_append, List.count_append] at whole
    omega

/-- A delimited text does not begin with a closing bracket. -/
theorem head_ne_close {chars : List Char} (delimited : Delimited chars) :
    ∀ c ∈ chars.head?, c ≠ ']' := by
  rintro c mem rfl
  obtain ⟨rest, rfl⟩ := List.head?_eq_some_iff.mp mem
  have atLeast : rest.count '[' ≤ rest.count ']' := count_open_le_close
    fun front back eq => delimited.indexed (']' :: front) back (by rw [eq]; rfl)
  have whole := delimited.balanced
  rw [List.count_cons_self, List.count_cons_of_ne (by decide)] at whole
  omega

/-- A dot is followed by the longest run of key characters, and that by a delimiter. -/
theorem exists_key {back : List Char} (delimited : Delimited ('.' :: back))
    (allowed : ∀ c ∈ back, isJsonPathChar c = true) :
    ∃ key rest, back = key ++ rest ∧ key ≠ [] ∧ (∀ c ∈ key, isKeyChar c = true) ∧
      Delimited rest ∧ ∀ c ∈ rest.head?, c = '.' ∨ c = '[' := by
  have split : back.takeWhile isKeyChar ++ back.dropWhile isKeyChar = back :=
    List.takeWhile_append_dropWhile
  have keyChars : ∀ c ∈ back.takeWhile isKeyChar, isKeyChar c = true :=
    fun c mem => List.mem_takeWhile_imp mem
  have stops : ∀ c ∈ (back.dropWhile isKeyChar).head?, isKeyChar c = false := by
    intro c mem
    have stop := List.head?_dropWhile_not isKeyChar back
    rwa [Option.mem_def.mp mem] at stop
  generalize back.takeWhile isKeyChar = key at split keyChars
  generalize back.dropWhile isKeyChar = rest at split stops
  subst split
  obtain ⟨-, noOpen, noClose⟩ := not_mem_of_keyChars keyChars
  have later : Delimited rest := by
    refine of_append (show Delimited (('.' :: key) ++ rest) from delimited) ?_
    simp [List.count_eq_zero_of_not_mem noOpen, List.count_eq_zero_of_not_mem noClose]
  refine ⟨key, rest, rfl, ?_, keyChars, later, ?_⟩
  · rintro rfl
    obtain ⟨c, mem, keyChar⟩ := delimited.keyed [] rest rfl
    exact Bool.false_ne_true ((stops c mem).symm.trans keyChar)
  · intro c mem
    have notKey := stops c mem
    have notClose := later.head_ne_close c mem
    have isAllowed := allowed c (List.mem_append_right key (List.mem_of_mem_head? mem))
    simp only [isKeyChar, isJsonPathChar, Bool.or_eq_false_iff, Bool.or_eq_true, beq_iff_eq,
      beq_eq_false_iff_ne] at notKey isAllowed
    grind

/-- An opening bracket is followed by an index, and that by a delimiter. -/
theorem exists_index {back : List Char} (delimited : Delimited ('[' :: back)) :
    ∃ digits rest, back = digits ++ ']' :: rest ∧ digits ≠ [] ∧
      (∀ c ∈ digits, c.isDigit = true) ∧ Delimited rest ∧
        ∀ c ∈ rest.head?, c = '.' ∨ c = '[' := by
  obtain ⟨digits, rest, nonempty, allDigits, rfl⟩ := delimited.indexed [] back rfl
  obtain ⟨-, noOpen, noClose⟩ :=
    not_mem_of_keyChars fun c mem => isKeyChar_of_isDigit (allDigits c mem)
  refine ⟨digits, rest, rfl, nonempty, allDigits, ?_, delimited.closed ('[' :: digits) rest rfl⟩
  refine of_append
    (show Delimited (('[' :: (digits ++ [']'])) ++ rest) by simpa using delimited) ?_
  simp [List.count_append, List.count_eq_zero_of_not_mem noOpen,
    List.count_eq_zero_of_not_mem noClose]

/-- A text that begins with a delimiter is a sequence of segments if it is delimited. -/
theorem segments {chars : List Char} (delimited : Delimited chars)
    (allowed : ∀ c ∈ chars, isJsonPathChar c = true)
    (head : ∀ c ∈ chars.head?, c = '.' ∨ c = '[') : Segments chars := by
  induction length : chars.length using Nat.strong_induction_on generalizing chars with
  | h size ih =>
      cases chars with
      | nil => exact .nil
      | cons first back =>
          rw [List.forall_mem_cons] at allowed
          obtain rfl | rfl := head first rfl
          · obtain ⟨key, rest, rfl, nonempty, keyChars, later, next⟩ :=
              delimited.exists_key allowed.2
            have shorter : rest.length < size := by
              rw [← length, List.length_cons, List.length_append]
              omega
            exact .key nonempty keyChars
              (ih _ shorter later (fun c mem => allowed.2 c (by simp [mem])) next rfl)
          · obtain ⟨digits, rest, rfl, nonempty, allDigits, later, next⟩ := delimited.exists_index
            have shorter : rest.length < size := by
              rw [← length, List.length_cons, List.length_append, List.length_cons]
              omega
            exact .index nonempty allDigits
              (ih _ shorter later (fun c mem => allowed.2 c (by simp [mem])) next rfl)

end Delimited

/-- Of the texts that begin with a delimiter, the sequences of segments are the delimited ones. -/
theorem segments_iff_delimited {chars : List Char}
    (allowed : ∀ c ∈ chars, isJsonPathChar c = true)
    (head : ∀ c ∈ chars.head?, c = '.' ∨ c = '[') : Segments chars ↔ Delimited chars :=
  ⟨.of_segments, fun delimited => delimited.segments allowed head⟩

/-! ## Accepted paths -/

/-- What stands after the dollar sign that a text has or is given. -/
def afterDollar : List Char → List Char
  | '$' :: rest => rest
  | '[' :: rest => '[' :: rest
  | chars => '.' :: chars

/-- What stands after the dollar sign of a normalized path. -/
def pathTail (path : String) : List Char := afterDollar (Text.trim path).toList

/-- The prefix that a path is given. -/
theorem normalized_eq {trimmed : String} (nonempty : trimmed.toList ≠ []) :
    (if Text.startsWith trimmed "$" then trimmed
      else if Text.startsWith trimmed "[" then "$" ++ trimmed else "$." ++ trimmed) =
      String.ofList ('$' :: afterDollar trimmed.toList) := by
  have dollar : "$".toList = ['$'] := by decide
  have bracket : "[".toList = ['['] := by decide
  have dot : "$.".toList = ['$', '.'] := by decide
  rw [← String.toList_inj]
  simp only [Text.startsWith, String.toList_ofList, dollar, bracket, apply_ite String.toList,
    String.toList_append, dot]
  generalize trimmed.toList = chars at nonempty ⊢
  cases chars with
  | nil => exact absurd rfl nonempty
  | cons c rest =>
      by_cases isDollar : '$' = c
      · subst isDollar
        rfl
      · by_cases isBracket : '[' = c
        · subst isBracket
          rfl
        · have other : afterDollar (c :: rest) = '.' :: c :: rest := by
            rw [afterDollar]
            · rintro _ ⟨⟩
              exact isDollar rfl
            · rintro _ ⟨⟩
              exact isBracket rfl
          simp [List.isPrefixOf, isDollar, isBracket, other]

/-- Which paths are accepted, and what the accepted path is. -/
theorem normalizeJsonPath_eq (path : String) :
    normalizeJsonPath path =
      if Text.trim path = "" then .error (.index "JSON field path cannot be empty")
      else (validateJsonPath (String.ofList ('$' :: pathTail path))).map fun _ =>
        String.ofList ('$' :: pathTail path) := by
  rw [normalizeJsonPath, pathTail]
  by_cases blank : Text.trim path = ""
  · rw [if_pos blank, blank]
    rfl
  · have nonempty : (Text.trim path).toList ≠ [] := String.toList_eq_nil_iff.not.mpr blank
    rw [if_neg blank, normalized_eq nonempty]
    exact if_neg (by rw [String.isEmpty_iff]; exact blank)

/-- What the validation asks of the beginning of a path. -/
theorem misplaced_iff (tail : List Char) :
    (Text.startsWith (String.ofList ('$' :: tail)) "$" &&
      decide (Text.len (String.ofList ('$' :: tail)) > 1) &&
      !Text.startsWith (String.ofList ('$' :: tail)) "$." &&
      !Text.startsWith (String.ofList ('$' :: tail)) "$[") = true ↔
      ¬ ∀ c ∈ tail.head?, c = '.' ∨ c = '[' := by
  have dollar : "$".toList = ['$'] := by decide
  have dot : "$.".toList = ['$', '.'] := by decide
  have bracket : "$[".toList = ['$', '['] := by decide
  simp only [Text.startsWith, String.toList_ofList, dollar, dot, bracket, Text.len, Text.bytes]
  cases tail with
  | nil => exact iff_of_false (by decide) (not_not.mpr (by simp))
  | cons c rest =>
      have long : 1 < (('$' :: c :: rest).flatMap String.utf8EncodeChar).length := by
        have first := Char.utf8Size_pos '$'
        have second := Char.utf8Size_pos c
        simp only [List.length_flatMap, List.map_cons, List.sum_cons, String.length_utf8EncodeChar]
        omega
      rw [decide_eq_true long]
      simp only [List.isPrefixOf, beq_self_eq_true, Bool.true_and, Bool.and_true,
        Bool.and_eq_true, Bool.not_eq_true', beq_eq_false_iff_ne, List.head?_cons, Option.mem_def,
        Option.some.injEq, forall_eq', not_or, ne_eq]
      exact and_congr (not_congr eq_comm) (not_congr eq_comm)

theorem validateJsonPath_eq_ok_iff (tail : List Char) :
    validateJsonPath (String.ofList ('$' :: tail)) = .ok () ↔
      (∀ c ∈ tail.head?, c = '.' ∨ c = '[') ∧ ∀ c ∈ tail, isJsonPathChar c = true := by
  rw [validateJsonPath]
  by_cases head : ∀ c ∈ tail.head?, c = '.' ∨ c = '['
  · rw [if_neg ((misplaced_iff tail).not.mpr (not_not.mpr head)), and_iff_right head]
    simp only [jsonPathTail, String.toList_ofList]
    cases found : tail.find? fun ch => !isJsonPathChar ch with
    | none =>
        have allowed := List.find?_eq_none.mp found
        exact iff_of_true rfl fun c mem => by simpa using allowed c mem
    | some ch =>
        have forbidden := List.find?_some found
        have mem := List.mem_of_find?_eq_some found
        refine iff_of_false (fun accepted => nomatch accepted) fun allowed => ?_
        rw [allowed ch mem] at forbidden
        exact Bool.false_ne_true forbidden
  · rw [if_pos ((misplaced_iff tail).mpr head)]
    constructor
    · intro accepted
      exact nomatch accepted
    · rintro ⟨placed, -⟩
      exact absurd placed head

theorem validateJsonPath_error {path : String} {err : SkybaseError}
    (rejected : validateJsonPath path = .error err) : ∃ message, err = .index message := by
  rw [validateJsonPath] at rejected
  split at rejected
  · exact ⟨_, (Except.error.inj rejected).symm⟩
  · split at rejected
    · exact ⟨_, (Except.error.inj rejected).symm⟩
    · exact nomatch rejected

/-- A path is normalized to a well-formed one or reported as an index error, and what a query
hands to SQLite for it is a path that SQLite accepts, if it accepts the well-formed ones. -/
structure ReportsMalformed (path : String) : Prop where
  normalizes : (∃ normalized, normalizeJsonPath path = .ok normalized ∧
      WellFormedPath normalized) ∨
    ∃ message, normalizeJsonPath path = .error (.index message)
  accepted : ∀ sqliteAccepts : String → Prop, (∀ path, WellFormedPath path → sqliteAccepts path) →
    ∀ (serde : SerdeJson) (builder : QueryBuilder) (op : QueryOp) (value : Value) (select : Select),
    (builder.whereJson path op value).select serde = .ok select →
    ∃ normalized, select.conditions.getLast? =
        some (.json normalized (WhereJsonClause.test serde ⟨path, op, value⟩)) ∧
      sqliteAccepts normalized

/-- The inputs that the validation has nothing to find fault with but in their delimiters have them
in place; the others are blank, or have a forbidden character or beginning. -/
inductive DelimitedInput (path : String) : Prop where
  | blank (eq : Text.trim path = "")
  | forbidden {c : Char} (mem : c ∈ pathTail path) (notAllowed : isJsonPathChar c = false)
  | misplaced {c : Char} (head : c ∈ (pathTail path).head?) (notDot : c ≠ '.') (notOpen : c ≠ '[')
  | delimited (inPlace : Delimited (pathTail path))

theorem wellFormedPath_iff (tail : List Char) :
    WellFormedPath (String.ofList ('$' :: tail)) ↔ Segments tail := by
  rw [WellFormedPath, String.toList_ofList]
  constructor
  · rintro ⟨segments, same, wellFormed⟩
    obtain ⟨-, rfl⟩ := List.cons.inj same
    exact wellFormed
  · exact fun segments => ⟨tail, rfl, segments⟩

/-- What the normalization gives. -/
theorem normalizeJsonPath_cases (path : String) :
    (∃ message, normalizeJsonPath path = .error (.index message)) ∧
        (Text.trim path = "" ∨ (∃ c ∈ (pathTail path).head?, c ≠ '.' ∧ c ≠ '[') ∨
          ∃ c ∈ pathTail path, isJsonPathChar c = false) ∨
      normalizeJsonPath path = .ok (String.ofList ('$' :: pathTail path)) ∧
        Text.trim path ≠ "" ∧ (∀ c ∈ (pathTail path).head?, c = '.' ∨ c = '[') ∧
          ∀ c ∈ pathTail path, isJsonPathChar c = true := by
  have normal := normalizeJsonPath_eq path
  by_cases blank : Text.trim path = ""
  · rw [if_pos blank] at normal
    exact .inl ⟨⟨_, normal⟩, .inl blank⟩
  · rw [if_neg blank] at normal
    cases validated : validateJsonPath (String.ofList ('$' :: pathTail path)) with
    | ok _ =>
        rw [validated] at normal
        exact .inr ⟨normal, blank, (validateJsonPath_eq_ok_iff _).mp validated⟩
    | error err =>
        obtain ⟨message, rfl⟩ := validateJsonPath_error validated
        rw [validated] at normal
        have fault := (validateJsonPath_eq_ok_iff (pathTail path)).not.mp
          (by rw [validated]; exact fun same => nomatch same)
        refine .inl ⟨⟨message, normal⟩, .inr ?_⟩
        rw [not_and_or] at fault
        push Not at fault
        exact fault.imp_right fun ⟨c, mem, notAllowed⟩ => ⟨c, mem, by simpa using notAllowed⟩

/-- Malformed paths are reported exactly for the inputs whose delimiters are in place. -/
theorem reportsMalformed_iff (path : String) : ReportsMalformed path ↔ DelimitedInput path := by
  obtain ⟨⟨message, rejected⟩, fault⟩ | ⟨normal, notBlank, head, allowed⟩ :=
    normalizeJsonPath_cases path
  · refine iff_of_true ⟨.inr ⟨message, rejected⟩, ?_⟩ ?_
    · intro sqliteAccepts _ serde builder op value select compiled
      obtain ⟨_, normalized, _, accepted, _⟩ := QueryBuilder.select_whereJson compiled
      exact nomatch rejected.symm.trans accepted
    · obtain blank | ⟨c, atHead, notDot, notOpen⟩ | ⟨c, mem, notAllowed⟩ := fault
      · exact .blank blank
      · exact .misplaced atHead notDot notOpen
      · exact .forbidden mem notAllowed
  · constructor
    · rintro ⟨⟨normalized, same, wellFormed⟩ | ⟨message, rejected⟩, -⟩
      · obtain rfl := Except.ok.inj (normal.symm.trans same)
        exact .delimited (.of_segments ((wellFormedPath_iff _).mp wellFormed))
      · exact nomatch normal.symm.trans rejected
    · intro input
      have inPlace : Delimited (pathTail path) := by
        cases input with
        | blank eq => exact absurd eq notBlank
        | forbidden mem notAllowed => exact absurd (allowed _ mem) (by simp [notAllowed])
        | misplaced atHead notDot notOpen =>
            exact absurd (head _ atHead) (not_or.mpr ⟨notDot, notOpen⟩)
        | delimited inPlace => exact inPlace
      have segments := (segments_iff_delimited allowed head).mpr inPlace
      have wellFormed := (wellFormedPath_iff _).mpr segments
      refine ⟨.inl ⟨_, normal, wellFormed⟩, ?_⟩
      intro sqliteAccepts accepts serde builder op value select compiled
      obtain ⟨before, normalized, _, same, rfl⟩ := QueryBuilder.select_whereJson compiled
      obtain rfl := Except.ok.inj (normal.symm.trans same)
      exact ⟨_, List.getLast?_concat, accepts _ wellFormed⟩

/-- A path with an empty segment is accepted. -/
theorem normalizeJsonPath_emptySegment :
    normalizeJsonPath "a..b" = .ok "$.a..b" ∧ ¬ ReportsMalformed "a..b" := by
  have normal : normalizeJsonPath "a..b" = .ok "$.a..b" := by decide
  have notWellFormed : ¬ WellFormedPath "$.a..b" := by
    rintro ⟨segments, eq, wellFormed⟩
    have chars : "$.a..b".toList = ['$', '.', 'a', '.', '.', 'b'] := by decide
    obtain ⟨-, rfl⟩ := List.cons.inj (chars.symm.trans eq)
    obtain ⟨c, mem, keyChar⟩ := (Delimited.of_segments wellFormed).keyed ['.', 'a'] ['.', 'b'] rfl
    obtain rfl : '.' = c := Option.some.inj mem
    exact absurd keyChar (by decide)
  refine ⟨normal, ?_⟩
  rintro ⟨⟨normalized, same, wellFormed⟩ | ⟨message, rejected⟩, -⟩
  · obtain rfl := Except.ok.inj (normal.symm.trans same)
    exact notWellFormed wellFormed
  · exact nomatch normal.symm.trans rejected

end Skybase.Index
