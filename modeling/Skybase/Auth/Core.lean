import Skybase.Text

/-!
# Lists of challenges

The grammar of the challenges of HTTP authentication: a value lists challenges
separated by commas, a challenge is a scheme followed by parameters that are
separated by commas as well, and the value of a parameter is a token or a quoted
string, in which a comma separates nothing.  A syntax tree fixes the blanks
where the grammar leaves them open, so that the values that follow the grammar
are the texts of the trees.

Behind its first scheme a text is one list of items, and a comma outside the
quoted strings ends an item.  What a reader that cuts the text at every comma
finds in it, it finds in one of the items.
-/

namespace Skybase.Auth

/-! ## Syntax -/

/-- A character of a token. -/
def isTokenChar (c : Char) : Bool :=
  c.isAlphanum || "!#$%&'*+-.^_`|~".toList.contains c

/-- A character that stands for itself in a quoted string: a blank, a visible character
other than the quote and the backslash, or an octet above ASCII. -/
def isQuotedText (c : Char) : Bool :=
  c.toNat == 0x09 || (0x20 ≤ c.toNat && c.toNat ≤ 0x7E && c != '"' && c != '\\') ||
    (0x80 ≤ c.toNat && c.toNat ≤ 0xFF)

/-- A character of a header value, which is also one that can follow a backslash in a quoted
string. -/
def isFieldChar (c : Char) : Bool :=
  c.toNat == 0x09 || (0x20 ≤ c.toNat && c.toNat ≤ 0x7E) || (0x80 ≤ c.toNat && c.toNat ≤ 0xFF)

structure Token where
  chars : List Char
  nonempty : chars ≠ []
  valid : ∀ c ∈ chars, isTokenChar c = true

/-- Optional blanks. -/
structure Blanks where
  chars : List Char
  valid : ∀ c ∈ chars, c = ' ' ∨ c = '\t'

/-- A character of a quoted string, as it is or behind a backslash. -/
inductive QuotedChar where
  | text (c : Char) (valid : isQuotedText c = true)
  | pair (c : Char) (valid : isFieldChar c = true)

namespace QuotedChar

def spelled : QuotedChar → List Char
  | text c _ => [c]
  | pair c _ => ['\\', c]

def meaning : QuotedChar → Char
  | text c _ => c
  | pair c _ => c

end QuotedChar

inductive ParamValue where
  | token (token : Token)
  | quoted (content : List QuotedChar)

namespace ParamValue

/-- The value as it is spelled, without the quotes around it. -/
def spelled : ParamValue → List Char
  | token word => word.chars
  | quoted content => content.flatMap QuotedChar.spelled

def text : ParamValue → List Char
  | token word => word.chars
  | quoted content => '"' :: content.flatMap QuotedChar.spelled ++ ['"']

/-- What the value stands for. -/
def meaning : ParamValue → List Char
  | token word => word.chars
  | quoted content => content.map QuotedChar.meaning

end ParamValue

structure Param where
  name : Token
  beforeEquals : Blanks
  afterEquals : Blanks
  value : ParamValue

namespace Param

/-- The text before the equals sign. -/
def key (param : Param) : List Char := param.name.chars ++ param.beforeEquals.chars

def text (param : Param) : List Char :=
  param.key ++ '=' :: (param.afterEquals.chars ++ param.value.text)

end Param

/-- A comma with the blanks around it. -/
structure Separator where
  before : Blanks
  after : Blanks

def Separator.text (separator : Separator) : List Char :=
  separator.before.chars ++ ',' :: separator.after.chars

/-- A scheme, alone or before parameters, at least one space away. -/
inductive Challenge where
  | bare (scheme : Token)
  | withParams (scheme : Token) (moreSpaces : Nat) (first : Param)
      (rest : List (Separator × Param))

namespace Challenge

def scheme : Challenge → Token
  | bare scheme => scheme
  | withParams scheme _ _ _ => scheme

/-- The parameters that stand directly behind a comma. -/
def laterParams : Challenge → List Param
  | bare _ => []
  | withParams _ _ _ rest => rest.map Prod.snd

def params : Challenge → List Param
  | bare _ => []
  | withParams _ _ first rest => first :: rest.map Prod.snd

/-- The scheme with the spaces behind it. -/
def opening (scheme : Token) (moreSpaces : Nat) : List Char :=
  scheme.chars ++ ' ' :: List.replicate moreSpaces ' '

def text : Challenge → List Char
  | bare scheme => scheme.chars
  | withParams scheme moreSpaces first rest =>
      opening scheme moreSpaces ++ first.text ++
        rest.flatMap fun entry => entry.1.text ++ entry.2.text

end Challenge

/-- The challenges of one header value. -/
structure Challenges where
  first : Challenge
  rest : List (Separator × Challenge)

namespace Challenges

/-- The challenges of the value, in order. -/
def all (challenges : Challenges) : List Challenge :=
  challenges.first :: challenges.rest.map Prod.snd

def params (challenges : Challenges) : List Param := challenges.all.flatMap Challenge.params

/-- The parameters that do not stand behind the scheme of a further challenge. -/
def exposedParams (challenges : Challenges) : List Param :=
  challenges.first.params ++ challenges.rest.flatMap fun entry => entry.2.laterParams

def text (challenges : Challenges) : List Char :=
  challenges.first.text ++ challenges.rest.flatMap fun entry => entry.1.text ++ entry.2.text

end Challenges

/-! ## Items -/

/-- What stands between two commas outside of quoted strings: a parameter, or the scheme of a
challenge, with its first parameter if there is one. -/
inductive Item where
  | param (param : Param)
  | bare (scheme : Token)
  | opens (scheme : Token) (moreSpaces : Nat) (param : Param)

def Item.text : Item → List Char
  | param p => p.text
  | bare scheme => scheme.chars
  | opens scheme moreSpaces p => Challenge.opening scheme moreSpaces ++ p.text

/-- A list of items, each behind its separator. -/
def itemsText (items : List (Separator × Item)) : List Char :=
  items.flatMap fun entry => entry.1.text ++ entry.2.text

@[simp]
theorem itemsText_cons (separator : Separator) (item : Item) (items : List (Separator × Item)) :
    itemsText ((separator, item) :: items) =
      separator.text ++ item.text ++ itemsText items :=
  rfl

@[simp]
theorem itemsText_append (first second : List (Separator × Item)) :
    itemsText (first ++ second) = itemsText first ++ itemsText second :=
  List.flatMap_append

namespace Challenge

/-- The item that a challenge begins with. -/
def head : Challenge → Item
  | bare scheme => .bare scheme
  | withParams scheme moreSpaces first _ => .opens scheme moreSpaces first

/-- The items of a challenge behind its first one. -/
def restItems : Challenge → List (Separator × Item)
  | bare _ => []
  | withParams _ _ _ rest => rest.map fun entry => (entry.1, .param entry.2)

theorem text_eq (challenge : Challenge) :
    challenge.text = challenge.head.text ++ itemsText challenge.restItems := by
  cases challenge with
  | bare scheme => exact (List.append_nil scheme.chars).symm
  | withParams scheme moreSpaces first rest =>
      rw [text, itemsText, restItems, List.flatMap_map]
      rfl

theorem mem_params_iff {challenge : Challenge} {param : Param} :
    param ∈ challenge.params ↔
      challenge.params.head? = some param ∨ param ∈ challenge.laterParams := by
  cases challenge with
  | bare scheme => simp [params, laterParams]
  | withParams scheme moreSpaces first rest =>
      rw [params, laterParams, List.mem_cons, List.head?_cons, Option.some.injEq,
        eq_comm (a := param)]

theorem exists_restItems (challenge : Challenge) (property : Item → Prop) :
    (∃ entry ∈ challenge.restItems, property entry.2) ↔
      ∃ param ∈ challenge.laterParams, property (.param param) := by
  cases challenge with
  | bare scheme => simp [restItems, laterParams]
  | withParams scheme moreSpaces first rest =>
      constructor
      · rintro ⟨item, mem, holds⟩
        rcases List.mem_map.mp mem with ⟨entry, entryMem, rfl⟩
        exact ⟨entry.2, List.mem_map_of_mem entryMem, holds⟩
      · rintro ⟨param, mem, holds⟩
        rcases List.mem_map.mp mem with ⟨entry, entryMem, rfl⟩
        exact ⟨(entry.1, .param entry.2), List.mem_map_of_mem entryMem, holds⟩

end Challenge

namespace Challenges

/-- The items of a value behind the first one. -/
def items (challenges : Challenges) : List (Separator × Item) :=
  challenges.first.restItems ++ challenges.rest.flatMap fun entry =>
    (entry.1, entry.2.head) :: entry.2.restItems

/-- A value is a list of items. -/
theorem text_eq (challenges : Challenges) :
    challenges.text = challenges.first.head.text ++ itemsText challenges.items := by
  have rest_eq : ∀ rest : List (Separator × Challenge),
      (rest.flatMap fun entry => entry.1.text ++ entry.2.text) =
        itemsText (rest.flatMap fun entry => (entry.1, entry.2.head) :: entry.2.restItems) := by
    intro rest
    induction rest with
    | nil => rfl
    | cons entry rest ih =>
        rw [List.flatMap_cons, List.flatMap_cons, ih, itemsText_append, itemsText_cons,
          Challenge.text_eq]
        simp only [List.append_assoc]
  rw [text, rest_eq, items, itemsText_append, Challenge.text_eq, List.append_assoc]

theorem exists_items (challenges : Challenges) (property : Item → Prop) :
    (∃ entry ∈ challenges.items, property entry.2) ↔
      (∃ param ∈ challenges.first.laterParams, property (.param param)) ∨
        ∃ entry ∈ challenges.rest, property entry.2.head ∨
          ∃ param ∈ entry.2.laterParams, property (.param param) := by
  simp only [items, List.mem_append, or_and_right, exists_or, Challenge.exists_restItems,
    List.mem_flatMap, List.mem_cons]
  apply or_congr_right
  constructor
  · rintro ⟨item, ⟨entry, mem, first | later⟩, holds⟩
    · rw [first] at holds
      exact ⟨entry, mem, Or.inl holds⟩
    · exact ⟨entry, mem, Or.inr ((entry.2.exists_restItems property).mp ⟨item, later, holds⟩)⟩
  · rintro ⟨entry, mem, holds | holds⟩
    · exact ⟨(entry.1, entry.2.head), ⟨entry, mem, Or.inl rfl⟩, holds⟩
    · rcases (entry.2.exists_restItems property).mpr holds with ⟨item, later, holds⟩
      exact ⟨item, ⟨entry, mem, Or.inr later⟩, holds⟩

end Challenges

/-! ## Reading between commas -/

/-- Some part of the text between commas passes the test. -/
def Occurs (test : List Char → Prop) (text : List Char) : Prop :=
  ∃ part ∈ text.splitOn ',', test part

/-- All characters are whitespace. -/
def IsSpace (chars : List Char) : Prop := ∀ c ∈ chars, Text.isWhitespace c = true

/-- The test does not depend on whitespace around the part. -/
structure IgnoresSpace (test : List Char → Prop) : Prop where
  before : ∀ space part, IsSpace space → (test (space ++ part) ↔ test part)
  after : ∀ space part, IsSpace space → (test (part ++ space) ↔ test part)

theorem Blanks.isSpace (blanks : Blanks) : IsSpace blanks.chars := by
  intro c mem
  rcases blanks.valid c mem with rfl | rfl <;> decide

theorem comma_not_mem_of_isSpace {space : List Char} (isSpace : IsSpace space) : ',' ∉ space := by
  intro mem
  exact absurd (isSpace ',' mem) (by decide)

section Occurs

variable {test : List Char → Prop}

theorem occurs_of_not_mem {text : List Char} (absent : ',' ∉ text) :
    Occurs test text ↔ test text := by
  simp only [Occurs, List.splitOn_eq_singleton absent, List.mem_singleton, exists_eq_left]

theorem occurs_append_comma (front back : List Char) :
    Occurs test (front ++ ',' :: back) ↔ Occurs test front ∨ Occurs test back := by
  simp only [Occurs, List.splitOn_append_cons_self, List.mem_append, or_and_right, exists_or]

/-- A text without comma, or its parts around the last one. -/
theorem comma_cases (text : List Char) :
    ',' ∉ text ∨ ∃ front back, text = front ++ ',' :: back ∧ ',' ∉ back := by
  induction text with
  | nil => exact Or.inl List.not_mem_nil
  | cons c text ih =>
      rcases ih with absent | ⟨front, back, rfl, absent⟩
      · by_cases comma : c = ','
        · exact Or.inr ⟨[], text, by rw [comma, List.nil_append], absent⟩
        · refine Or.inl ?_
          rw [List.mem_cons, not_or]
          exact ⟨Ne.symm comma, absent⟩
      · exact Or.inr ⟨c :: front, back, rfl, absent⟩

theorem occurs_append_space (ignores : IgnoresSpace test) (text : List Char) {space : List Char}
    (isSpace : IsSpace space) : Occurs test (text ++ space) ↔ Occurs test text := by
  have noComma := comma_not_mem_of_isSpace isSpace
  have single : ∀ part, ',' ∉ part → (Occurs test (part ++ space) ↔ Occurs test part) := by
    intro part absent
    have padded : ',' ∉ part ++ space := by simp [absent, noComma]
    rw [occurs_of_not_mem padded, occurs_of_not_mem absent, ignores.after space part isSpace]
  rcases comma_cases text with absent | ⟨front, back, rfl, absent⟩
  · exact single text absent
  · rw [List.append_assoc, List.cons_append, occurs_append_comma, occurs_append_comma,
      single back absent]

theorem occurs_space_append (ignores : IgnoresSpace test) (text : List Char) {space : List Char}
    (isSpace : IsSpace space) : Occurs test (space ++ text) ↔ Occurs test text := by
  have noComma := comma_not_mem_of_isSpace isSpace
  have single : ∀ part, ',' ∉ part → (Occurs test (space ++ part) ↔ Occurs test part) := by
    intro part absent
    have padded : ',' ∉ space ++ part := by simp [absent, noComma]
    rw [occurs_of_not_mem padded, occurs_of_not_mem absent, ignores.before space part isSpace]
  by_cases comma : ',' ∈ text
  · rcases List.eq_append_cons_of_mem comma with ⟨front, back, rfl, absent⟩
    rw [← List.append_assoc, occurs_append_comma, occurs_append_comma, single front absent]
  · exact single text comma

/-- Whitespace before the text is not part of what occurs in it. -/
theorem occurs_dropWhile (ignores : IgnoresSpace test) (text : List Char) :
    Occurs test (text.dropWhile Text.isWhitespace) ↔ Occurs test text := by
  have isSpace : IsSpace (text.takeWhile Text.isWhitespace) :=
    fun c mem => List.mem_takeWhile_imp mem
  have cut := occurs_space_append ignores (text.dropWhile Text.isWhitespace) isSpace
  rwa [List.takeWhile_append_dropWhile, Iff.comm] at cut

/-- What occurs in a list of items occurs in one of them. -/
theorem occurs_items (ignores : IgnoresSpace test) (head : List Char)
    (items : List (Separator × Item)) :
    Occurs test (head ++ itemsText items) ↔
      Occurs test head ∨ ∃ entry ∈ items, Occurs test entry.2.text := by
  induction items generalizing head with
  | nil => simp [itemsText]
  | cons entry items ih =>
      rcases entry with ⟨⟨before, after⟩, item⟩
      have cut : head ++ itemsText ((⟨before, after⟩, item) :: items) =
          (head ++ before.chars) ++ ',' :: ((after.chars ++ item.text) ++ itemsText items) := by
        simp only [itemsText_cons, Separator.text, List.append_assoc, List.cons_append]
      rw [cut, occurs_append_comma, occurs_append_space ignores head before.isSpace, ih,
        occurs_space_append ignores item.text after.isSpace]
      simp only [List.mem_cons, exists_eq_or_imp]

end Occurs

/-! ## Characters of tokens -/

namespace Token

variable (token : Token)

theorem ascii_of_isTokenChar {c : Char} (valid : isTokenChar c = true) : c.toNat < 128 := by
  rw [isTokenChar, Bool.or_eq_true] at valid
  rcases valid with alphanum | punctuation
  · exact Text.ascii_of_isAlphanum alphanum
  · have all : "!#$%&'*+-.^_`|~".toList.all (fun c => decide (c.toNat < 128)) = true := by decide
    exact of_decide_eq_true (List.all_eq_true.mp all c (List.contains_iff_mem.mp punctuation))

theorem solid_of_isTokenChar {c : Char} (valid : isTokenChar c = true) :
    Text.isWhitespace c = false := by
  have checked : isTokenChar c = true → Text.isWhitespace c = false := by
    apply Text.of_ascii (fun c => isTokenChar c = true → Text.isWhitespace c = false) _
      (ascii_of_isTokenChar valid)
    decide +kernel
  exact checked valid

theorem solid : ∀ c ∈ token.chars, Text.isWhitespace c = false :=
  fun c mem => solid_of_isTokenChar (token.valid c mem)

/-- No other character is in a token. -/
theorem not_mem {c : Char} (other : isTokenChar c = false) : c ∉ token.chars := by
  intro mem
  rw [token.valid c mem] at other
  cases other

end Token

/-- No other character than a space stands behind a scheme. -/
theorem Challenge.not_mem_opening (scheme : Token) (moreSpaces : Nat) {c : Char}
    (other : isTokenChar c = false) (notSpace : c ≠ ' ') : c ∉ opening scheme moreSpaces := by
  rw [opening, List.mem_append, List.mem_cons, List.mem_replicate]
  rintro (inScheme | isSpace | inSpaces)
  · exact scheme.not_mem other inScheme
  · exact notSpace isSpace
  · exact notSpace inSpaces.2

/-! ## Characters of header values -/

/-- The text can stand in a header value. -/
def IsField (text : List Char) : Prop := ∀ c ∈ text, isFieldChar c = true

theorem IsField.append {front back : List Char} (frontField : IsField front)
    (backField : IsField back) : IsField (front ++ back) := by
  intro c mem
  rcases List.mem_append.mp mem with inFront | inBack
  · exact frontField c inFront
  · exact backField c inBack

theorem IsField.cons {c : Char} (valid : isFieldChar c = true) {text : List Char}
    (field : IsField text) : IsField (c :: text) := by
  rw [IsField, List.forall_mem_cons]
  exact ⟨valid, field⟩

theorem isFieldChar_of_isTokenChar {c : Char} (valid : isTokenChar c = true) :
    isFieldChar c = true := by
  have checked : isTokenChar c = true → isFieldChar c = true := by
    apply Text.of_ascii (fun c => isTokenChar c = true → isFieldChar c = true) _
      (Token.ascii_of_isTokenChar valid)
    decide +kernel
  exact checked valid

theorem Token.isField (token : Token) : IsField token.chars :=
  fun c mem => isFieldChar_of_isTokenChar (token.valid c mem)

theorem Blanks.isField (blanks : Blanks) : IsField blanks.chars := by
  intro c mem
  rcases blanks.valid c mem with rfl | rfl <;> decide

theorem QuotedChar.isField (quoted : QuotedChar) : IsField quoted.spelled := by
  have nil : IsField [] := fun c mem => absurd mem List.not_mem_nil
  cases quoted with
  | text c valid =>
      apply IsField.cons _ nil
      simp only [isQuotedText, isFieldChar, Bool.or_eq_true, Bool.and_eq_true] at valid ⊢
      rcases valid with (tab | ⟨⟨visible, notQuote⟩, notBackslash⟩) | above
      · exact Or.inl (Or.inl tab)
      · exact Or.inl (Or.inr visible)
      · exact Or.inr above
  | pair c valid => exact IsField.cons (by decide) (IsField.cons valid nil)

theorem ParamValue.isField (value : ParamValue) : IsField value.text := by
  cases value with
  | token word => exact word.isField
  | quoted content =>
      apply IsField.cons (by decide)
      apply IsField.append
      · intro c mem
        rcases List.mem_flatMap.mp mem with ⟨quoted, _, inside⟩
        exact quoted.isField c inside
      · intro c mem
        rw [List.mem_singleton.mp mem]
        decide

theorem Param.isField (param : Param) : IsField param.text :=
  (param.name.isField.append param.beforeEquals.isField).append
    (IsField.cons (by decide) (param.afterEquals.isField.append param.value.isField))

theorem Challenge.isField_opening (scheme : Token) (moreSpaces : Nat) :
    IsField (opening scheme moreSpaces) := by
  apply scheme.isField.append
  apply IsField.cons (by decide)
  intro c mem
  rw [List.eq_of_mem_replicate mem]
  decide

theorem Item.isField (item : Item) : IsField item.text := by
  cases item with
  | param p => exact p.isField
  | bare scheme => exact scheme.isField
  | opens scheme moreSpaces p =>
      exact (Challenge.isField_opening scheme moreSpaces).append p.isField

theorem Separator.isField (separator : Separator) : IsField separator.text :=
  separator.before.isField.append (IsField.cons (by decide) separator.after.isField)

theorem Challenges.isField (challenges : Challenges) : IsField challenges.text := by
  rw [text_eq]
  apply challenges.first.head.isField.append
  intro c mem
  rcases List.mem_flatMap.mp mem with ⟨entry, _, inside⟩
  exact entry.1.isField.append entry.2.isField c inside

/-! ## Quoted strings -/

namespace QuotedChar

variable (quoted : QuotedChar)

theorem spelled_of_not_mem (plain : '\\' ∉ quoted.spelled) : quoted.spelled = [quoted.meaning] := by
  cases quoted with
  | text c valid => rfl
  | pair c valid => exact absurd List.mem_cons_self plain

/-- A quote is spelled behind a backslash only. -/
theorem quote_not_mem (plain : '\\' ∉ quoted.spelled) : '"' ∉ quoted.spelled := by
  cases quoted with
  | text c valid =>
      intro mem
      rw [← List.mem_singleton.mp mem] at valid
      exact absurd valid (by decide)
  | pair c valid => exact absurd List.mem_cons_self plain

end QuotedChar

namespace ParamValue

variable (value : ParamValue)

/-- Without a backslash, a value stands for what it spells. -/
theorem meaning_eq_spelled (plain : '\\' ∉ value.spelled) : value.meaning = value.spelled := by
  cases value with
  | token word => rfl
  | quoted content =>
      rw [meaning, spelled, List.map_eq_flatMap]
      apply List.flatMap_congr
      intro quoted mem
      have absent : '\\' ∉ quoted.spelled :=
        fun inside => plain (List.mem_flatMap.mpr ⟨quoted, mem, inside⟩)
      exact (quoted.spelled_of_not_mem absent).symm

theorem quote_not_mem (plain : '\\' ∉ value.spelled) : '"' ∉ value.spelled := by
  cases value with
  | token word => exact word.not_mem (by decide)
  | quoted content =>
      intro mem
      rcases List.mem_flatMap.mp mem with ⟨quoted, quotedMem, inside⟩
      have absent : '\\' ∉ quoted.spelled :=
        fun within => plain (List.mem_flatMap.mpr ⟨quoted, quotedMem, within⟩)
      exact quoted.quote_not_mem absent inside

end ParamValue

/-! ## Ends of texts -/

/-- The text ends with another character than whitespace. -/
def EndsSolid (text : List Char) : Prop :=
  ∃ front last, text = front ++ [last] ∧ Text.isWhitespace last = false

/-- The text begins with another character than whitespace. -/
def StartsSolid (text : List Char) : Prop :=
  ∃ first rest, text = first :: rest ∧ Text.isWhitespace first = false

theorem StartsSolid.append {front : List Char} (starts : StartsSolid front) (back : List Char) :
    StartsSolid (front ++ back) := by
  rcases starts with ⟨first, rest, rfl, solid⟩
  exact ⟨first, rest ++ back, rfl, solid⟩

theorem strip_of_solid {text : List Char} (starts : StartsSolid text) (ends : EndsSolid text) :
    Text.strip Text.isWhitespace text = text := by
  rcases starts with ⟨first, rest, begins, firstSolid⟩
  rcases ends with ⟨front, last, concat, lastSolid⟩
  exact Text.strip_eq_self begins firstSolid concat lastSolid

theorem EndsSolid.append {back : List Char} (ends : EndsSolid back) (front : List Char) :
    EndsSolid (front ++ back) := by
  rcases ends with ⟨init, last, rfl, solid⟩
  exact ⟨front ++ init, last, (List.append_assoc _ _ _).symm, solid⟩

theorem Token.endsSolid (token : Token) : EndsSolid token.chars := by
  rcases List.eq_nil_or_concat token.chars with empty | ⟨front, last, cut⟩
  · exact absurd empty token.nonempty
  · rw [List.concat_eq_append] at cut
    have mem : last ∈ token.chars := by simp [cut]
    exact ⟨front, last, cut, token.solid last mem⟩

theorem Token.startsSolid (token : Token) : StartsSolid token.chars := by
  cases cut : token.chars with
  | nil => exact absurd cut token.nonempty
  | cons first rest =>
      have mem : first ∈ token.chars := by simp [cut]
      exact ⟨first, rest, rfl, token.solid first mem⟩

theorem ParamValue.startsSolid (value : ParamValue) : StartsSolid value.text := by
  cases value with
  | token word => exact word.startsSolid
  | quoted content => exact ⟨'"', content.flatMap QuotedChar.spelled ++ ['"'], rfl, by decide⟩

theorem ParamValue.endsSolid (value : ParamValue) : EndsSolid value.text := by
  cases value with
  | token word => exact word.endsSolid
  | quoted content =>
      exact ⟨'"' :: content.flatMap QuotedChar.spelled, '"', rfl, by decide⟩

theorem Param.endsSolid (param : Param) : EndsSolid param.text := by
  have behind := param.value.endsSolid.append ('=' :: param.afterEquals.chars)
  rw [List.cons_append] at behind
  exact behind.append param.key

theorem Challenge.startsSolid_head (challenge : Challenge) : StartsSolid challenge.head.text := by
  cases challenge with
  | bare scheme => exact scheme.startsSolid
  | withParams scheme moreSpaces first rest =>
      exact (scheme.startsSolid.append _).append first.text

theorem Item.endsSolid (item : Item) : EndsSolid item.text := by
  cases item with
  | param p => exact p.endsSolid
  | bare scheme => exact scheme.endsSolid
  | opens scheme moreSpaces p => exact p.endsSolid.append (Challenge.opening scheme moreSpaces)

theorem endsSolid_items {head : List Char} (ends : EndsSolid head)
    (items : List (Separator × Item)) : EndsSolid (head ++ itemsText items) := by
  induction items generalizing head with
  | nil => rwa [itemsText, List.flatMap_nil, List.append_nil]
  | cons entry items ih =>
      rcases entry with ⟨separator, item⟩
      rw [itemsText_cons, ← List.append_assoc]
      exact ih ((item.endsSolid.append separator.text).append head)

/-- No whitespace stands around a value. -/
theorem Challenges.strip_text (challenges : Challenges) :
    Text.strip Text.isWhitespace challenges.text = challenges.text := by
  rw [text_eq]
  exact strip_of_solid (challenges.first.startsSolid_head.append _)
    (endsSolid_items challenges.first.head.endsSolid challenges.items)

end Skybase.Auth
