import Skybase.Auth.Core
import Skybase.Repo.Client

/-!
# Recognising nonce challenges

The repository client reads a challenge as one scheme and parts between commas.
A part reads `error=use_dpop_nonce` if it consists of the two words around an
equals sign, with whitespace around both and with quotes around the second.
What the client sees in a header value that follows the grammar of challenges is
told item by item, and compared with what the challenges in it mean.
-/

namespace Skybase.Repo

open Skybase.Auth

/-! ## Words -/

/-- The characters are those of the word, in any case. -/
def Spells (chars : List Char) (word : String) : Prop :=
  Text.eqIgnoreAsciiCase (String.ofList chars) word = true

instance (chars : List Char) (word : String) : Decidable (Spells chars word) :=
  inferInstanceAs (Decidable (_ = true))

theorem spells_iff {chars : List Char} {word : String} :
    Spells chars word ↔ chars.map Char.toLower = word.toList.map Char.toLower := by
  rw [Spells, Text.eqIgnoreAsciiCase, beq_iff_eq, String.toList_ofList]

/-- A character of no letter of the word is not in a text that spells it. -/
theorem Spells.not_mem {chars : List Char} {word : String} (spelled : Spells chars word) {c : Char}
    (other : c.toLower ∉ word.toList.map Char.toLower) : c ∉ chars := by
  intro mem
  rw [spells_iff] at spelled
  rw [← spelled] at other
  exact other (List.mem_map_of_mem mem)

theorem not_spells_of_mem {chars : List Char} {word : String} {c : Char} (mem : c ∈ chars)
    (other : c.toLower ∉ word.toList.map Char.toLower) : ¬ Spells chars word :=
  fun spelled => spelled.not_mem other mem

/-- Letters are not whitespace in either case. -/
theorem isWhitespace_toLower (c : Char) : Text.isWhitespace c.toLower = Text.isWhitespace c := by
  by_cases upper : c.isUpper = true
  · have alphanum : c.isAlphanum = true := by simp [Text.isAlphanum_eq, upper]
    have checked : c.isUpper = true → Text.isWhitespace c.toLower = Text.isWhitespace c := by
      apply Text.of_ascii
        (fun c => c.isUpper = true → Text.isWhitespace c.toLower = Text.isWhitespace c) _
        (Text.ascii_of_isAlphanum alphanum)
      decide +kernel
    exact checked upper
  · rw [Text.isUpper_eq, decide_eq_true_eq] at upper
    have same : c.toLower = c := dif_neg upper
    rw [same]

theorem Spells.solid {chars : List Char} {word : String} (spelled : Spells chars word)
    (solid : (word.toList.map Char.toLower).any Text.isWhitespace = false) :
    ∀ c ∈ chars, Text.isWhitespace c = false := by
  intro c mem
  rw [spells_iff] at spelled
  rw [← spelled, List.any_eq_false] at solid
  rw [← isWhitespace_toLower, Bool.eq_false_iff]
  exact solid c.toLower (List.mem_map_of_mem mem)

/-! ## Parts -/

/-- What the closure over the parts of a challenge decides. -/
def readsNonceError (param : String) : Bool :=
  match Text.splitOnce (Text.trim param) '=' with
  | none => false
  | some (key, value) =>
      Text.eqIgnoreAsciiCase (Text.trim key) "error" &&
        Text.eqIgnoreAsciiCase (Text.trimMatches (Text.trim value) '"') "use_dpop_nonce"

theorem isDpopNonceChallenge_eq (challenge : String) :
    isDpopNonceChallenge challenge =
      match Text.splitAtChar (Text.trim challenge) ' ' with
      | none => false
      | some (scheme, rest) =>
          Text.eqIgnoreAsciiCase scheme "DPoP" &&
            (Text.split (Text.trimStart rest) ',').any readsNonceError := by
  unfold isDpopNonceChallenge
  cases Text.splitAtChar (Text.trim challenge) ' ' with
  | none => rfl
  | some parts =>
      apply congrArg (Text.eqIgnoreAsciiCase parts.1 "DPoP" && ·)
      apply congrArg (List.any (Text.split (Text.trimStart parts.2) ','))
      funext param
      unfold readsNonceError
      cases Text.splitOnce (Text.trim param) '=' with
      | none => rfl
      | some entry => rfl

/-- The characters of a kind around a core. -/
def Around (kind : Char → Bool) (core chars : List Char) : Prop :=
  ∃ front back : List Char, (∀ c ∈ front, kind c = true) ∧ (∀ c ∈ back, kind c = true) ∧
    chars = front ++ core ++ back

/-- The part is `error`, an equals sign and `use_dpop_nonce`, with whitespace around the words
and quotes around the second. -/
def SpellsNonceError (part : List Char) : Prop :=
  ∃ key value name quoted word : List Char,
    part = key ++ '=' :: value ∧
      Around Text.isWhitespace name key ∧ Spells name "error" ∧
        Around Text.isWhitespace quoted value ∧ Around (· == '"') word quoted ∧
          Spells word "use_dpop_nonce"

theorem around_strip (kind : Char → Bool) (chars : List Char) :
    Around kind (Text.strip kind chars) chars :=
  Text.exists_eq_append_strip kind chars

theorem Around.strip_eq {kind : Char → Bool} {core chars : List Char}
    (around : Around kind core chars) : Text.strip kind chars = Text.strip kind core := by
  rcases around with ⟨front, back, frontKind, backKind, rfl⟩
  rw [Text.strip_append_right backKind, Text.strip_append_left frontKind]

theorem trimMatches_eq (chars : List Char) (c : Char) :
    Text.trimMatches (String.ofList chars) c = String.ofList (Text.strip (· == c) chars) := by
  rw [Text.trimMatches, String.toList_ofList, Text.strip]

theorem trim_ofList (chars : List Char) :
    Text.trim (String.ofList chars) = String.ofList (Text.strip Text.isWhitespace chars) := by
  rw [Text.trim_eq_strip, String.toList_ofList]

theorem readsNonceError_of_not_mem {part : List Char} (absent : '=' ∉ part) :
    readsNonceError (String.ofList part) = false := by
  rcases around_strip Text.isWhitespace part with ⟨front, back, _, _, cut⟩
  have inside : '=' ∉ Text.strip Text.isWhitespace part := by
    intro mem
    rw [cut] at absent
    simp [mem] at absent
  rw [readsNonceError, trim_ofList, Text.splitOnce_of_not_mem inside]

/-- A part is read at its first equals sign. -/
theorem readsNonceError_append_iff {key : List Char} (absent : '=' ∉ key) (value : List Char) :
    readsNonceError (String.ofList (key ++ '=' :: value)) = true ↔
      Spells (Text.strip Text.isWhitespace key) "error" ∧
        Spells (Text.strip (· == '"') (Text.strip Text.isWhitespace value)) "use_dpop_nonce" := by
  have front : '=' ∉ key.dropWhile Text.isWhitespace :=
    fun mem => absent ((List.dropWhile_sublist Text.isWhitespace).mem mem)
  rw [readsNonceError, trim_ofList, Text.strip_append_cons (by decide),
    Text.splitOnce_append front]
  dsimp only
  rw [trim_ofList, trim_ofList, trimMatches_eq, Text.strip_dropWhile, Text.strip_rdropWhile,
    Bool.and_eq_true]
  rfl

theorem readsNonceError_iff (part : List Char) :
    readsNonceError (String.ofList part) = true ↔ SpellsNonceError part := by
  constructor
  · intro reads
    by_cases equals : '=' ∈ part
    · rcases List.eq_append_cons_of_mem equals with ⟨key, value, rfl, absent⟩
      rw [readsNonceError_append_iff absent] at reads
      exact ⟨key, value, _, _, _, rfl, around_strip _ key, reads.1, around_strip _ value,
        around_strip _ _, reads.2⟩
    · rw [readsNonceError_of_not_mem equals] at reads
      cases reads
  · rintro ⟨key, value, name, quoted, word, rfl, nameIn, nameSpelled, quotedIn, wordIn, wordSpelled⟩
    have nameSolid := nameSpelled.solid (by decide)
    have wordSolid := wordSpelled.solid (by decide)
    have quotedSolid : ∀ c ∈ quoted, Text.isWhitespace c = false := by
      rcases wordIn with ⟨opening, closing, openingQuotes, closingQuotes, rfl⟩
      intro c mem
      rw [List.mem_append, List.mem_append] at mem
      rcases mem with (mem | mem) | mem
      · rw [beq_iff_eq.mp (openingQuotes c mem)]
        decide
      · exact wordSolid c mem
      · rw [beq_iff_eq.mp (closingQuotes c mem)]
        decide
    have absent : '=' ∉ key := by
      rcases nameIn with ⟨front, back, frontSpace, backSpace, rfl⟩
      intro mem
      rw [List.mem_append, List.mem_append] at mem
      rcases mem with (mem | mem) | mem
      · exact absurd (frontSpace '=' mem) (by decide)
      · exact nameSpelled.not_mem (by decide) mem
      · exact absurd (backSpace '=' mem) (by decide)
    have noQuote : ∀ c ∈ word, (c == '"') = false := by
      intro c mem
      rw [beq_eq_false_iff_ne]
      rintro rfl
      exact wordSpelled.not_mem (by decide) mem
    rw [readsNonceError_append_iff absent, nameIn.strip_eq, Text.strip_eq_self_of_forall nameSolid,
      quotedIn.strip_eq, Text.strip_eq_self_of_forall quotedSolid, wordIn.strip_eq,
      Text.strip_eq_self_of_forall noQuote]
    exact ⟨nameSpelled, wordSpelled⟩

theorem spellsNonceError_ignoresSpace : IgnoresSpace SpellsNonceError where
  before space part isSpace := by
    rw [← readsNonceError_iff, ← readsNonceError_iff, readsNonceError, trim_ofList,
      Text.strip_append_left isSpace, ← trim_ofList, ← readsNonceError]
  after space part isSpace := by
    rw [← readsNonceError_iff, ← readsNonceError_iff, readsNonceError, trim_ofList,
      Text.strip_append_right isSpace, ← trim_ofList, ← readsNonceError]

/-- What a part spells has no comma. -/
theorem SpellsNonceError.comma_not_mem {part : List Char} (spelled : SpellsNonceError part) :
    ',' ∉ part := by
  have inAround : ∀ (kind : Char → Bool) (core chars : List Char), kind ',' = false →
      Around kind core chars → ',' ∈ chars → ',' ∈ core := by
    intro kind core chars other around mem
    rcases around with ⟨front, back, frontKind, backKind, rfl⟩
    rw [List.mem_append, List.mem_append] at mem
    rcases mem with (mem | mem) | mem
    · rw [frontKind ',' mem] at other
      cases other
    · exact mem
    · rw [backKind ',' mem] at other
      cases other
  rcases spelled with
    ⟨key, value, name, quoted, word, rfl, nameIn, nameSpelled, quotedIn, wordIn, wordSpelled⟩
  intro mem
  rw [List.mem_append, List.mem_cons] at mem
  rcases mem with inKey | isEquals | inValue
  · exact nameSpelled.not_mem (by decide) (inAround _ name key (by decide) nameIn inKey)
  · exact absurd isEquals (by decide)
  · have inQuoted := inAround _ quoted value (by decide) quotedIn inValue
    exact wordSpelled.not_mem (by decide) (inAround _ word quoted (by decide) wordIn inQuoted)

/-! ## Parameters -/

/-- The parameter is `error=use_dpop_nonce`. -/
def MeansNonceError (param : Param) : Prop :=
  Spells param.name.chars "error" ∧ Spells param.value.meaning "use_dpop_nonce"

/-- The parameter spells the error up to a comma inside its quoted string. -/
def BeginsNonceError (param : Param) : Prop :=
  ∃ part rest, param.text = part ++ ',' :: rest ∧ ',' ∉ part ∧ SpellsNonceError part

/-- The quoted string of the parameter has the error spelled in it, behind a comma. -/
def QuotesNonceError (param : Param) : Prop :=
  ∃ part rest, param.text = part ++ ',' :: rest ∧ ',' ∉ part ∧ Occurs SpellsNonceError rest

section Param

variable (param : Param)

theorem equals_not_mem_key : '=' ∉ param.key := by
  rw [Param.key, List.mem_append, not_or]
  refine ⟨param.name.not_mem (by decide), fun mem => ?_⟩
  exact absurd (param.beforeEquals.isSpace '=' mem) (by decide)

theorem comma_not_mem_key : ',' ∉ param.key := by
  rw [Param.key, List.mem_append, not_or]
  exact ⟨param.name.not_mem (by decide), comma_not_mem_of_isSpace param.beforeEquals.isSpace⟩

theorem strip_key : Text.strip Text.isWhitespace param.key = param.name.chars := by
  rw [Param.key, Text.strip_append_right param.beforeEquals.isSpace,
    Text.strip_eq_self_of_forall param.name.solid]

/-- Quotes cut off the ends of a quoted string do not change whether it spells the word. -/
theorem spells_strip_text_iff (value : ParamValue) :
    Spells (Text.strip (· == '"') value.text) "use_dpop_nonce" ↔
      Spells value.meaning "use_dpop_nonce" ∧ '\\' ∉ value.spelled := by
  have inner : Text.strip (· == '"') value.text = Text.strip (· == '"') value.spelled := by
    cases value with
    | token word => rfl
    | quoted content =>
        have quote : ∀ c ∈ ['"'], (c == '"') = true := by simp
        rw [ParamValue.text, Text.strip_append_right quote, ← List.singleton_append,
          Text.strip_append_left quote, ParamValue.spelled]
  rw [inner]
  by_cases backslash : '\\' ∈ value.spelled
  · have kept : '\\' ∈ Text.strip (· == '"') value.spelled := Text.mem_strip backslash (by decide)
    exact iff_of_false (not_spells_of_mem kept (by decide)) fun plain => plain.2 backslash
  · have noQuote : ∀ c ∈ value.spelled, (c == '"') = false := by
      intro c mem
      rw [beq_eq_false_iff_ne]
      rintro rfl
      exact value.quote_not_mem backslash mem
    rw [Text.strip_eq_self_of_forall noQuote, value.meaning_eq_spelled backslash,
      and_iff_left backslash]

/-- The whole text of a parameter is read as it is meant, but for backslashes. -/
theorem spellsNonceError_text_iff :
    SpellsNonceError param.text ↔ MeansNonceError param ∧ '\\' ∉ param.value.spelled := by
  rw [← readsNonceError_iff, Param.text, readsNonceError_append_iff (equals_not_mem_key param),
    strip_key, Text.strip_append_left param.afterEquals.isSpace,
    strip_of_solid param.value.startsSolid param.value.endsSolid, spells_strip_text_iff,
    MeansNonceError, and_assoc]

/-- What is seen in a parameter whose text is cut at every comma. -/
theorem occurs_text_iff :
    Occurs SpellsNonceError param.text ↔
      MeansNonceError param ∧ '\\' ∉ param.value.spelled ∨
        BeginsNonceError param ∨ QuotesNonceError param := by
  rw [← spellsNonceError_text_iff]
  constructor
  · intro occurs
    by_cases comma : ',' ∈ param.text
    · rcases List.eq_append_cons_of_mem comma with ⟨part, rest, cut, absent⟩
      rw [cut, occurs_append_comma, occurs_of_not_mem absent] at occurs
      rcases occurs with first | later
      · exact Or.inr (Or.inl ⟨part, rest, cut, absent, first⟩)
      · exact Or.inr (Or.inr ⟨part, rest, cut, absent, later⟩)
    · exact Or.inl ((occurs_of_not_mem comma).mp occurs)
  · rintro (whole | ⟨part, rest, cut, absent, first⟩ | ⟨part, rest, cut, _, later⟩)
    · exact (occurs_of_not_mem whole.comma_not_mem).mpr whole
    · rw [cut, occurs_append_comma, occurs_of_not_mem absent]
      exact Or.inl first
    · rw [cut, occurs_append_comma]
      exact Or.inr later

/-- A scheme before a parameter hides its name. -/
theorem not_spellsNonceError_opening (scheme : Token) (moreSpaces : Nat) (value : List Char) :
    ¬ SpellsNonceError (Challenge.opening scheme moreSpaces ++ (param.key ++ '=' :: value)) := by
  have space : ' ' ∈ Challenge.opening scheme moreSpaces := by simp [Challenge.opening]
  have noEquals : '=' ∉ Challenge.opening scheme moreSpaces ++ param.key := by
    rw [List.mem_append, not_or]
    exact ⟨Challenge.not_mem_opening scheme moreSpaces (by decide) (by decide),
      equals_not_mem_key param⟩
  have stripped : Text.strip Text.isWhitespace (Challenge.opening scheme moreSpaces ++ param.key) =
      Challenge.opening scheme moreSpaces ++ param.name.chars := by
    rw [Param.key, ← List.append_assoc, Text.strip_append_right param.beforeEquals.isSpace]
    exact strip_of_solid ((scheme.startsSolid.append _).append _) (param.name.endsSolid.append _)
  rw [← readsNonceError_iff, ← List.append_assoc, readsNonceError_append_iff noEquals, stripped]
  intro spelled
  exact spelled.1.not_mem (by decide) (List.mem_append_left _ space)

/-- Behind the scheme of a further challenge, only what a quoted string has behind a comma is
seen. -/
theorem occurs_opening_iff (scheme : Token) (moreSpaces : Nat) :
    Occurs SpellsNonceError (Challenge.opening scheme moreSpaces ++ param.text) ↔
      QuotesNonceError param := by
  have openingAbsent : ',' ∉ Challenge.opening scheme moreSpaces :=
    Challenge.not_mem_opening scheme moreSpaces (by decide) (by decide)
  constructor
  · intro occurs
    by_cases comma : ',' ∈ param.afterEquals.chars ++ param.value.text
    · rcases List.eq_append_cons_of_mem comma with ⟨value, rest, valueCut, absent⟩
      have cut : param.text = (param.key ++ '=' :: value) ++ ',' :: rest := by
        rw [Param.text, valueCut, List.append_assoc, List.cons_append]
      have partAbsent : ',' ∉ param.key ++ '=' :: value := by
        simp [comma_not_mem_key param, absent]
      have headAbsent :
          ',' ∉ Challenge.opening scheme moreSpaces ++ (param.key ++ '=' :: value) := by
        rw [List.mem_append, not_or]
        exact ⟨openingAbsent, partAbsent⟩
      rw [cut, ← List.append_assoc, occurs_append_comma, occurs_of_not_mem headAbsent] at occurs
      rcases occurs with first | later
      · exact absurd first (not_spellsNonceError_opening param scheme moreSpaces value)
      · exact ⟨param.key ++ '=' :: value, rest, cut, partAbsent, later⟩
    · have wholeAbsent : ',' ∉ Challenge.opening scheme moreSpaces ++ param.text := by
        rw [Param.text, List.mem_append, List.mem_append, List.mem_cons, not_or, not_or, not_or]
        exact ⟨openingAbsent, comma_not_mem_key param, by decide, comma⟩
      rw [occurs_of_not_mem wholeAbsent] at occurs
      exact absurd occurs (not_spellsNonceError_opening param scheme moreSpaces _)
  · rintro ⟨part, rest, cut, _, later⟩
    rw [cut, ← List.append_assoc, occurs_append_comma]
    exact Or.inr later

end Param

/-! ## Values -/

/-- A challenge with the scheme `DPoP` has the parameter. -/
def AnnouncesNonceError (challenges : Challenges) : Prop :=
  ∃ challenge ∈ challenges.all, Spells challenge.scheme.chars "DPoP" ∧
    ∃ param ∈ challenge.params, MeansNonceError param

/-- The first scheme is `DPoP`, and a space follows it. -/
structure OpensWithDpop (challenges : Challenges) : Prop where
  scheme : Spells challenges.first.scheme.chars "DPoP"
  space : challenges.first.params ≠ [] ∨
    ∃ entry rest, challenges.rest = entry :: rest ∧ entry.1.before.chars.head? = some ' '

/-- Some parameter is the error, or has it at a comma inside its quoted string.  A parameter
behind the scheme of a further challenge has only what stands behind a comma. -/
def ExposesNonceError (challenges : Challenges) : Prop :=
  (∃ param ∈ challenges.exposedParams,
    MeansNonceError param ∧ '\\' ∉ param.value.spelled ∨ BeginsNonceError param) ∨
      ∃ param ∈ challenges.params, QuotesNonceError param

section Value

variable (challenges : Challenges)

theorem occurs_head_iff (challenge : Challenge) :
    Occurs SpellsNonceError challenge.head.text ↔
      ∃ param, challenge.params.head? = some param ∧ QuotesNonceError param := by
  cases challenge with
  | bare scheme =>
      have noEquals : '=' ∉ scheme.chars := scheme.not_mem (by decide)
      have noComma : ',' ∉ scheme.chars := scheme.not_mem (by decide)
      rw [Challenge.head, Item.text, occurs_of_not_mem noComma, ← readsNonceError_iff,
        readsNonceError_of_not_mem noEquals]
      simp [Challenge.params]
  | withParams scheme moreSpaces first rest =>
      rw [Challenge.head, Item.text, occurs_opening_iff]
      simp [Challenge.params]

/-- What is seen in the items behind a first scheme. -/
theorem exposesNonceError_iff :
    ExposesNonceError challenges ↔
      (∃ param, challenges.first.params.head? = some param ∧ Occurs SpellsNonceError param.text) ∨
        ∃ entry ∈ challenges.items, Occurs SpellsNonceError entry.2.text := by
  rw [challenges.exists_items fun item => Occurs SpellsNonceError item.text]
  simp only [occurs_head_iff]
  constructor
  · rintro (⟨param, exposed, shown⟩ | ⟨param, mem, quotes⟩)
    · have occurs : Occurs SpellsNonceError param.text := by
        rw [occurs_text_iff, ← or_assoc]
        exact Or.inl shown
      rcases List.mem_append.mp exposed with inFirst | inRest
      · rcases Challenge.mem_params_iff.mp inFirst with head | later
        · exact Or.inl ⟨param, head, occurs⟩
        · exact Or.inr (Or.inl ⟨param, later, occurs⟩)
      · rcases List.mem_flatMap.mp inRest with ⟨entry, entryMem, later⟩
        exact Or.inr (Or.inr ⟨entry, entryMem, Or.inr ⟨param, later, occurs⟩⟩)
    · have occurs : Occurs SpellsNonceError param.text := by
        rw [occurs_text_iff]
        exact Or.inr (Or.inr quotes)
      rcases List.mem_flatMap.mp mem with ⟨challenge, challengeMem, inChallenge⟩
      rcases List.mem_cons.mp challengeMem with rfl | further
      · rcases Challenge.mem_params_iff.mp inChallenge with head | later
        · exact Or.inl ⟨param, head, occurs⟩
        · exact Or.inr (Or.inl ⟨param, later, occurs⟩)
      · rcases List.mem_map.mp further with ⟨entry, entryMem, rfl⟩
        rcases Challenge.mem_params_iff.mp inChallenge with head | later
        · exact Or.inr (Or.inr ⟨entry, entryMem, Or.inl ⟨param, head, quotes⟩⟩)
        · exact Or.inr (Or.inr ⟨entry, entryMem, Or.inr ⟨param, later, occurs⟩⟩)
  · have seen : ∀ param : Param, param ∈ challenges.exposedParams → param ∈ challenges.params →
        Occurs SpellsNonceError param.text → ExposesNonceError challenges := by
      intro param exposed mem occurs
      rw [occurs_text_iff, ← or_assoc] at occurs
      rcases occurs with shown | quotes
      · exact Or.inl ⟨param, exposed, shown⟩
      · exact Or.inr ⟨param, mem, quotes⟩
    have inFirst : ∀ param ∈ challenges.first.params, param ∈ challenges.params :=
      fun param mem => List.mem_flatMap.mpr ⟨challenges.first, List.mem_cons_self, mem⟩
    have inRest : ∀ entry ∈ challenges.rest, ∀ param ∈ entry.2.params,
        param ∈ challenges.params := by
      intro entry entryMem param mem
      have further : entry.2 ∈ challenges.all :=
        List.mem_cons_of_mem _ (List.mem_map_of_mem entryMem)
      exact List.mem_flatMap.mpr ⟨entry.2, further, mem⟩
    rintro (⟨param, head, occurs⟩ | ⟨param, later, occurs⟩ |
      ⟨entry, entryMem, ⟨param, head, quotes⟩ | ⟨param, later, occurs⟩⟩)
    · have mem := Challenge.mem_params_iff.mpr (Or.inl head)
      exact seen param (List.mem_append_left _ mem) (inFirst param mem) occurs
    · have mem := Challenge.mem_params_iff.mpr (Or.inr later)
      exact seen param (List.mem_append_left _ mem) (inFirst param mem) occurs
    · have mem := Challenge.mem_params_iff.mpr (Or.inl head)
      exact Or.inr ⟨param, inRest entry entryMem param mem, quotes⟩
    · have mem := Challenge.mem_params_iff.mpr (Or.inr later)
      have exposed : param ∈ challenges.exposedParams :=
        List.mem_append_right _ (List.mem_flatMap.mpr ⟨entry, entryMem, later⟩)
      exact seen param exposed (inRest entry entryMem param mem) occurs

/-- A text is read at its first space. -/
theorem isDpopNonceChallenge_append_iff {scheme rest : List Char} (absent : ' ' ∉ scheme)
    (trimmed : Text.strip Text.isWhitespace (scheme ++ ' ' :: rest) = scheme ++ ' ' :: rest) :
    isDpopNonceChallenge (String.ofList (scheme ++ ' ' :: rest)) = true ↔
      Spells scheme "DPoP" ∧ Occurs SpellsNonceError rest := by
  have any : (Text.split (Text.trimStart (String.ofList (' ' :: rest))) ',').any readsNonceError =
      true ↔ Occurs SpellsNonceError rest := by
    have space : IsSpace [' '] := by
      intro c mem
      rw [List.mem_singleton.mp mem]
      decide
    rw [Text.trimStart, Text.split, String.toList_ofList, String.toList_ofList, List.any_map,
      List.any_eq_true, ← occurs_space_append spellsNonceError_ignoresSpace rest space,
      List.singleton_append, ← occurs_dropWhile spellsNonceError_ignoresSpace, Occurs]
    simp only [Function.comp_apply, readsNonceError_iff]
  rw [isDpopNonceChallenge_eq, trim_ofList, trimmed, Text.splitAtChar_append absent]
  dsimp only
  rw [Bool.and_eq_true, any]
  rfl

/-- Another character behind the first scheme ends up in the scheme that is read. -/
theorem isDpopNonceChallenge_of_other {scheme rest : List Char} {c : Char} (absent : ' ' ∉ scheme)
    (trimmed : Text.strip Text.isWhitespace (scheme ++ c :: rest) = scheme ++ c :: rest)
    (notSpace : c ≠ ' ') (other : c.toLower ∉ "DPoP".toList.map Char.toLower) :
    isDpopNonceChallenge (String.ofList (scheme ++ c :: rest)) = false := by
  by_cases space : ' ' ∈ rest
  · rcases List.eq_append_cons_of_mem space with ⟨front, back, rfl, frontAbsent⟩
    have cut : scheme ++ c :: (front ++ ' ' :: back) = (scheme ++ c :: front) ++ ' ' :: back := by
      simp
    have readAbsent : ' ' ∉ scheme ++ c :: front := by
      simp [absent, frontAbsent, Ne.symm notSpace]
    rw [cut] at trimmed ⊢
    rw [Bool.eq_false_iff, Ne, isDpopNonceChallenge_append_iff readAbsent trimmed]
    exact fun reads => reads.1.not_mem other (by simp)
  · have wholeAbsent : ' ' ∉ scheme ++ c :: rest := by simp [absent, space, Ne.symm notSpace]
    rw [isDpopNonceChallenge_eq, trim_ofList, trimmed, Text.splitAtChar_of_not_mem wholeAbsent]

/-- Behind a scheme without parameters, a space must come before the comma. -/
theorem isDpopNonceChallenge_bare_iff (scheme : Token) (items : List (Separator × Item))
    (trimmed : Text.strip Text.isWhitespace (scheme.chars ++ itemsText items) =
      scheme.chars ++ itemsText items) :
    isDpopNonceChallenge (String.ofList (scheme.chars ++ itemsText items)) = true ↔
      (Spells scheme.chars "DPoP" ∧
        ∃ entry more, items = entry :: more ∧ entry.1.before.chars.head? = some ' ') ∧
        ∃ entry ∈ items, Occurs SpellsNonceError entry.2.text := by
  have absent : ' ' ∉ scheme.chars := scheme.not_mem (by decide)
  cases items with
  | nil =>
      have read : isDpopNonceChallenge (String.ofList (scheme.chars ++ itemsText [])) = false := by
        rw [isDpopNonceChallenge_eq, trim_ofList, trimmed, itemsText, List.flatMap_nil,
          List.append_nil, Text.splitAtChar_of_not_mem absent]
      rw [read]
      simp
  | cons entry more =>
      rcases entry with ⟨⟨⟨before, beforeValid⟩, after⟩, item⟩
      cases before with
      | nil =>
          have cut : scheme.chars ++
              itemsText ((⟨⟨[], beforeValid⟩, after⟩, item) :: more) =
              scheme.chars ++ ',' :: (after.chars ++ item.text ++ itemsText more) := by
            simp [Separator.text]
          rw [cut] at trimmed ⊢
          rw [isDpopNonceChallenge_of_other absent trimmed (by decide) (by decide)]
          simp
      | cons c blanks =>
          have blanksValid : ∀ d ∈ blanks, d = ' ' ∨ d = '\t' :=
            fun d mem => beforeValid d (List.mem_cons_of_mem c mem)
          have cut : scheme.chars ++
              itemsText ((⟨⟨c :: blanks, beforeValid⟩, after⟩, item) :: more) =
              scheme.chars ++ c ::
                ([] ++ itemsText ((⟨⟨blanks, blanksValid⟩, after⟩, item) :: more)) := by
            simp [Separator.text]
          rw [cut] at trimmed ⊢
          rcases beforeValid c List.mem_cons_self with rfl | rfl
          · have noPart : ¬ Occurs SpellsNonceError [] := by
              rw [occurs_of_not_mem List.not_mem_nil, ← readsNonceError_iff,
                readsNonceError_of_not_mem List.not_mem_nil]
              exact Bool.false_ne_true
            rw [isDpopNonceChallenge_append_iff absent trimmed,
              occurs_items spellsNonceError_ignoresSpace]
            simp [noPart]
          · rw [isDpopNonceChallenge_of_other absent trimmed (by decide) (by decide)]
            simp

/-- What the client sees in a value that follows the grammar. -/
theorem isDpopNonceChallenge_text_iff :
    isDpopNonceChallenge (String.ofList challenges.text) = true ↔
      OpensWithDpop challenges ∧ ExposesNonceError challenges := by
  have trimmed := challenges.strip_text
  rw [exposesNonceError_iff]
  rcases challenges with ⟨first, rest⟩
  cases first with
  | bare scheme =>
      rw [Challenges.text_eq] at trimmed ⊢
      have read := isDpopNonceChallenge_bare_iff scheme _ trimmed
      have opens : OpensWithDpop ⟨.bare scheme, rest⟩ ↔ Spells scheme.chars "DPoP" ∧
          ∃ entry more, Challenges.items ⟨.bare scheme, rest⟩ = entry :: more ∧
            entry.1.before.chars.head? = some ' ' := by
        constructor
        · rintro ⟨spelled, noParams | ⟨entry, more, rest_eq, space⟩⟩
          · exact absurd rfl noParams
          · rw [Challenges.items, rest_eq]
            exact ⟨spelled, (entry.1, entry.2.head), _, rfl, space⟩
        · rintro ⟨spelled, item, more, items_eq, space⟩
          cases rest with
          | nil => cases items_eq
          | cons entry rest =>
              cases items_eq
              exact ⟨spelled, Or.inr ⟨entry, rest, rfl, space⟩⟩
      rw [opens]
      have noHead : ¬ ∃ param, (Challenge.bare scheme).params.head? = some param ∧
          Occurs SpellsNonceError param.text := by
        rintro ⟨param, head, _⟩
        cases head
      rw [or_iff_right noHead]
      exact read
  | withParams scheme moreSpaces param later =>
      have absent : ' ' ∉ scheme.chars := scheme.not_mem (by decide)
      have spaces : IsSpace (List.replicate moreSpaces ' ') := by
        intro c mem
        rw [List.eq_of_mem_replicate mem]
        decide
      have opens : OpensWithDpop ⟨.withParams scheme moreSpaces param later, rest⟩ ↔
          Spells scheme.chars "DPoP" :=
        ⟨OpensWithDpop.scheme, fun spelled => ⟨spelled, Or.inl (List.cons_ne_nil _ _)⟩⟩
      rw [Challenges.text_eq, Challenge.head, Item.text, Challenge.opening, List.append_assoc,
        List.append_assoc, List.cons_append] at trimmed ⊢
      rw [isDpopNonceChallenge_append_iff absent trimmed, opens,
        occurs_space_append spellsNonceError_ignoresSpace _ spaces,
        occurs_items spellsNonceError_ignoresSpace]
      simp [Challenge.params]

end Value

/-! ## Headers -/

/-- The octets of a header value. -/
def fieldBytes (challenges : Challenges) : HeaderValue :=
  challenges.text.map fun c => UInt8.ofNat c.toNat

/-- The value is announced to the client. -/
structure ShowsNonceError (challenges : Challenges) : Prop where
  ascii : ∀ c ∈ challenges.text, c.toNat < 128
  opens : OpensWithDpop challenges
  exposes : ExposesNonceError challenges

/-- The octets that are read as text. -/
theorem isText_iff {c : Char} (field : isFieldChar c = true) :
    ((32 ≤ UInt8.ofNat c.toNat && UInt8.ofNat c.toNat < 127) || UInt8.ofNat c.toNat == 9) = true ↔
      c.toNat < 128 := by
  have bound : c.toNat < 256 ∧ (c.toNat = 9 ∨ 32 ≤ c.toNat ∧ c.toNat ≤ 126 ∨ 128 ≤ c.toNat) := by
    simp only [isFieldChar, Bool.or_eq_true, Bool.and_eq_true, beq_iff_eq, decide_eq_true_eq]
      at field
    omega
  have octet : (UInt8.ofNat c.toNat).toNat = c.toNat := UInt8.toNat_ofNat_of_lt' bound.1
  simp only [Bool.or_eq_true, Bool.and_eq_true, decide_eq_true_eq, beq_iff_eq,
    UInt8.le_iff_toNat_le, UInt8.lt_iff_toNat_lt, ← UInt8.toNat_inj, octet]
  change 32 ≤ c.toNat ∧ c.toNat < 127 ∨ c.toNat = 9 ↔ c.toNat < 128
  omega

theorem toStr_fieldBytes (challenges : Challenges) (text : String) :
    HeaderValue.toStr (fieldBytes challenges) = some text ↔
      (∀ c ∈ challenges.text, c.toNat < 128) ∧ String.ofList challenges.text = text := by
  have readable : (fieldBytes challenges).all
      (fun byte => (32 ≤ byte && byte < 127) || byte == 9) = true ↔
        ∀ c ∈ challenges.text, c.toNat < 128 := by
    rw [fieldBytes, List.all_map, List.all_eq_true]
    apply forall₂_congr
    intro c mem
    exact isText_iff (challenges.isField c mem)
  have back : (∀ c ∈ challenges.text, c.toNat < 128) →
      (fieldBytes challenges).map (fun byte => Char.ofNat byte.toNat) = challenges.text := by
    intro ascii
    have same : ∀ c ∈ challenges.text,
        ((fun byte : UInt8 => Char.ofNat byte.toNat) ∘ fun c : Char => UInt8.ofNat c.toNat) c =
          id c := by
      intro c mem
      have octet : (UInt8.ofNat c.toNat).toNat = c.toNat :=
        UInt8.toNat_ofNat_of_lt' (Nat.lt_trans (ascii c mem) (by decide))
      rw [Function.comp_apply, octet, Char.ofNat_toNat, id]
    rw [fieldBytes, List.map_map, List.map_congr_left same, List.map_id]
  rw [HeaderValue.toStr, Option.ite_none_right_eq_some, readable, Option.some.injEq]
  apply and_congr_right
  intro ascii
  rw [back ascii]

/-- The client recognises a challenge exactly if some value shows one. -/
theorem isRsDpopNonceChallenge_iff {headers : HeaderMap} {values : List Challenges}
    (carried : headers.getAll "www-authenticate" = values.map fieldBytes) :
    isRsDpopNonceChallenge headers = true ↔ ∃ value ∈ values, ShowsNonceError value := by
  rw [isRsDpopNonceChallenge, carried, List.any_eq_true]
  constructor
  · rintro ⟨text, mem, recognised⟩
    rcases List.mem_filterMap.mp mem with ⟨field, fieldMem, read⟩
    rcases List.mem_map.mp fieldMem with ⟨value, valueMem, rfl⟩
    rcases (toStr_fieldBytes value text).mp read with ⟨ascii, rfl⟩
    rcases (isDpopNonceChallenge_text_iff value).mp recognised with ⟨opens, exposes⟩
    exact ⟨value, valueMem, ascii, opens, exposes⟩
  · rintro ⟨value, valueMem, ascii, opens, exposes⟩
    have read := (toStr_fieldBytes value _).mpr ⟨ascii, rfl⟩
    have recognised := (isDpopNonceChallenge_text_iff value).mpr ⟨opens, exposes⟩
    exact ⟨_, List.mem_filterMap.mpr ⟨_, List.mem_map_of_mem valueMem, read⟩, recognised⟩

/-! ## Where the client is right -/

/-- The value is one challenge in ASCII, and its quoted strings have neither commas nor
backslashes. -/
structure IsPlain (challenges : Challenges) : Prop where
  single : challenges.rest = []
  ascii : ∀ c ∈ challenges.text, c.toNat < 128
  noComma : ∀ param ∈ challenges.params, ',' ∉ param.text
  noBackslash : ∀ param ∈ challenges.params, '\\' ∉ param.value.spelled

theorem showsNonceError_iff_of_isPlain {challenges : Challenges} (plain : IsPlain challenges) :
    ShowsNonceError challenges ↔ AnnouncesNonceError challenges := by
  have params_eq : challenges.params = challenges.first.params := by
    simp [Challenges.params, Challenges.all, plain.single]
  have exposed_eq : challenges.exposedParams = challenges.first.params := by
    simp [Challenges.exposedParams, plain.single]
  have firstMem : challenges.first ∈ challenges.all := List.mem_cons_self
  constructor
  · rintro ⟨_, opens, ⟨param, exposed, ⟨means, _⟩ | ⟨part, rest, cut, _⟩⟩ |
      ⟨param, mem, part, rest, cut, _⟩⟩
    · rw [exposed_eq] at exposed
      exact ⟨challenges.first, firstMem, opens.scheme, param, exposed, means⟩
    · rw [exposed_eq, ← params_eq] at exposed
      exact absurd (by simp [cut]) (plain.noComma param exposed)
    · exact absurd (by simp [cut]) (plain.noComma param mem)
  · rintro ⟨challenge, challengeMem, scheme, param, mem, means⟩
    rw [Challenges.all, plain.single, List.map_nil, List.mem_singleton] at challengeMem
    subst challengeMem
    have noBackslash := plain.noBackslash param (by rwa [params_eq])
    exact ⟨plain.ascii, ⟨scheme, Or.inl (List.ne_nil_of_mem mem)⟩,
      Or.inl ⟨param, by rwa [exposed_eq], Or.inl ⟨means, noBackslash⟩⟩⟩

/-- The client is right about headers whose values are plain. -/
theorem isRsDpopNonceChallenge_iff_of_isPlain {headers : HeaderMap} {values : List Challenges}
    (carried : headers.getAll "www-authenticate" = values.map fieldBytes)
    (plain : ∀ value ∈ values, IsPlain value) :
    isRsDpopNonceChallenge headers = true ↔ ∃ value ∈ values, AnnouncesNonceError value := by
  rw [isRsDpopNonceChallenge_iff carried]
  apply exists_congr
  intro value
  apply and_congr_right
  intro mem
  exact showsNonceError_iff_of_isPlain (plain value mem)

/-- The value is in ASCII, and its first scheme is `DPoP` with a space behind it. -/
structure IsRead (challenges : Challenges) : Prop where
  ascii : ∀ c ∈ challenges.text, c.toNat < 128
  opens : OpensWithDpop challenges

/-- The error is a parameter of a `DPoP` challenge in a value that is read, has no backslash, and
does not stand behind the scheme of a further challenge. -/
structure AnnouncesVisibly (challenges : Challenges) : Prop where
  isRead : IsRead challenges
  visible : ∃ param, (param ∈ challenges.first.params ∨
      ∃ entry ∈ challenges.rest, Spells entry.2.scheme.chars "DPoP" ∧
        param ∈ entry.2.laterParams) ∧
    MeansNonceError param ∧ '\\' ∉ param.value.spelled

/-- In a value that is read, the error is a parameter of another scheme's challenge, or it is
spelled at a comma inside a quoted string. -/
structure FeignsNonceError (challenges : Challenges) : Prop where
  isRead : IsRead challenges
  feigned : (∃ entry ∈ challenges.rest, ¬ Spells entry.2.scheme.chars "DPoP" ∧
      ∃ param ∈ entry.2.laterParams, MeansNonceError param ∧ '\\' ∉ param.value.spelled) ∨
    (∃ param ∈ challenges.exposedParams, BeginsNonceError param) ∨
      ∃ param ∈ challenges.params, QuotesNonceError param

theorem AnnouncesVisibly.announces {challenges : Challenges}
    (visibly : AnnouncesVisibly challenges) : AnnouncesNonceError challenges := by
  rcases visibly with ⟨isRead, param, inFirst | ⟨entry, entryMem, scheme, later⟩, means, _⟩
  · exact ⟨challenges.first, List.mem_cons_self, isRead.opens.scheme, param, inFirst, means⟩
  · have mem : entry.2 ∈ challenges.all := List.mem_cons_of_mem _ (List.mem_map_of_mem entryMem)
    exact ⟨entry.2, mem, scheme, param, Challenge.mem_params_iff.mpr (Or.inr later), means⟩

/-- What a value shows is announced by it or feigned. -/
theorem showsNonceError_iff (challenges : Challenges) :
    ShowsNonceError challenges ↔ AnnouncesVisibly challenges ∨ FeignsNonceError challenges := by
  constructor
  · rintro ⟨ascii, opens, ⟨param, exposed, ⟨means, noBackslash⟩ | begins⟩ | quotes⟩
    · rcases List.mem_append.mp exposed with inFirst | inRest
      · exact Or.inl ⟨⟨ascii, opens⟩, param, Or.inl inFirst, means, noBackslash⟩
      · rcases List.mem_flatMap.mp inRest with ⟨entry, entryMem, later⟩
        by_cases scheme : Spells entry.2.scheme.chars "DPoP"
        · exact Or.inl ⟨⟨ascii, opens⟩, param, Or.inr ⟨entry, entryMem, scheme, later⟩, means,
            noBackslash⟩
        · exact Or.inr ⟨⟨ascii, opens⟩,
            Or.inl ⟨entry, entryMem, scheme, param, later, means, noBackslash⟩⟩
    · exact Or.inr ⟨⟨ascii, opens⟩, Or.inr (Or.inl ⟨param, exposed, begins⟩)⟩
    · exact Or.inr ⟨⟨ascii, opens⟩, Or.inr (Or.inr quotes)⟩
  · have laterExposed : ∀ entry ∈ challenges.rest, ∀ param ∈ entry.2.laterParams,
        param ∈ challenges.exposedParams := fun entry entryMem param later =>
      List.mem_append_right _ (List.mem_flatMap.mpr ⟨entry, entryMem, later⟩)
    rintro (⟨isRead, param, place, plain⟩ | ⟨isRead, feigned⟩)
    · have exposed : param ∈ challenges.exposedParams := by
        rcases place with inFirst | ⟨entry, entryMem, _, later⟩
        · exact List.mem_append_left _ inFirst
        · exact laterExposed entry entryMem param later
      exact ⟨isRead.ascii, isRead.opens, Or.inl ⟨param, exposed, Or.inl plain⟩⟩
    · rcases feigned with ⟨entry, entryMem, _, param, later, plain⟩ | ⟨param, exposed, begins⟩ |
        quotes
      · exact ⟨isRead.ascii, isRead.opens,
          Or.inl ⟨param, laterExposed entry entryMem param later, Or.inl plain⟩⟩
      · exact ⟨isRead.ascii, isRead.opens, Or.inl ⟨param, exposed, Or.inr begins⟩⟩
      · exact ⟨isRead.ascii, isRead.opens, Or.inr quotes⟩

/-- The client is right about headers exactly if an error that is announced in them is visible in
one of them or feigned by one, and an error that is feigned is announced by one. -/
theorem isRsDpopNonceChallenge_exact_iff (headers : HeaderMap) (values : List Challenges)
    (carried : headers.getAll "www-authenticate" = values.map fieldBytes) :
    (isRsDpopNonceChallenge headers = true ↔ ∃ value ∈ values, AnnouncesNonceError value) ↔
      (∀ value ∈ values, AnnouncesNonceError value →
        ∃ shown ∈ values, AnnouncesVisibly shown ∨ FeignsNonceError shown) ∧
        ∀ value ∈ values, FeignsNonceError value →
          ∃ announced ∈ values, AnnouncesNonceError announced := by
  rw [isRsDpopNonceChallenge_iff carried]
  simp only [showsNonceError_iff]
  constructor
  · intro exactly
    exact ⟨fun value mem announces => exactly.mpr ⟨value, mem, announces⟩,
      fun value mem feigns => exactly.mp ⟨value, mem, Or.inr feigns⟩⟩
  · rintro ⟨noneMissed, noneMistaken⟩
    constructor
    · rintro ⟨value, mem, visibly | feigns⟩
      · exact ⟨value, mem, visibly.announces⟩
      · exact noneMistaken value mem feigns
    · rintro ⟨value, mem, announces⟩
      exact noneMissed value mem announces

/-- A parameter with a quoted string and without blanks. -/
def quotedParam (name : Token) (value : List Char)
    (valid : ∀ c ∈ value, isQuotedText c = true) : Param where
  name := name
  beforeEquals := ⟨[], by simp⟩
  afterEquals := ⟨[], by simp⟩
  value := .quoted (value.pmap QuotedChar.text valid)

/-- `DPoP error="use_dpop_nonce"`. -/
def dpopNonceChallenge : Challenge :=
  .withParams ⟨"DPoP".toList, by decide, List.all_eq_true.mp (by decide)⟩ 0
    (quotedParam ⟨"error".toList, by decide, List.all_eq_true.mp (by decide)⟩
      "use_dpop_nonce".toList (List.all_eq_true.mp (by decide))) []

/-- `Bearer realm="x", DPoP error="use_dpop_nonce"`. -/
def dpopBehindBearer : Challenges where
  first := .withParams ⟨"Bearer".toList, by decide, List.all_eq_true.mp (by decide)⟩ 0
    (quotedParam ⟨"realm".toList, by decide, List.all_eq_true.mp (by decide)⟩ "x".toList
      (List.all_eq_true.mp (by decide))) []
  rest := [(⟨⟨[], by simp⟩, ⟨[' '], by simp⟩⟩, dpopNonceChallenge)]

/-- `DPoP realm="a, error=use_dpop_nonce"`. -/
def errorInRealm : Challenges where
  first := .withParams ⟨"DPoP".toList, by decide, List.all_eq_true.mp (by decide)⟩ 0
    (quotedParam ⟨"realm".toList, by decide, List.all_eq_true.mp (by decide)⟩
      "a, error=use_dpop_nonce".toList (List.all_eq_true.mp (by decide))) []
  rest := []

theorem isRsDpopNonceChallenge_exact_iff_alone :
    isRsDpopNonceChallenge [("www-authenticate", fieldBytes ⟨dpopNonceChallenge, []⟩)] = true ↔
      ∃ value ∈ [(⟨dpopNonceChallenge, []⟩ : Challenges)], AnnouncesNonceError value := by
  have announces : AnnouncesNonceError ⟨dpopNonceChallenge, []⟩ :=
    ⟨dpopNonceChallenge, List.mem_cons_self, by decide, _, List.mem_cons_self, by decide, by decide⟩
  have ascii : ∀ c ∈ dpopNonceChallenge.text ++ [], c.toNat < 128 := by
    intro c mem
    have all : (dpopNonceChallenge.text ++ []).all (fun c => decide (c.toNat < 128)) = true := by
      decide
    exact of_decide_eq_true (List.all_eq_true.mp all c mem)
  have visibly : AnnouncesVisibly ⟨dpopNonceChallenge, []⟩ :=
    ⟨⟨ascii, by decide, Or.inl (List.cons_ne_nil _ _)⟩, _, Or.inl List.mem_cons_self,
      ⟨by decide, by decide⟩, by decide⟩
  apply (isRsDpopNonceChallenge_exact_iff _ [⟨dpopNonceChallenge, []⟩] (by decide)).mpr
  exact ⟨fun value mem _ => ⟨value, mem, Or.inl (List.mem_singleton.mp mem ▸ visibly)⟩,
    fun value mem _ => ⟨value, mem, List.mem_singleton.mp mem ▸ announces⟩⟩

/-- A challenge behind another one is missed, and a quoted string is taken for a parameter. -/
theorem not_isRsDpopNonceChallenge_exact :
    (dpopBehindBearer.text = "Bearer realm=\"x\", DPoP error=\"use_dpop_nonce\"".toList ∧
      ¬ (isRsDpopNonceChallenge [("www-authenticate", fieldBytes dpopBehindBearer)] = true ↔
        ∃ value ∈ [dpopBehindBearer], AnnouncesNonceError value)) ∧
    errorInRealm.text = "DPoP realm=\"a, error=use_dpop_nonce\"".toList ∧
      ¬ (isRsDpopNonceChallenge [("www-authenticate", fieldBytes errorInRealm)] = true ↔
        ∃ value ∈ [errorInRealm], AnnouncesNonceError value) := by
  have missed :
      isRsDpopNonceChallenge [("www-authenticate", fieldBytes dpopBehindBearer)] = false := by
    decide +kernel
  have taken : isRsDpopNonceChallenge [("www-authenticate", fieldBytes errorInRealm)] = true := by
    decide +kernel
  have announces : AnnouncesNonceError dpopBehindBearer :=
    ⟨dpopNonceChallenge, List.mem_cons_of_mem _ List.mem_cons_self, by decide, _,
      List.mem_cons_self, by decide, by decide⟩
  have silent : ¬ AnnouncesNonceError errorInRealm := by
    rintro ⟨challenge, challengeMem, _, param, mem, means⟩
    rw [List.mem_singleton.mp challengeMem] at mem
    rw [List.mem_singleton.mp mem] at means
    exact absurd means.1 (by decide)
  refine ⟨⟨by decide, ?_⟩, by decide, ?_⟩
  · intro exactly
    have recognised := exactly.mpr ⟨dpopBehindBearer, List.mem_singleton_self _, announces⟩
    rw [missed] at recognised
    cases recognised
  · intro exactly
    rcases exactly.mp taken with ⟨value, mem, announced⟩
    rw [List.mem_singleton.mp mem] at announced
    exact silent announced

end Skybase.Repo
