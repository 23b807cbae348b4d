import Skybase.Form.Core

/-!
# The parameters of a URL

What a form decoder reads from the query of a URL: the parameters of a joined
query one after the other, and of parameters that were joined without being
encoded, and perhaps lost characters before they are read.  Those are read as
they were written exactly if nothing was lost and no value holds a character
that ends a parameter or a query, or that decoding replaces.
-/

namespace Skybase.Form

/-- The parameters of a URL, decoded, in order. -/
def parametersOf (url : List Char) : List (List UInt8 × List UInt8) :=
  match queryOf url with
  | none => []
  | some query => decodeQuery query

theorem parametersOf_of_queryOf {url query : List Char} (found : queryOf url = some query) :
    parametersOf url = decodeQuery query := by
  rw [parametersOf, found]

theorem valuesOf_eq (name : List UInt8) (url : List Char) :
    valuesOf name url = ((parametersOf url).filter fun pair => pair.1 = name).map Prod.snd := by
  rw [valuesOf, parametersOf]
  cases queryOf url <;> rfl

/-! ## Joined queries -/

/-- The parameters of joined queries are those of the one and those of the other. -/
theorem decodeQuery_append (first second : List Char) :
    decodeQuery (first ++ '&' :: second) = decodeQuery first ++ decodeQuery second := by
  rw [decodeQuery, List.splitOn_append_cons_self, List.filter_append, List.map_append, decodeQuery,
    decodeQuery]

theorem decodeQuery_nil : decodeQuery [] = [] := by
  simp [decodeQuery, List.splitOn_nil]

theorem decodeQuery_singleton {parameter : List Char} (nonempty : parameter ≠ [])
    (clean : '&' ∉ parameter) : decodeQuery parameter = [pairOf parameter] := by
  rw [decodeQuery, List.splitOn_eq_singleton clean]
  simp [nonempty]

/-- The first parameter of a query ends at the first ampersand. -/
theorem head?_decodeQuery {parameter rest : List Char} (nonempty : parameter ≠ [])
    (clean : '&' ∉ parameter) (ends : ∀ c ∈ rest.head?, c = '&') :
    (decodeQuery (parameter ++ rest)).head? = some (pairOf parameter) := by
  cases rest with
  | nil => rw [List.append_nil, decodeQuery_singleton nonempty clean, List.head?_cons]
  | cons c rest =>
      obtain rfl := ends c rfl
      rw [decodeQuery_append, decodeQuery_singleton nonempty clean]
      rfl

/-- A query that ends in an open parameter takes the first of the joined ones into it. -/
theorem length_decodeQuery_merge {parameter : List Char} {rest : List (List Char)}
    (clean : ∀ p ∈ parameter :: rest, p ≠ [] ∧ '&' ∉ p) {query : List Char}
    (opened : ∀ c ∈ query.getLast?, c ≠ '&') (nonempty : query ≠ []) :
    (decodeQuery (query ++ ['&'].intercalate (parameter :: rest))).length =
      (decodeQuery query).length + rest.length := by
  induction length : query.length using Nat.strong_induction_on generalizing query with
  | _ _ ih =>
      subst length
      by_cases separated : '&' ∈ query
      · obtain ⟨front, back, rfl, -⟩ := List.eq_append_cons_of_mem separated
        have left : back ≠ [] := by
          rintro rfl
          exact opened '&' (by simp) rfl
        have last : ∀ c ∈ back.getLast?, c ≠ '&' := by
          rwa [List.getLast?_append_of_ne_nil _ (List.cons_ne_nil _ _),
            List.getLast?_cons_of_ne_nil left] at opened
        have shorter : back.length < (front ++ '&' :: back).length := by
          simp
          omega
        have tail := ih back.length shorter last left rfl
        rw [List.append_assoc, List.cons_append, decodeQuery_append, decodeQuery_append,
          List.length_append, List.length_append, tail, Nat.add_assoc]
      · have merged : query ++ ['&'].intercalate (parameter :: rest) =
            ['&'].intercalate ((query ++ parameter) :: rest) := by
          cases rest with
          | nil => simp
          | cons next rest => simp
        have parts : ∀ p ∈ (query ++ parameter) :: rest, p ≠ [] ∧ '&' ∉ p := by
          rw [List.forall_mem_cons] at clean ⊢
          refine ⟨⟨by simp [nonempty], ?_⟩, clean.2⟩
          rw [List.mem_append, not_or]
          exact ⟨separated, clean.1.2⟩
        rw [merged, decodeQuery_intercalate (List.cons_ne_nil _ _) parts,
          decodeQuery_singleton nonempty separated, List.length_map, List.length_cons,
          List.length_singleton, Nat.add_comm]

/-! ## Texts that decode to themselves -/

/-- The bytes of a text. -/
def bytesOf (text : List Char) : List UInt8 := text.flatMap String.utf8EncodeChar

/-- No part of the text is replaced by decoding. -/
structure Literal (text : List Char) : Prop where
  noPlus : '+' ∉ text
  noEscape : ∀ front high low back, text = front ++ '%' :: high :: low :: back →
    escapedByte high low = none

theorem bytesOf_cons (c : Char) (rest : List Char) :
    bytesOf (c :: rest) = String.utf8EncodeChar c ++ bytesOf rest :=
  List.flatMap_cons

theorem length_bytesOf_cons (c : Char) (rest : List Char) :
    (bytesOf rest).length < (bytesOf (c :: rest)).length := by
  have pos := Char.utf8Size_pos c
  rw [bytesOf_cons, List.length_append, String.length_utf8EncodeChar]
  omega

/-- Decoding does not make a text longer. -/
theorem length_decodeComponent_le (text : List Char) :
    (decodeComponent text).length ≤ (bytesOf text).length := by
  induction text using decodeComponent.induct with
  | case1 high low rest byte escaped ih =>
      have outer := length_bytesOf_cons '%' (high :: low :: rest)
      have middle := length_bytesOf_cons high (low :: rest)
      have inner := length_bytesOf_cons low rest
      rw [decodeComponent_escape escaped, List.length_cons]
      omega
  | case2 high low rest unescaped ih =>
      rw [decodeComponent, unescaped]
      exact Nat.le_trans (Nat.succ_le_succ ih) (length_bytesOf_cons '%' (high :: low :: rest))
  | case3 rest ih =>
      rw [decodeComponent_plus]
      exact Nat.le_trans (Nat.succ_le_succ ih) (length_bytesOf_cons '+' rest)
  | case4 c rest notEscape notPlus ih =>
      rw [decodeComponent, bytesOf_cons, List.length_append, List.length_append]
      · exact Nat.add_le_add_left ih _
      · exact notEscape
      · exact notPlus
  | case5 => exact Nat.le_refl 0

theorem Literal.of_cons {c : Char} {rest : List Char} (literal : Literal (c :: rest)) :
    Literal rest where
  noPlus := fun mem => literal.noPlus (List.mem_cons_of_mem c mem)
  noEscape front high low back eq :=
    literal.noEscape (c :: front) high low back (by rw [eq]; rfl)

theorem literal_nil : Literal [] where
  noPlus := List.not_mem_nil
  noEscape front high low back eq := absurd eq (by simp)

/-- A text is literal if the rest is and it does not begin with what is replaced. -/
theorem Literal.cons {c : Char} {rest : List Char} (notPlus : c ≠ '+')
    (notEscape : c = '%' → ∀ high low back, rest = high :: low :: back →
      escapedByte high low = none) (literal : Literal rest) : Literal (c :: rest) where
  noPlus := by
    rw [List.mem_cons, not_or]
    exact ⟨notPlus.symm, literal.noPlus⟩
  noEscape front high low back eq := by
    cases front with
    | nil =>
        obtain ⟨percent, rest_eq⟩ := List.cons.inj eq
        exact notEscape percent high low back rest_eq
    | cons first front => exact literal.noEscape front high low back (List.cons.inj eq).2

theorem utf8EncodeChar_percent : String.utf8EncodeChar '%' = [0x25] := by decide

/-- A text decodes to its own bytes exactly if no part of it is replaced. -/
theorem decodeComponent_eq_bytesOf_iff (text : List Char) :
    decodeComponent text = bytesOf text ↔ Literal text := by
  induction text using decodeComponent.induct with
  | case1 high low rest byte escaped ih =>
      refine iff_of_false (fun same => ?_) fun literal => ?_
      · have length := congrArg List.length same
        have decoded := length_decodeComponent_le rest
        have outer := length_bytesOf_cons '%' (high :: low :: rest)
        have middle := length_bytesOf_cons high (low :: rest)
        have inner := length_bytesOf_cons low rest
        rw [decodeComponent_escape escaped, List.length_cons] at length
        omega
      · rw [literal.noEscape [] high low rest rfl] at escaped
        cases escaped
  | case2 high low rest unescaped ih =>
      have decoded : decodeComponent ('%' :: high :: low :: rest) =
          0x25 :: decodeComponent (high :: low :: rest) := by rw [decodeComponent, unescaped]
      rw [decoded, bytesOf_cons, utf8EncodeChar_percent, List.singleton_append,
        List.cons.injEq, and_iff_right rfl, ih]
      refine ⟨.cons (by decide) fun _ h l back eq => ?_, Literal.of_cons⟩
      rw [List.cons.injEq, List.cons.injEq] at eq
      rw [← eq.1, ← eq.2.1]
      exact unescaped
  | case3 rest ih =>
      refine iff_of_false (fun same => ?_) fun literal => literal.noPlus List.mem_cons_self
      have plus : String.utf8EncodeChar '+' = [0x2B] := by decide
      rw [decodeComponent_plus, bytesOf_cons, plus] at same
      exact absurd (List.cons.inj same).1 (by decide)
  | case4 c rest notEscape notPlus ih =>
      have decoded : decodeComponent (c :: rest) =
          String.utf8EncodeChar c ++ decodeComponent rest := by
        rw [decodeComponent]
        · exact notEscape
        · exact notPlus
      rw [decoded, bytesOf_cons, List.append_cancel_left_eq, ih]
      refine ⟨.cons notPlus fun percent high low back eq => ?_, Literal.of_cons⟩
      exact absurd eq (notEscape high low back percent)
  | case5 => exact iff_of_true rfl literal_nil

/-! ## Parameters that are not encoded -/

/-- A parameter as it is written. -/
def written (parameter : List Char × List Char) : List Char :=
  parameter.1 ++ '=' :: parameter.2

/-- A query of parameters as they are written. -/
def joined (parameters : List (List Char × List Char)) : List Char :=
  ['&'].intercalate (parameters.map written)

/-- A value in which no character ends the parameter or is replaced. -/
structure Verbatim (value : List Char) : Prop where
  literal : Literal value
  noAmpersand : '&' ∉ value
  noFragment : '#' ∉ value

/-- A name in which no character ends the name or is replaced. -/
structure PlainName (name : List Char) : Prop where
  verbatim : Verbatim name
  noEquals : '=' ∉ name

/-- Letters and digits are read as they are. -/
theorem plainName_of_isAlphanum {text : List Char} (alphanum : ∀ c ∈ text, c.isAlphanum = true) :
    PlainName text := by
  have absent : ∀ c, c.isAlphanum = false → c ∉ text := fun c other mem =>
    Bool.false_ne_true (other.symm.trans (alphanum c mem))
  refine ⟨⟨⟨absent '+' (by decide), ?_⟩, absent '&' (by decide), absent '#' (by decide)⟩,
    absent '=' (by decide)⟩
  intro front high low back eq
  exact absurd (eq ▸ List.mem_append_right front List.mem_cons_self) (absent '%' (by decide))

/-- The part of a value that is read: it ends at the first ampersand or fragment. -/
def readPart (value : List Char) : List Char := value.takeWhile fun c => c ≠ '&' ∧ c ≠ '#'

theorem bytesOf_append (first second : List Char) :
    bytesOf (first ++ second) = bytesOf first ++ bytesOf second :=
  List.flatMap_append

/-- The part of a value that is read decodes to the whole value only if the value is verbatim. -/
theorem decodeComponent_readPart_iff (value : List Char) :
    decodeComponent (readPart value) = bytesOf value ↔ Verbatim value := by
  have whole : Verbatim value → readPart value = value := by
    intro verbatim
    rw [readPart, List.takeWhile_eq_self_iff]
    rintro c mem
    rw [decide_eq_true_iff]
    exact ⟨fun same => verbatim.noAmpersand (same ▸ mem),
      fun same => verbatim.noFragment (same ▸ mem)⟩
  constructor
  · intro same
    obtain ⟨rest, split⟩ : readPart value <+: value := List.takeWhile_prefix _
    have length := congrArg List.length same
    have decoded := length_decodeComponent_le (readPart value)
    rw [← split, bytesOf_append, List.length_append] at length
    cases rest with
    | cons c rest =>
        have longer := length_bytesOf_cons c rest
        rw [split] at length
        omega
    | nil =>
        rw [List.append_nil] at split
        rw [split] at same
        refine ⟨(decodeComponent_eq_bytesOf_iff value).mp same, ?_, ?_⟩
        · intro mem
          rw [← split] at mem
          simpa using List.mem_takeWhile_imp mem
        · intro mem
          rw [← split] at mem
          simpa using List.mem_takeWhile_imp mem
  · intro verbatim
    rw [whole verbatim, decodeComponent_eq_bytesOf_iff]
    exact verbatim.literal

theorem PlainName.decodeComponent_eq {name : List Char} (plain : PlainName name) :
    decodeComponent name = bytesOf name :=
  (decodeComponent_eq_bytesOf_iff name).mpr plain.verbatim.literal

theorem PlainName.not_mem_written {name value : List Char} (plain : PlainName name)
    (noAmpersand : '&' ∉ value) (noFragment : '#' ∉ value) :
    '&' ∉ written (name, value) ∧ '#' ∉ written (name, value) := by
  rw [written, List.mem_append, List.mem_append, List.mem_cons, List.mem_cons, not_or, not_or,
    not_or, not_or]
  exact ⟨⟨plain.verbatim.noAmpersand, by decide, noAmpersand⟩,
    plain.verbatim.noFragment, by decide, noFragment⟩

theorem PlainName.pairOf_written {name : List Char} (plain : PlainName name) (value : List Char) :
    pairOf (written (name, value)) = (bytesOf name, decodeComponent value) := by
  rw [written, pairOf_append plain.noEquals, plain.decodeComponent_eq]

/-- The part of a value that is read is verbatim but for what decoding replaces. -/
theorem exists_eq_readPart_append (value : List Char) :
    ∃ rest, value = readPart value ++ rest ∧ '&' ∉ readPart value ∧ '#' ∉ readPart value ∧
      ∀ c ∈ rest.head?, c = '&' ∨ c = '#' := by
  refine ⟨value.dropWhile fun c => c ≠ '&' ∧ c ≠ '#', List.takeWhile_append_dropWhile.symm, ?_, ?_,
    ?_⟩
  · intro mem
    simpa using List.mem_takeWhile_imp mem
  · intro mem
    simpa using List.mem_takeWhile_imp mem
  · intro c mem
    have stop := List.head?_dropWhile_not (fun c => decide (c ≠ '&' ∧ c ≠ '#')) value
    rw [Option.mem_def.mp mem] at stop
    exact or_iff_not_and_not.mpr (of_decide_eq_false stop)

/-- The first parameter of a query is read up to the end of the part of its value. -/
theorem head?_decodeQuery_written {name rest : List Char} (plain : PlainName name)
    (value : List Char) (ends : ∀ c ∈ rest.head?, c = '&') :
    (decodeQuery ((written (name, value) ++ rest).takeWhile (· ≠ '#'))).head? =
      some (bytesOf name, decodeComponent (readPart value)) := by
  obtain ⟨tail, split, noAmpersand, noFragment, stops⟩ := exists_eq_readPart_append value
  have front : written (name, value) ++ rest =
      written (name, readPart value) ++ (tail ++ rest) := by
    rw [written, written]
    conv_lhs => rw [split]
    simp only [List.append_assoc, List.cons_append]
  have clean := plain.not_mem_written noAmpersand noFragment
  -- what is left of the rest before the fragment begins with an ampersand
  have next : ∀ c ∈ ((tail ++ rest).takeWhile (· ≠ '#')).head?, c = '&' := by
    have begins : ∀ c ∈ (tail ++ rest).head?, c = '&' ∨ c = '#' := by
      cases tail with
      | nil => exact fun c mem => .inl (ends c mem)
      | cons first tail => exact stops
    intro c mem
    cases left : tail ++ rest with
    | nil =>
        rw [left] at mem
        exact nomatch mem
    | cons first left' =>
        rw [left] at mem begins
        obtain rfl | rfl := begins first rfl
        · exact (Option.some.inj mem).symm
        · exact nomatch mem
  rw [front, takeWhile_ne_append clean.2,
    head?_decodeQuery (by simp [written]) clean.1 next, plain.pairOf_written]

/-! ## Parameters that lost characters -/

/-- The parameters arrived with these values, which may lack characters. -/
abbrev Lost (arrived parameters : List (List Char × List Char)) : Prop :=
  List.Forall₂ (fun a p => a.1 = p.1 ∧ a.2.Sublist p.2) arrived parameters

theorem length_bytesOf_le {text whole : List Char} (part : text.Sublist whole) :
    (bytesOf text).length ≤ (bytesOf whole).length := by
  induction part with
  | slnil => exact Nat.le_refl 0
  | cons c part ih => exact ih.trans (length_bytesOf_cons c _).le
  | cons_cons c part ih =>
      rw [bytesOf_cons, bytesOf_cons, List.length_append, List.length_append]
      exact Nat.add_le_add_left ih _

/-- A text that lost a character has fewer bytes. -/
theorem eq_of_length_bytesOf {text whole : List Char} (part : text.Sublist whole)
    (same : (bytesOf text).length = (bytesOf whole).length) : text = whole := by
  induction part with
  | slnil => rfl
  | @cons _ rest c part ih =>
      have shorter := length_bytesOf_le part
      have longer := length_bytesOf_cons c rest
      omega
  | cons_cons c part ih =>
      rw [bytesOf_cons, bytesOf_cons, List.length_append, List.length_append] at same
      rw [ih (Nat.add_left_cancel same)]

/-- What arrived of a value is read as the value exactly if it is all of it, and verbatim. -/
theorem decodeComponent_readPart_lost_iff {arrived value : List Char}
    (part : arrived.Sublist value) :
    decodeComponent (readPart arrived) = bytesOf value ↔ arrived = value ∧ Verbatim value := by
  constructor
  · intro same
    have decoded := length_decodeComponent_le (readPart arrived)
    have taken : (bytesOf (readPart arrived)).length ≤ (bytesOf arrived).length :=
      length_bytesOf_le (List.takeWhile_prefix _).sublist
    have read := congrArg List.length same
    obtain rfl : arrived = value :=
      eq_of_length_bytesOf part (le_antisymm (length_bytesOf_le part)
        (read.symm.le.trans (decoded.trans taken)))
    exact ⟨rfl, (decodeComponent_readPart_iff arrived).mp same⟩
  · rintro ⟨rfl, verbatim⟩
    exact (decodeComponent_readPart_iff arrived).mpr verbatim

theorem joined_singleton (p : List Char × List Char) : joined [p] = written p := by
  simp [joined]

theorem joined_cons (p : List Char × List Char) {rest : List (List Char × List Char)}
    (more : rest ≠ []) : joined (p :: rest) = written p ++ '&' :: joined rest := by
  rw [joined, List.map_cons, List.intercalate_cons_of_ne_nil (by simpa using more)]
  simp [joined]

/-- The first of joined parameters and what follows it. -/
theorem joined_cons_cases (p : List Char × List Char) (rest : List (List Char × List Char)) :
    ∃ tail, joined (p :: rest) = written p ++ tail ∧ (∀ c ∈ tail.head?, c = '&') ∧
      (rest = [] ∧ tail = [] ∨ tail = '&' :: joined rest) := by
  cases rest with
  | nil => exact ⟨[], by rw [joined_singleton, List.append_nil], by simp, .inl ⟨rfl, rfl⟩⟩
  | cons q rest =>
      exact ⟨'&' :: joined (q :: rest), joined_cons p (List.cons_ne_nil q rest),
        fun c mem => (Option.some.inj mem).symm, .inr rfl⟩

/-- Parameters that are not encoded are read as they were written exactly if they arrive whole
and their values are verbatim. -/
theorem decodeQuery_joined_iff {arrived parameters : List (List Char × List Char)}
    (lost : Lost arrived parameters) (plain : ∀ p ∈ parameters, PlainName p.1) :
    decodeQuery ((joined arrived).takeWhile (· ≠ '#')) =
        parameters.map (fun p => (bytesOf p.1, bytesOf p.2)) ↔
      arrived = parameters ∧ ∀ p ∈ parameters, Verbatim p.2 := by
  induction lost with
  | nil => exact iff_of_true decodeQuery_nil ⟨rfl, List.forall_mem_nil _⟩
  | @cons a p others rest part _ ih =>
      obtain ⟨name, value⟩ := p
      obtain ⟨other, left⟩ := a
      obtain ⟨same_name, part⟩ : other = name ∧ left.Sublist value := part
      subst same_name
      rw [List.forall_mem_cons] at plain
      obtain ⟨tail, joined_eq, ends, tail_eq⟩ := joined_cons_cases (other, left) others
      have first := head?_decodeQuery_written plain.1 left ends
      rw [List.map_cons, List.forall_mem_cons, joined_eq]
      by_cases whole : left = value ∧ Verbatim value
      · obtain ⟨rfl, verbatim⟩ := whole
        have clean := plain.1.not_mem_written verbatim.noAmpersand verbatim.noFragment
        have read : decodeQuery (written (other, left)) = [(bytesOf other, bytesOf left)] := by
          rw [decodeQuery_singleton (by simp [written]) clean.1, plain.1.pairOf_written,
            (decodeComponent_eq_bytesOf_iff left).mpr verbatim.literal]
        rw [and_iff_right verbatim, takeWhile_ne_append clean.2, List.cons.injEq,
          and_iff_right rfl, ← ih plain.2]
        obtain ⟨rfl, rfl⟩ | rfl := tail_eq
        · rw [List.takeWhile_nil, List.append_nil, read, List.cons.injEq, and_iff_right rfl]
          exact Eq.congr_left decodeQuery_nil.symm
        · have keeps : ('&' :: joined others).takeWhile (· ≠ '#') =
              '&' :: (joined others).takeWhile (· ≠ '#') := List.takeWhile_cons_of_pos (by decide)
          rw [keeps, decodeQuery_append, read, List.singleton_append, List.cons.injEq,
            and_iff_right rfl]
      · refine iff_of_false (fun same => whole ?_) fun all => whole ⟨?_, all.2.1⟩
        · rw [same, List.head?_cons] at first
          have pair := Option.some.inj first
          exact (decodeComponent_readPart_lost_iff part).mp (Prod.mk.inj pair).2.symm
        · exact (Prod.mk.inj (List.cons.inj all.1).1).2

/-- A front without a fragment and a query does not change the query. -/
theorem queryOf_append_of_plain {front : List Char} (noFragment : '#' ∉ front)
    (noQuery : '?' ∉ front) (url : List Char) : queryOf (front ++ url) = queryOf url := by
  rw [queryOf, takeWhile_ne_append noFragment, dropWhile_ne_append noQuery, queryOf]

/-- The query of a URL ends at the fragment. -/
theorem queryOf_append_takeWhile {front : List Char} (noFragment : '#' ∉ front)
    (noQuery : '?' ∉ front) (query : List Char) :
    queryOf (front ++ '?' :: query) = some (query.takeWhile (· ≠ '#')) := by
  have keeps : ('?' :: query).takeWhile (· ≠ '#') = '?' :: query.takeWhile (· ≠ '#') :=
    List.takeWhile_cons_of_pos (by decide)
  have stops : ('?' :: query.takeWhile (· ≠ '#')).dropWhile (· ≠ '?') =
      '?' :: query.takeWhile (· ≠ '#') := List.dropWhile_cons_of_neg (by decide)
  rw [queryOf_append_of_plain noFragment noQuery, queryOf, keeps, stops]

/-- The query of a URL without a fragment is its end. -/
theorem exists_of_queryOf {url query : List Char} (noFragment : '#' ∉ url)
    (found : queryOf url = some query) : ∃ front, url = front ++ '?' :: query ∧ '?' ∉ front := by
  have mark : '?' ∈ url := by
    by_contra absent
    rw [(queryOf_eq_none_iff_of_plain noFragment).mpr absent] at found
    cases found
  obtain ⟨front, back, rfl, noQuery⟩ := List.eq_append_cons_of_mem mark
  rw [List.mem_append, List.mem_cons, not_or, not_or] at noFragment
  rw [queryOf_append noFragment.1 noQuery noFragment.2.2, Option.some.injEq] at found
  exact ⟨front, by rw [found], noQuery⟩

theorem parametersOf_of_plain {url : List Char} (noFragment : '#' ∉ url) (noQuery : '?' ∉ url) :
    parametersOf url = [] := by
  rw [parametersOf, (queryOf_eq_none_iff_of_plain noFragment).mpr noQuery]

/-- The parameters of a URL are the ones that were joined exactly if these arrive whole and their
values are verbatim. -/
theorem parametersOf_joined_iff {front : List Char} (noFragment : '#' ∉ front)
    (noQuery : '?' ∉ front) {arrived parameters : List (List Char × List Char)}
    (lost : Lost arrived parameters) (plain : ∀ p ∈ parameters, PlainName p.1) :
    parametersOf (front ++ '?' :: joined arrived) =
        parameters.map (fun p => (bytesOf p.1, bytesOf p.2)) ↔
      arrived = parameters ∧ ∀ p ∈ parameters, Verbatim p.2 := by
  rw [parametersOf_of_queryOf (queryOf_append_takeWhile noFragment noQuery _),
    decodeQuery_joined_iff lost plain]

end Skybase.Form
