import Skybase.Form.Parameters
import Skybase.Integer
import Skybase.Text

/-!
# Subscription URLs

The builder of the WebSocket URL, which the consumer and the streamer share.
The serializer of components is a parameter.  A parameter of the URL keeps the
meaning of its entry unless the endpoint has a fragment, ends in an ampersand,
or has the parameter already.
-/

namespace Skybase.Ingest

/-! ## The builder -/

/-- The endpoint with the scheme and the path separator that the builder
supplies. -/
def normalizeEndpoint (baseUrl : String) : String :=
  let trimmed := Text.trim baseUrl
  let lower := Text.toAsciiLowercase trimmed
  let url :=
    if !Text.startsWith lower "ws://" && !Text.startsWith lower "wss://" then "wss://" ++ trimmed
    else trimmed
  match Text.findAfter url "://" with
  | some afterScheme =>
      if !Text.contains afterScheme '/' && !Text.contains afterScheme '?' then url.push '/' else url
  | none => if !Text.contains url '/' && !Text.contains url '?' then url.push '/' else url

/-- The parameters of a list of entries, unless the URL has some already. -/
def filterParams (url name : String) (encoded : String → String) (entries : List String) :
    List String :=
  if !Text.containsText url (name ++ "=") then
    entries.filterMap fun entry =>
      let trimmed := Text.trim entry
      if !trimmed.isEmpty then some (name ++ "=" ++ encoded trimmed) else none
  else []

/-- `form_urlencoded::byte_serialize` on the bytes of a text. -/
def byteSerialize (form : Form.Encoder) (text : String) : String :=
  String.ofList (form.encode (Text.bytes text))

/-- A serialized DID, with its colons written as they are. -/
def safeDid (form : Form.Encoder) (did : String) : String :=
  String.ofList (Form.replaceEscape '3' 'A' ':' (byteSerialize form did).toList)

/-- The parameters of `wanted_collections`. -/
def collectionParams (form : Form.Encoder) (url : String) (wantedCollections : List String) :
    List String :=
  filterParams url "wantedCollections" (byteSerialize form) wantedCollections

/-- The parameters of `wanted_dids`. -/
def didParams (form : Form.Encoder) (url : String) (wantedDids : List String) : List String :=
  filterParams url "wantedDids" (safeDid form) wantedDids

/-- The parameter of a cursor other than zero, unless the URL has one. -/
def cursorParams (url : String) (cursor : Option U64) : List String :=
  match cursor with
  | some c => if c > 0 && !Text.containsText url "cursor=" then ["cursor=" ++ c.text] else []
  | none => []

/-- Join the parameters and attach them. -/
def attachParams (url : String) (queryParams : List String) : String :=
  if queryParams.isEmpty then url
  else
    let separator := if Text.contains url '?' then '&' else '?'
    let opened :=
      if !Text.endsWith url '?' && !Text.endsWith url '&' then url.push separator else url
    opened ++ "&".intercalate queryParams

/-- `build_subscription_url_full`. -/
def buildSubscriptionUrlFull (form : Form.Encoder) (baseUrl : String)
    (wantedCollections wantedDids : List String) (cursor : Option U64) : String :=
  let url := normalizeEndpoint baseUrl
  attachParams url
    (collectionParams form url wantedCollections ++ didParams form url wantedDids ++
      cursorParams url cursor)

/-! ## The normalized endpoint -/

/-- The trimmed endpoint less its scheme. -/
def schemeless (endpoint : String) : List Char :=
  let trimmed := Text.trim endpoint
  let lower := Text.toAsciiLowercase trimmed
  if Text.startsWith lower "ws://" then trimmed.toList.drop 5
  else if Text.startsWith lower "wss://" then trimmed.toList.drop 6
  else trimmed.toList

/-- A symbol below the letters is the lower case of itself only. -/
theorem eq_of_toLower_eq {c symbol : Char} (lower : c.toLower = symbol)
    (noLetter : symbol.val < 97) : c = symbol := by
  by_cases upper : c.val ≥ 65 ∧ c.val ≤ 90
  · have shifted : c.toLower.val = c.val + 32 := congrArg Char.val (dif_pos upper)
    rw [← lower, shifted] at noLetter
    exact absurd noLetter (by grind)
  · have same : c.toLower = c := dif_neg upper
    rw [← same, lower]

/-- A text with a scheme, whatever the case of its letters. -/
theorem exists_of_startsWith_scheme {text scheme : String} (letters : List Char)
    (scheme_eq : scheme.toList = letters ++ "://".toList) (noColon : ':' ∉ letters)
    (starts : Text.startsWith (Text.toAsciiLowercase text) scheme = true) :
    ∃ front, ':' ∉ front ∧
      text.toList = front ++ "://".toList ++ text.toList.drop scheme.toList.length := by
  rw [Text.startsWith, List.isPrefixOf_iff_prefix, Text.toAsciiLowercase, String.toList_ofList]
    at starts
  rcases starts with ⟨tail, lower⟩
  rcases List.map_eq_append_iff.mp lower.symm with ⟨written, rest, text_eq, written_eq, _⟩
  rw [scheme_eq] at written_eq
  rcases List.map_eq_append_iff.mp written_eq with ⟨front, symbols, rfl, front_eq, symbols_eq⟩
  have separator : symbols = "://".toList := by
    change _ = [':', '/', '/'] at symbols_eq
    rcases List.map_eq_cons_iff.mp symbols_eq with ⟨colon, slashes, rfl, isColon, slashes_eq⟩
    rcases List.map_eq_cons_iff.mp slashes_eq with ⟨slash, more, rfl, isSlash, more_eq⟩
    rcases List.map_eq_cons_iff.mp more_eq with ⟨second, none, rfl, isSecond, none_eq⟩
    rw [eq_of_toLower_eq isColon (by decide), eq_of_toLower_eq isSlash (by decide),
      eq_of_toLower_eq isSecond (by decide), List.map_eq_nil_iff.mp none_eq]
    rfl
  refine ⟨front, ?_, ?_⟩
  · intro mem
    apply noColon
    rw [← front_eq]
    exact List.mem_map_of_mem (f := Char.toLower) mem
  · have width : scheme.toList.length = (front ++ symbols).length := by
      rw [scheme_eq, ← front_eq, List.length_append, List.length_append, List.length_map, separator]
    rw [width, text_eq, List.drop_left, separator]

/-- The slice after the separator of the scheme. -/
theorem findAfter_scheme {url : String} {front rest : List Char} (noColon : ':' ∉ front)
    (url_eq : url.toList = front ++ "://".toList ++ rest) :
    Text.findAfter url "://" = some (String.ofList rest) := by
  rw [Text.findAfter, url_eq]
  exact congrArg (Option.map String.ofList)
    (@Text.afterPattern_append ':' ['/', '/'] front noColon rest)

/-- The URL less its scheme, and the URL with a scheme. -/
theorem exists_scheme (endpoint : String) :
    let trimmed := Text.trim endpoint
    let lower := Text.toAsciiLowercase trimmed
    ∃ front, ':' ∉ front ∧
      (if !Text.startsWith lower "ws://" && !Text.startsWith lower "wss://" then "wss://" ++ trimmed
        else trimmed).toList = front ++ "://".toList ++ schemeless endpoint := by
  intro trimmed lower
  unfold schemeless
  cases plain : Text.startsWith lower "ws://" with
  | true =>
      rcases exists_of_startsWith_scheme ['w', 's'] rfl (by decide) plain with
        ⟨front, noColon, cut⟩
      exact ⟨front, noColon, by simpa [plain, lower, trimmed] using cut⟩
  | false =>
      cases secure : Text.startsWith lower "wss://" with
      | true =>
          rcases exists_of_startsWith_scheme ['w', 's', 's'] rfl (by decide) secure with
            ⟨front, noColon, cut⟩
          exact ⟨front, noColon, by simpa [plain, secure, lower, trimmed] using cut⟩
      | false => exact ⟨['w', 's', 's'], by decide, by simp [plain, secure, lower, trimmed]⟩

/-- What the builder makes of the endpoint: the trimmed text, after a scheme,
and before a slash if there is no path. -/
theorem toList_normalizeEndpoint (endpoint : String) :
    ∃ front, (front = [] ∨ front = "wss://".toList) ∧
      (normalizeEndpoint endpoint).toList = front ++ (Text.trim endpoint).toList ++
        if '/' ∈ schemeless endpoint ∨ '?' ∈ schemeless endpoint then [] else ['/'] := by
  rcases exists_scheme endpoint with ⟨scheme, noColon, url_eq⟩
  have found := findAfter_scheme noColon url_eq
  have slash : ∀ url : String,
      (if (!Text.contains (String.ofList (schemeless endpoint)) '/' &&
          !Text.contains (String.ofList (schemeless endpoint)) '?') = true then url.push '/'
        else url).toList =
        url.toList ++
          if '/' ∈ schemeless endpoint ∨ '?' ∈ schemeless endpoint then [] else ['/'] := by
    intro url
    unfold Text.contains
    rw [String.toList_ofList]
    by_cases path : '/' ∈ schemeless endpoint ∨ '?' ∈ schemeless endpoint
    · rw [if_pos path, if_neg (by simpa [or_iff_not_imp_left] using path), List.append_nil]
    · rw [if_neg path, if_pos (by simpa [not_or] using path), String.toList_push]
  unfold normalizeEndpoint
  dsimp only
  rw [found]
  dsimp only
  rw [slash]
  split
  · exact ⟨"wss://".toList, Or.inr rfl, by rw [String.toList_append]⟩
  · exact ⟨[], Or.inl rfl, by rw [List.nil_append]⟩

/-- The normalized endpoint has the other characters of the endpoint. -/
theorem mem_normalizeEndpoint_iff {c : Char} (solid : Text.isWhitespace c = false)
    (other : c ∉ "wss://".toList) (endpoint : String) :
    c ∈ (normalizeEndpoint endpoint).toList ↔ c ∈ endpoint.toList := by
  have inTrim : c ∈ (Text.trim endpoint).toList ↔ c ∈ endpoint.toList := by
    constructor
    · exact fun mem => (Text.trim_isInfix endpoint).subset mem
    · intro mem
      rcases Text.mem_trim_or_isWhitespace mem with inside | white
      · exact inside
      · rw [solid] at white
        cases white
  have notSlash : c ≠ '/' := by
    rintro rfl
    exact other (by decide)
  rcases toList_normalizeEndpoint endpoint with ⟨front, front_eq, url_eq⟩
  have notFront : c ∉ front := by
    rcases front_eq with rfl | rfl
    · exact List.not_mem_nil
    · exact other
  rw [url_eq, ← inTrim, List.mem_append, List.mem_append]
  constructor
  · rintro ((inFront | inside) | inBack)
    · exact absurd inFront notFront
    · exact inside
    · split at inBack
      · cases inBack
      · exact absurd (List.mem_singleton.mp inBack) notSlash
  · exact fun inside => Or.inl (Or.inr inside)

/-- The normalized endpoint has the parameters of the endpoint. -/
theorem containsText_normalizeEndpoint {pattern : String} (noSlash : '/' ∉ pattern.toList)
    (isParam : '=' ∈ pattern.toList) (solid : pattern.toList.any Text.isWhitespace = false)
    (endpoint : String) :
    Text.containsText (normalizeEndpoint endpoint) pattern =
      Text.containsText endpoint pattern := by
  have solidChars : ∀ c ∈ pattern.toList, Text.isWhitespace c = false := by
    simpa [List.any_eq_false] using solid
  rw [← @Text.containsText_trim endpoint pattern (List.ne_nil_of_mem isParam) solidChars,
    Bool.eq_iff_iff, Text.containsText_iff, Text.containsText_iff]
  rcases toList_normalizeEndpoint endpoint with ⟨front, front_eq, url_eq⟩
  rw [url_eq]
  constructor
  · intro occurs
    have inTrimmed : pattern.toList <:+: front ++ (Text.trim endpoint).toList := by
      split at occurs
      · rwa [List.append_nil] at occurs
      · rcases (Text.infix_append_cons_iff noSlash).mp occurs with inside | inEmpty
        · exact inside
        · exact absurd (inEmpty.subset isParam) List.not_mem_nil
    rcases front_eq with rfl | rfl
    · rwa [List.nil_append] at inTrimmed
    · have cut : "wss://".toList ++ (Text.trim endpoint).toList =
          "wss:/".toList ++ '/' :: (Text.trim endpoint).toList := rfl
      rw [cut, Text.infix_append_cons_iff noSlash] at inTrimmed
      rcases inTrimmed with inScheme | inside
      · exact absurd (inScheme.subset isParam) (by decide)
      · exact inside
  · exact fun inside => inside.trans (List.infix_append _ _ _)

/-! ## The parameters -/

/-- The entries of a list that the builder asks for. -/
def requested (entries : List String) : List String :=
  (entries.map Text.trim).filter fun entry => !entry.isEmpty

/-- The text of a parameter. -/
def paramText (param : String × String) : String := param.1 ++ "=" ++ param.2

/-- The names and values of the parameters of a list of entries. -/
def filterPairs (url name : String) (encoded : String → String) (entries : List String) :
    List (String × String) :=
  if Text.containsText url (name ++ "=") then []
  else (requested entries).map fun entry => (name, encoded entry)

theorem filterParams_eq (url name : String) (encoded : String → String) (entries : List String) :
    filterParams url name encoded entries =
      (filterPairs url name encoded entries).map paramText := by
  unfold filterParams filterPairs
  cases Text.containsText url (name ++ "=") with
  | true => rfl
  | false =>
      rw [Bool.not_false, if_pos rfl, if_neg Bool.false_ne_true, List.map_map, requested]
      induction entries with
      | nil => rfl
      | cons entry entries ih =>
          rw [List.filterMap_cons, List.map_cons, List.filter_cons, ih]
          cases blank : (Text.trim entry).isEmpty with
          | true => simp [blank]
          | false => simp [blank, paramText]

/-- The name and value of the cursor. -/
def cursorPairs (url : String) (cursor : Option U64) : List (String × String) :=
  match cursor with
  | some c => if c > 0 && !Text.containsText url "cursor=" then [("cursor", c.text)] else []
  | none => []

theorem cursorParams_eq (url : String) (cursor : Option U64) :
    cursorParams url cursor = (cursorPairs url cursor).map paramText := by
  unfold cursorParams cursorPairs
  cases cursor with
  | none => rfl
  | some c =>
      dsimp only
      split <;> rfl

/-- All parameters that the builder attaches. -/
def queryPairs (form : Form.Encoder) (url : String) (wantedCollections wantedDids : List String)
    (cursor : Option U64) : List (String × String) :=
  filterPairs url "wantedCollections" (byteSerialize form) wantedCollections ++
    filterPairs url "wantedDids" (safeDid form) wantedDids ++ cursorPairs url cursor

theorem buildSubscriptionUrlFull_eq (form : Form.Encoder) (baseUrl : String)
    (wantedCollections wantedDids : List String) (cursor : Option U64) :
    buildSubscriptionUrlFull form baseUrl wantedCollections wantedDids cursor =
      attachParams (normalizeEndpoint baseUrl)
        ((queryPairs form (normalizeEndpoint baseUrl) wantedCollections wantedDids cursor).map
          paramText) := by
  rw [buildSubscriptionUrlFull, collectionParams, didParams, filterParams_eq, filterParams_eq,
    cursorParams_eq, queryPairs, List.map_append, List.map_append]

/-- The query of an endpoint is left to the front of the attached text. -/
theorem toList_attachParams (url : String) (queryParams : List String) :
    ∃ tail, (attachParams url queryParams).toList = url.toList ++ tail := by
  unfold attachParams
  split
  · exact ⟨[], (List.append_nil _).symm⟩
  · dsimp only
    rw [String.toList_append]
    split
    · rw [String.toList_push, List.append_assoc]
      exact ⟨_, rfl⟩
    · exact ⟨_, rfl⟩

/-- The parameters start after a question mark if the URL has no query and
does not end in an ampersand. -/
theorem toList_attachParams_of_plain {url : String} (noQuery : '?' ∉ url.toList)
    {queryParams : List String} (nonempty : queryParams ≠ []) :
    (attachParams url queryParams).toList =
      url.toList ++ (if Text.endsWith url '&' then [] else ['?']) ++
        ['&'].intercalate (queryParams.map String.toList) := by
  have noMark : Text.endsWith url '?' = false := by
    rw [Text.endsWith, beq_eq_false_iff_ne]
    exact fun last => noQuery (List.mem_of_getLast? last)
  have absent : Text.contains url '?' = false := by
    rw [Text.contains, List.contains_eq_mem, decide_eq_false noQuery]
  unfold attachParams
  rw [List.isEmpty_eq_false_iff.mpr nonempty, if_neg Bool.false_ne_true, absent]
  dsimp only
  rw [noMark, String.toList_append, String.toList_intercalate]
  cases Text.endsWith url '&' with
  | true => simp
  | false => simp

theorem toList_paramText (param : String × String) :
    (paramText param).toList = param.1.toList ++ '=' :: param.2.toList := by
  rw [paramText, String.toList_append, String.toList_append, List.append_assoc]
  rfl

theorem not_mem_paramText {c : Char} (other : c ≠ '=') {param : String × String}
    (absent : c ∉ param.1.toList ++ param.2.toList) : c ∉ (paramText param).toList := by
  rw [List.mem_append, not_or] at absent
  rw [toList_paramText, List.mem_append, List.mem_cons, not_or, not_or]
  exact ⟨absent.1, other, absent.2⟩

/-- The name is plain, and no separator is in the name or the value. -/
def IsCleanParam (param : String × String) : Prop :=
  '=' ∉ param.1.toList ∧
    ∀ c ∈ param.1.toList ++ param.2.toList, (c ≠ '&' ∧ c ≠ '#') ∧ c ≠ '?'

/-- A parameter, decoded. -/
def decodedPair (param : String × String) : List UInt8 × List UInt8 :=
  (Form.decodeComponent param.1.toList, Form.decodeComponent param.2.toList)

/-- The parameters of a URL are joined from texts without separators. -/
theorem clean_pieces {params : List (String × String)}
    (clean : ∀ param ∈ params, IsCleanParam param) :
    (∀ piece ∈ (params.map paramText).map String.toList, piece ≠ [] ∧ '&' ∉ piece) ∧
      ∀ symbol, symbol = '#' ∨ symbol = '?' →
        symbol ∉ ['&'].intercalate ((params.map paramText).map String.toList) := by
  rw [List.map_map]
  constructor
  · intro piece mem
    obtain ⟨param, inParams, rfl⟩ := List.mem_map.mp mem
    refine ⟨?_, not_mem_paramText (by decide) fun inside =>
      ((clean param inParams).2 _ inside).1.1 rfl⟩
    rw [Function.comp_apply, toList_paramText]
    simp
  · intro symbol special mem
    obtain rfl | ⟨piece, inPieces, inside⟩ := Text.mem_intercalate mem
    · simp at special
    · obtain ⟨param, inParams, rfl⟩ := List.mem_map.mp inPieces
      refine not_mem_paramText ?_ (fun inParam => ?_) inside
      · obtain rfl | rfl := special <;> decide
      · obtain rfl | rfl := special
        · exact ((clean param inParams).2 _ inParam).1.2 rfl
        · exact ((clean param inParams).2 _ inParam).2 rfl

/-- They are decoded one by one. -/
theorem decodeQuery_pieces {params : List (String × String)}
    (clean : ∀ param ∈ params, IsCleanParam param) (nonempty : params ≠ []) :
    Form.decodeQuery (['&'].intercalate ((params.map paramText).map String.toList)) =
      params.map decodedPair := by
  rw [Form.decodeQuery_intercalate (by simpa using nonempty) (clean_pieces clean).1, List.map_map,
    List.map_map]
  refine List.map_congr_left fun param mem => ?_
  rw [Function.comp_apply, Function.comp_apply, toList_paramText,
    Form.pairOf_append (clean param mem).1, decodedPair]

/-- What is read from the URL of an endpoint without a query and a fragment. -/
theorem parametersOf_attachParams_of_plain {url : String} (noFragment : '#' ∉ url.toList)
    (noQuery : '?' ∉ url.toList) {params : List (String × String)}
    (clean : ∀ param ∈ params, IsCleanParam param) :
    Form.parametersOf (attachParams url (params.map paramText)).toList =
      if Text.endsWith url '&' then [] else params.map decodedPair := by
  by_cases empty : params = []
  · rw [empty, List.map_nil, List.map_nil, ite_self]
    exact Form.parametersOf_of_plain noFragment noQuery
  · have pieces := clean_pieces clean
    rw [toList_attachParams_of_plain noQuery (fun none => empty (List.map_eq_nil_iff.mp none) :
      params.map paramText ≠ [])]
    cases Text.endsWith url '&' with
    | true =>
        rw [if_pos rfl, if_pos rfl, List.append_nil]
        refine Form.parametersOf_of_plain ?_ ?_
        · rw [List.mem_append, not_or]
          exact ⟨noFragment, pieces.2 '#' (.inl rfl)⟩
        · rw [List.mem_append, not_or]
          exact ⟨noQuery, pieces.2 '?' (.inr rfl)⟩
    | false =>
        rw [if_neg Bool.false_ne_true, if_neg Bool.false_ne_true, List.append_assoc,
          List.singleton_append, Form.parametersOf_of_queryOf
            (Form.queryOf_append noFragment noQuery (pieces.2 '#' (.inl rfl))),
          decodeQuery_pieces clean empty]

/-- The values of a parameter that are read from the URL of an endpoint without a query. -/
theorem valuesOf_attachParams {url : String} (noQuery : Form.queryOf url.toList = none)
    {params : List (String × String)} (clean : ∀ param ∈ params, IsCleanParam param)
    (name : List UInt8) :
    Form.valuesOf name (attachParams url (params.map paramText)).toList =
      if '#' ∈ url.toList ∨ Text.endsWith url '&' = true then []
      else
        (params.filter fun param => Form.decodeComponent param.1.toList = name).map
          fun param => Form.decodeComponent param.2.toList := by
  by_cases fragment : '#' ∈ url.toList
  · rw [if_pos (Or.inl fragment)]
    rcases toList_attachParams url (params.map paramText) with ⟨tail, attached⟩
    apply Form.valuesOf_of_queryOf_eq_none
    rw [attached, Form.queryOf_append_of_fragment fragment, noQuery]
  · have noMark : '?' ∉ url.toList := (Form.queryOf_eq_none_iff_of_plain fragment).mp noQuery
    rw [Form.valuesOf_eq, parametersOf_attachParams_of_plain fragment noMark clean]
    cases Text.endsWith url '&' with
    | true => rw [if_pos rfl, if_pos (Or.inr rfl), List.filter_nil, List.map_nil]
    | false =>
        rw [if_neg Bool.false_ne_true, if_neg (by simpa using fragment), List.filter_map,
          List.map_map]
        rfl

/-! ## What the URL asks for -/

theorem subset_schemeless (endpoint : String) :
    schemeless endpoint ⊆ (Text.trim endpoint).toList := by
  unfold schemeless
  dsimp only
  split
  · exact List.drop_subset _ _
  · split
    · exact List.drop_subset _ _
    · exact List.Subset.refl _

/-- The normalized endpoint has no query either. -/
theorem queryOf_normalizeEndpoint {endpoint : String}
    (noQuery : Form.queryOf endpoint.toList = none) :
    Form.queryOf (normalizeEndpoint endpoint).toList = none := by
  have fragmentIff := mem_normalizeEndpoint_iff (c := '#') (by decide) (by decide) endpoint
  by_cases fragment : '#' ∈ endpoint.toList
  · have inTrim : '#' ∈ (Text.trim endpoint).toList := by
      rcases Text.mem_trim_or_isWhitespace fragment with inside | white
      · exact inside
      · exact absurd white (by decide)
    rcases Text.exists_toList_eq_append_trim endpoint with ⟨space, back, white, _, cut⟩
    have plainSpace : ∀ c ∈ space, c ≠ '#' ∧ c ≠ '?' := by
      intro c mem
      have isWhite := white c mem
      constructor <;> rintro rfl <;> exact absurd isWhite (by decide)
    rw [cut, Form.queryOf_eq_none_iff_of_fragment plainSpace inTrim] at noQuery
    rcases toList_normalizeEndpoint endpoint with ⟨front, front_eq, url_eq⟩
    have plainFront : ∀ c ∈ front, c ≠ '#' ∧ c ≠ '?' := by
      rcases front_eq with rfl | rfl <;> simp
    rw [url_eq, Form.queryOf_eq_none_iff_of_fragment plainFront inTrim, noQuery]
  · rw [Form.queryOf_eq_none_iff_of_plain fragment] at noQuery
    rw [Form.queryOf_eq_none_iff_of_plain (fun mem => fragment (fragmentIff.mp mem)),
      mem_normalizeEndpoint_iff (by decide) (by decide)]
    exact noQuery

/-- The normalized endpoint ends in an ampersand if the endpoint has a path
that does. -/
theorem endsWith_normalizeEndpoint {endpoint : String} (noQuery : '?' ∉ endpoint.toList) :
    Text.endsWith (normalizeEndpoint endpoint) '&' = true ↔
      Text.endsWith (Text.trim endpoint) '&' = true ∧ '/' ∈ schemeless endpoint := by
  have noMark : '?' ∉ schemeless endpoint := fun mem =>
    noQuery ((Text.trim_isInfix endpoint).subset (subset_schemeless endpoint mem))
  rcases toList_normalizeEndpoint endpoint with ⟨front, _, url_eq⟩
  rw [Text.endsWith, Text.endsWith, url_eq, beq_iff_eq, beq_iff_eq]
  by_cases path : '/' ∈ schemeless endpoint
  · have nonempty : (Text.trim endpoint).toList ≠ [] :=
      List.ne_nil_of_mem (subset_schemeless endpoint path)
    rw [if_pos (Or.inl path), List.append_nil, List.getLast?_append_of_ne_nil _ nonempty]
    exact (and_iff_left path).symm
  · rw [if_neg (by simp [path, noMark]), List.getLast?_append_of_ne_nil _ (by simp)]
    constructor
    · intro last
      cases last
    · exact fun both => absurd both.2 path

/-- The endpoint keeps a filter from being read: it has a fragment or a path
that ends in an ampersand, or the name of the parameter stands in it already. -/
def Hides (endpoint name : String) : Prop :=
  '#' ∈ endpoint.toList ∨
    (Text.endsWith (Text.trim endpoint) '&' = true ∧ '/' ∈ schemeless endpoint) ∨
      Text.containsText endpoint (name ++ "=") = true

instance (endpoint name : String) : Decidable (Hides endpoint name) :=
  inferInstanceAs (Decidable (_ ∨ _ ∧ _ ∨ _))

/-- The characters of the values that the builder writes. -/
def isValueChar (c : Char) : Bool := Form.isUnreserved c || c == '+' || c == '%' || c == ':'

theorem separator_of_isValueChar {c : Char} (value : isValueChar c = true) :
    (c ≠ '&' ∧ c ≠ '#') ∧ c ≠ '?' := by
  refine ⟨⟨?_, ?_⟩, ?_⟩ <;> rintro rfl <;> exact absurd value (by decide)

theorem isValueChar_byteSerialize (form : Form.Encoder) (text : String) :
    ∀ c ∈ (byteSerialize form text).toList, isValueChar c = true := by
  intro c mem
  rw [byteSerialize, String.toList_ofList] at mem
  rcases form.alphabet _ c mem with unreserved | rfl | rfl
  · rw [isValueChar, unreserved]
    rfl
  · rfl
  · rfl

theorem isValueChar_safeDid (form : Form.Encoder) (did : String) :
    ∀ c ∈ (safeDid form did).toList, isValueChar c = true := by
  intro c mem
  rw [safeDid, String.toList_ofList] at mem
  rcases Form.mem_replaceEscape mem with rfl | inside
  · rfl
  · exact isValueChar_byteSerialize form did c inside

theorem isValueChar_text (value : U64) : ∀ c ∈ value.text.toList, isValueChar c = true := by
  intro c mem
  rw [isValueChar, Form.isUnreserved, value.isAlphanum_text c mem]
  rfl

theorem decode_byteSerialize (form : Form.Encoder) (text : String) :
    Form.decodeComponent (byteSerialize form text).toList = Text.bytes text := by
  rw [byteSerialize, String.toList_ofList, form.decodes]

/-- Writing colons as they are does not change the decoded DID. -/
theorem decode_safeDid (form : Form.Encoder) (did : String) :
    Form.decodeComponent (safeDid form did).toList = Text.bytes did := by
  have escaped : Form.escapedByte '3' 'A' = some 0x3A := by decide
  rw [safeDid, String.toList_ofList,
    Form.decodeComponent_replaceEscape escaped (by decide) (by decide) (by decide) (by decide),
    decode_byteSerialize]

theorem isCleanParam_filterPairs {url name : String} {encoded : String → String}
    (plainName : '=' ∉ name.toList ∧ name.toList.all isValueChar = true)
    (values : ∀ entry, ∀ c ∈ (encoded entry).toList, isValueChar c = true)
    {entries : List String} :
    ∀ param ∈ filterPairs url name encoded entries, IsCleanParam param := by
  intro param mem
  unfold filterPairs at mem
  split at mem
  · cases mem
  · rcases List.mem_map.mp mem with ⟨entry, _, rfl⟩
    refine ⟨plainName.1, fun c inside => separator_of_isValueChar ?_⟩
    rcases List.mem_append.mp inside with inName | inValue
    · exact List.all_eq_true.mp plainName.2 c inName
    · exact values entry c inValue

theorem isCleanParam_queryPairs (form : Form.Encoder) (url : String)
    (wantedCollections wantedDids : List String) (cursor : Option U64) :
    ∀ param ∈ queryPairs form url wantedCollections wantedDids cursor, IsCleanParam param := by
  intro param mem
  rw [queryPairs, List.mem_append, List.mem_append] at mem
  rcases mem with (inCollections | inDids) | inCursor
  · exact isCleanParam_filterPairs (by decide) (isValueChar_byteSerialize form) param inCollections
  · exact isCleanParam_filterPairs (by decide) (isValueChar_safeDid form) param inDids
  · cases cursor with
    | none => cases inCursor
    | some c =>
        unfold cursorPairs at inCursor
        dsimp only at inCursor
        split at inCursor
        · rw [List.mem_singleton.mp inCursor]
          refine ⟨(by decide : '=' ∉ "cursor".toList),
            fun d inside => separator_of_isValueChar ?_⟩
          rcases List.mem_append.mp inside with inName | inValue
          · have valueName : "cursor".toList.all isValueChar = true := by decide
            exact List.all_eq_true.mp valueName d inName
          · exact isValueChar_text c d inValue
        · cases inCursor

/-- Parameters are told apart by their decoded names. -/
theorem filter_of_name {params : List (String × String)} {name : String}
    (named : ∀ param ∈ params, param.1 = name) (key : List UInt8) :
    params.filter (fun param => Form.decodeComponent param.1.toList = key) =
      if Form.decodeComponent name.toList = key then params else [] := by
  split
  · next same =>
      rw [List.filter_eq_self]
      intro param mem
      rw [named param mem]
      exact decide_eq_true same
  · next other =>
      rw [List.filter_eq_nil_iff]
      intro param mem
      rw [named param mem, decide_eq_true_iff]
      exact other

theorem name_of_mem_filterPairs {url name : String} {encoded : String → String}
    {entries : List String} :
    ∀ param ∈ filterPairs url name encoded entries, param.1 = name := by
  intro param mem
  unfold filterPairs at mem
  split at mem
  · cases mem
  · rcases List.mem_map.mp mem with ⟨entry, _, rfl⟩
    rfl

theorem name_of_mem_cursorPairs {url : String} {cursor : Option U64} :
    ∀ param ∈ cursorPairs url cursor, param.1 = "cursor" := by
  intro param mem
  unfold cursorPairs at mem
  split at mem
  · split at mem
    · rw [List.mem_singleton.mp mem]
    · cases mem
  · cases mem

/-- The values of a list of entries. -/
theorem map_filterPairs {url name : String} {encoded : String → String}
    (decoded : ∀ entry, Form.decodeComponent (encoded entry).toList = Text.bytes entry)
    (entries : List String) :
    (filterPairs url name encoded entries).map
        (fun param => Form.decodeComponent param.2.toList) =
      if Text.containsText url (name ++ "=") then [] else (requested entries).map Text.bytes := by
  unfold filterPairs
  split
  · rfl
  · rw [List.map_map]
    exact List.map_congr_left fun entry _ => decoded entry

section Values

variable (form : Form.Encoder) {endpoint : String} (noQuery : Form.queryOf endpoint.toList = none)
  (wantedCollections wantedDids : List String) (cursor : Option U64)
include noQuery

/-- Unless the endpoint hides them, the parameters of a filter are read. -/
theorem valuesOf_eq_of_filter {name : String}
    (isName : '/' ∉ (name ++ "=").toList ∧ '=' ∈ (name ++ "=").toList ∧
      (name ++ "=").toList.any Text.isWhitespace = false)
    {entries : List String}
    (filtered : let url := normalizeEndpoint endpoint
      ((queryPairs form url wantedCollections wantedDids cursor).filter fun param =>
          Form.decodeComponent param.1.toList = Text.bytes name).map
          (fun param => Form.decodeComponent param.2.toList) =
        if Text.containsText url (name ++ "=") then [] else (requested entries).map Text.bytes) :
    Form.valuesOf (Text.bytes name)
        (buildSubscriptionUrlFull form endpoint wantedCollections wantedDids cursor).toList =
      if Hides endpoint name then [] else (requested entries).map Text.bytes := by
  have noMark : '#' ∉ endpoint.toList → '?' ∉ endpoint.toList := fun plain =>
    (Form.queryOf_eq_none_iff_of_plain plain).mp noQuery
  have sameFragment := mem_normalizeEndpoint_iff (c := '#') (by decide) (by decide) endpoint
  rw [buildSubscriptionUrlFull_eq, valuesOf_attachParams (queryOf_normalizeEndpoint noQuery)
    (isCleanParam_queryPairs form _ _ _ _), filtered,
    containsText_normalizeEndpoint isName.1 isName.2.1 isName.2.2]
  by_cases fragment : '#' ∈ endpoint.toList
  · have hidden : Hides endpoint name := Or.inl fragment
    rw [if_pos (Or.inl (sameFragment.mpr fragment)), if_pos hidden]
  · have noFragment : '#' ∉ (normalizeEndpoint endpoint).toList :=
      fun mem => fragment (sameFragment.mp mem)
    have sameEnd := endsWith_normalizeEndpoint (noMark fragment)
    by_cases ampersand : Text.endsWith (normalizeEndpoint endpoint) '&' = true
    · have hidden : Hides endpoint name := Or.inr (Or.inl (sameEnd.mp ampersand))
      rw [if_pos (Or.inr ampersand), if_pos hidden]
    · rw [if_neg (not_or.mpr ⟨noFragment, ampersand⟩)]
      by_cases already : Text.containsText endpoint (name ++ "=") = true
      · have hidden : Hides endpoint name := Or.inr (Or.inr already)
        rw [if_pos already, if_pos hidden]
      · have shown : ¬ Hides endpoint name := by
          rintro (inEndpoint | ends | inText)
          · exact fragment inEndpoint
          · exact ampersand (sameEnd.mpr ends)
          · exact already inText
        rw [if_neg already, if_neg shown]

/-- The collections that the URL asks for. -/
theorem valuesOf_collections :
    Form.valuesOf (Text.bytes "wantedCollections")
        (buildSubscriptionUrlFull form endpoint wantedCollections wantedDids cursor).toList =
      if Hides endpoint "wantedCollections" then []
      else (requested wantedCollections).map Text.bytes := by
  apply valuesOf_eq_of_filter form noQuery wantedCollections wantedDids cursor (by decide)
  intro url
  rw [queryPairs, List.filter_append, List.filter_append, filter_of_name name_of_mem_filterPairs,
    filter_of_name name_of_mem_filterPairs, filter_of_name name_of_mem_cursorPairs,
    if_pos (by decide), if_neg (by decide), if_neg (by decide), List.append_nil, List.append_nil,
    map_filterPairs (decode_byteSerialize form)]

/-- The DIDs that the URL asks for. -/
theorem valuesOf_dids :
    Form.valuesOf (Text.bytes "wantedDids")
        (buildSubscriptionUrlFull form endpoint wantedCollections wantedDids cursor).toList =
      if Hides endpoint "wantedDids" then [] else (requested wantedDids).map Text.bytes := by
  apply valuesOf_eq_of_filter form noQuery wantedCollections wantedDids cursor (by decide)
  intro url
  rw [queryPairs, List.filter_append, List.filter_append, filter_of_name name_of_mem_filterPairs,
    filter_of_name name_of_mem_filterPairs, filter_of_name name_of_mem_cursorPairs,
    if_neg (by decide), if_pos (by decide), if_neg (by decide), List.append_nil, List.nil_append,
    map_filterPairs (decode_safeDid form)]

end Values

/-! ## The cursor of a URL -/

/-- The characters that a parameter follows. -/
def precedesParam (c : Char) : Bool := c == '?' || c == '&'

/-- The last parameter of a URL. -/
def lastParam (url : String) : String :=
  String.ofList (url.toList.rtakeWhile fun c => !precedesParam c)

/-- The cursor that the last parameter of a URL carries. -/
def cursorOf (url : String) : Option U64 :=
  (Text.stripPrefix (lastParam url) "cursor=").bind fun value => (parseU64 value).toOption

theorem lastParam_of_toList {url param : String} {front : List Char} {separator : Char}
    (url_eq : url.toList = front ++ [separator] ++ param.toList)
    (separates : precedesParam separator = true)
    (plain : ∀ c ∈ param.toList, precedesParam c = false) : lastParam url = param := by
  have passes : ∀ c ∈ param.toList.reverse, (!precedesParam c) = true := by
    intro c mem
    rw [plain c (List.mem_reverse.mp mem)]
    rfl
  have stop : (separator :: front.reverse).takeWhile (fun c => !precedesParam c) = [] := by
    rw [List.takeWhile_cons, separates]
    rfl
  rw [lastParam, List.rtakeWhile, url_eq, List.reverse_append, List.reverse_append,
    List.reverse_singleton, List.takeWhile_append_of_pos passes, List.singleton_append, stop,
    List.append_nil, List.reverse_reverse, String.ofList_toList]

/-- Attached parameters end in the last of them. -/
theorem lastParam_attachParams (url : String) (queryParams : List String) {param : String}
    (plain : ∀ c ∈ param.toList, precedesParam c = false) :
    lastParam (attachParams url (queryParams ++ [param])) = param := by
  have opens : ∃ front separator, precedesParam separator = true ∧
      (if !Text.endsWith url '?' && !Text.endsWith url '&' then
          url.push (if Text.contains url '?' then '&' else '?') else url).toList =
        front ++ [separator] := by
    split
    · refine ⟨url.toList, _, ?_, String.toList_push _⟩
      split <;> rfl
    · next ends =>
        have last : url.toList.getLast? = some '?' ∨ url.toList.getLast? = some '&' := by
          simpa [Text.endsWith, or_iff_not_imp_left] using ends
        rcases last with mark | ampersand
        · rcases List.getLast?_eq_some_iff.mp mark with ⟨front, url_eq⟩
          exact ⟨front, '?', rfl, url_eq⟩
        · rcases List.getLast?_eq_some_iff.mp ampersand with ⟨front, url_eq⟩
          exact ⟨front, '&', rfl, url_eq⟩
  rcases opens with ⟨front, separator, separates, opened⟩
  have nonempty : (queryParams ++ [param]).isEmpty = false := by simp
  unfold attachParams
  rw [nonempty, if_neg Bool.false_ne_true]
  dsimp only
  by_cases alone : queryParams = []
  · refine @lastParam_of_toList _ _ front separator ?_ separates plain
    rw [String.toList_append, opened, alone]
    rfl
  · have joined : "&".intercalate (queryParams ++ [param]) =
        "&".intercalate queryParams ++ "&" ++ param :=
      String.intercalate_append_of_ne_nil alone (List.cons_ne_nil _ _)
    have whole : ∀ opened : String,
        (opened ++ "&".intercalate (queryParams ++ [param])).toList =
          (opened ++ "&".intercalate queryParams).toList ++ ['&'] ++ param.toList := by
      intro opened
      rw [joined, String.toList_append, String.toList_append, String.toList_append,
        String.toList_append, List.append_assoc, List.append_assoc, List.append_assoc]
      rfl
    exact lastParam_of_toList (whole _) rfl plain

/-- The URL carries the cursor that the builder was given, unless the endpoint
has one. -/
theorem cursorOf_buildSubscriptionUrlFull (form : Form.Encoder) {endpoint : String}
    (fresh : Text.containsText endpoint "cursor=" = false)
    (wantedCollections wantedDids : List String) {cursor : U64} (positive : cursor > 0) :
    cursorOf (buildSubscriptionUrlFull form endpoint wantedCollections wantedDids (some cursor)) =
      some cursor := by
  have attached : cursorParams (normalizeEndpoint endpoint) (some cursor) =
      ["cursor=" ++ cursor.text] := by
    unfold cursorParams
    rw [containsText_normalizeEndpoint (by decide) (by decide) (by decide), fresh]
    exact if_pos (by simpa using positive)
  have plain : ∀ c ∈ ("cursor=" ++ cursor.text).toList, precedesParam c = false := by
    intro c mem
    rw [String.toList_append, List.mem_append] at mem
    rcases mem with inName | inValue
    · have plainName : "cursor=".toList.any precedesParam = false := by decide
      simpa using List.any_eq_false.mp plainName c inName
    · have separates := separator_of_isValueChar (isValueChar_text cursor c inValue)
      simp [precedesParam, separates.1.1, separates.2]
  unfold buildSubscriptionUrlFull
  dsimp only
  rw [attached, cursorOf, lastParam_attachParams _ _ plain, Text.stripPrefix_append,
    Option.bind_some, parseU64_text]
  rfl

end Skybase.Ingest
