import Skybase.Form.Parameters
import Skybase.Ingest.Subscription

/-!
# The parameters of subscription URLs

What a form decoder reads from a URL of the builder: the parameters of the
endpoint and those that are asked for.  A parameter is lost where its name
stands in the endpoint already, be it in another parameter, and all of them are
where the endpoint ends in a character that the builder takes for a separator.
-/

namespace Skybase.Ingest

/-! ## What a URL is asked for -/

/-- The parameters that a list of entries asks for. -/
def wantedEntries (name : String) (entries : List String) : List (List UInt8 × List UInt8) :=
  (requested entries).map fun entry => (Text.bytes name, Text.bytes entry)

/-- The parameter that a cursor other than zero asks for. -/
def wantedCursor (cursor : Option U64) : List (List UInt8 × List UInt8) :=
  match cursor with
  | some c => if c > 0 then [(Text.bytes "cursor", Text.bytes c.text)] else []
  | none => []

/-- All parameters that are asked for. -/
def wantedParameters (wantedCollections wantedDids : List String) (cursor : Option U64) :
    List (List UInt8 × List UInt8) :=
  wantedEntries "wantedCollections" wantedCollections ++ wantedEntries "wantedDids" wantedDids ++
    wantedCursor cursor

/-- Nothing is asked for, or the name of the parameter does not stand in the endpoint. -/
def Takes (endpoint name : String) (parameters : List (List UInt8 × List UInt8)) : Prop :=
  parameters = [] ∨ Text.containsText endpoint (name ++ "=") = false

/-- What is attached to the URL begins a parameter: its query does not end in a question mark,
and if there is none it does not end in an ampersand. -/
def OpensParameter (url : List Char) : Prop :=
  match Form.queryOf url with
  | some query => query.getLast? ≠ some '?'
  | none => url.getLast? ≠ some '&'

/-- So it does for an endpoint: without a query, an ampersand at the end of it matters only if it
has a path, since else the builder puts a slash after it. -/
def Opens (endpoint : String) : Prop :=
  match Form.queryOf (Text.trim endpoint).toList with
  | some query => query.getLast? ≠ some '?'
  | none => ¬(Text.endsWith (Text.trim endpoint) '&' = true ∧ '/' ∈ schemeless endpoint)

/-! ## What is attached -/

/-- The parameters that an endpoint leaves of those that are asked for. -/
def taken (endpoint name : String) (parameters : List (List UInt8 × List UInt8)) :
    List (List UInt8 × List UInt8) :=
  if Text.containsText endpoint (name ++ "=") then [] else parameters

theorem length_taken_le (endpoint name : String) (parameters : List (List UInt8 × List UInt8)) :
    (taken endpoint name parameters).length ≤ parameters.length := by
  unfold taken
  split <;> simp

theorem taken_of_takes {endpoint name : String} {parameters : List (List UInt8 × List UInt8)}
    (takes : Takes endpoint name parameters) : taken endpoint name parameters = parameters := by
  unfold taken
  obtain rfl | absent := takes
  · exact ite_self _
  · rw [absent, if_neg Bool.false_ne_true]

theorem takes_of_length_le {endpoint name : String}
    {parameters : List (List UInt8 × List UInt8)}
    (le : parameters.length ≤ (taken endpoint name parameters).length) :
    Takes endpoint name parameters := by
  unfold taken at le
  split at le
  · exact .inl (List.eq_nil_of_length_eq_zero (Nat.le_zero.mp le))
  · next absent => exact .inr (Bool.eq_false_iff.mpr absent)

theorem map_decodedPair_filterPairs {url name : String} {encoded : String → String}
    (decodedName : Form.decodeComponent name.toList = Text.bytes name)
    (decoded : ∀ entry, Form.decodeComponent (encoded entry).toList = Text.bytes entry)
    (entries : List String) :
    (filterPairs url name encoded entries).map decodedPair =
      taken url name (wantedEntries name entries) := by
  unfold filterPairs taken
  split
  · rfl
  · rw [List.map_map]
    exact List.map_congr_left fun entry _ => Prod.ext decodedName (decoded entry)

theorem decode_text (value : U64) :
    Form.decodeComponent value.text.toList = Text.bytes value.text :=
  (Form.plainName_of_isAlphanum value.isAlphanum_text).decodeComponent_eq

theorem map_decodedPair_cursorPairs (url : String) (cursor : Option U64) :
    (cursorPairs url cursor).map decodedPair = taken url "cursor" (wantedCursor cursor) := by
  have name : "cursor" ++ "=" = "cursor=" := by decide
  have decodedName : Form.decodeComponent "cursor".toList = Text.bytes "cursor" := by decide
  unfold cursorPairs taken wantedCursor
  rw [name]
  cases cursor with
  | none => exact (ite_self _).symm
  | some c =>
      have pair : decodedPair ("cursor", c.text) = (Text.bytes "cursor", Text.bytes c.text) :=
        congrArg₂ Prod.mk decodedName (decode_text c)
      dsimp only
      by_cases positive : c > 0
      · cases Text.containsText url "cursor=" <;> simp [positive, pair]
      · rw [decide_eq_false positive, Bool.false_and, if_neg Bool.false_ne_true, if_neg positive,
          ite_self, List.map_nil]

/-- What is read from the attached parameters. -/
theorem map_decodedPair_queryPairs (form : Form.Encoder) (endpoint : String)
    (wantedCollections wantedDids : List String) (cursor : Option U64) :
    (queryPairs form (normalizeEndpoint endpoint) wantedCollections wantedDids cursor).map
        decodedPair =
      taken endpoint "wantedCollections" (wantedEntries "wantedCollections" wantedCollections) ++
          taken endpoint "wantedDids" (wantedEntries "wantedDids" wantedDids) ++
        taken endpoint "cursor" (wantedCursor cursor) := by
  have same : ∀ name ∈ ["wantedCollections", "wantedDids", "cursor"],
      Text.containsText (normalizeEndpoint endpoint) (name ++ "=") =
        Text.containsText endpoint (name ++ "=") := by
    have plain : ∀ name ∈ ["wantedCollections", "wantedDids", "cursor"],
        '/' ∉ (name ++ "=").toList ∧ '=' ∈ (name ++ "=").toList ∧
          (name ++ "=").toList.any Text.isWhitespace = false := by decide
    intro name mem
    obtain ⟨noSlash, isParam, solid⟩ := plain name mem
    exact containsText_normalizeEndpoint noSlash isParam solid endpoint
  rw [queryPairs, List.map_append, List.map_append, map_decodedPair_cursorPairs,
    map_decodedPair_filterPairs (by decide) (decode_byteSerialize form),
    map_decodedPair_filterPairs (by decide) (decode_safeDid form)]
  simp only [taken, same, List.mem_cons, true_or, or_true]

/-! ## What is read from the URL -/

/-- The characters that stand at the end of a URL with a query. -/
theorem endsWith_of_query {url : String} {front query : List Char}
    (url_eq : url.toList = front ++ '?' :: query) (c : Char) :
    Text.endsWith url c = true ↔ (query = [] ∧ c = '?') ∨ query.getLast? = some c := by
  rw [Text.endsWith, url_eq, beq_iff_eq, List.getLast?_append_of_ne_nil _ (List.cons_ne_nil _ _)]
  cases query with
  | nil => simp [eq_comm]
  | cons d query => simp [List.getLast?_cons_cons]

/-- Parameters follow a query after an ampersand, unless there is one or the builder takes a
question mark for it. -/
theorem toList_attachParams_of_query {url : String} {front query : List Char}
    (url_eq : url.toList = front ++ '?' :: query) {queryParams : List String}
    (nonempty : queryParams ≠ []) :
    (attachParams url queryParams).toList = front ++ '?' :: (query ++
      (if query = [] ∨ query.getLast? = some '?' ∨ query.getLast? = some '&' then [] else ['&']) ++
        ['&'].intercalate (queryParams.map String.toList)) := by
  have marked : Text.contains url '?' = true := by
    rw [Text.contains, url_eq, List.contains_eq_mem]
    exact decide_eq_true (List.mem_append_right _ List.mem_cons_self)
  have mark := endsWith_of_query url_eq '?'
  have ampersand := endsWith_of_query url_eq '&'
  have separator : "&".toList = ['&'] := by decide
  unfold attachParams
  rw [List.isEmpty_eq_false_iff.mpr nonempty, if_neg Bool.false_ne_true, marked]
  dsimp only
  rw [String.toList_append, String.toList_intercalate, separator]
  by_cases closed : query = [] ∨ query.getLast? = some '?' ∨ query.getLast? = some '&'
  · have kept : (!Text.endsWith url '?' && !Text.endsWith url '&') = false := by
      rw [Bool.and_eq_false_iff, Bool.not_eq_false', Bool.not_eq_false', mark, ampersand]
      tauto
    rw [kept, if_neg Bool.false_ne_true, if_pos closed, url_eq]
    simp
  · have pushed : (!Text.endsWith url '?' && !Text.endsWith url '&') = true := by
      rw [Bool.and_eq_true, Bool.not_eq_true', Bool.not_eq_true', ← Bool.not_eq_true,
        ← Bool.not_eq_true, mark, ampersand]
      tauto
    rw [pushed, if_pos rfl, if_neg closed, String.toList_push, url_eq]
    simp

section Attached

variable {url : String} (noFragment : '#' ∉ url.toList) {params : List (String × String)}
  (clean : ∀ param ∈ params, IsCleanParam param) (nonempty : params ≠ [])
include noFragment clean nonempty

/-- What is read from a URL with a query. -/
theorem parametersOf_attachParams_of_query {query : List Char}
    (found : Form.queryOf url.toList = some query) :
    Form.parametersOf (attachParams url (params.map paramText)).toList =
      Form.decodeQuery (query ++
        (if query = [] ∨ query.getLast? = some '?' ∨ query.getLast? = some '&' then []
          else ['&']) ++
        ['&'].intercalate ((params.map paramText).map String.toList)) := by
  obtain ⟨front, url_eq, noMark⟩ := Form.exists_of_queryOf noFragment found
  have attached := toList_attachParams_of_query url_eq
    (fun none => nonempty (List.map_eq_nil_iff.mp none) : params.map paramText ≠ [])
  rw [url_eq, List.mem_append, List.mem_cons, not_or, not_or] at noFragment
  refine Form.parametersOf_of_queryOf ?_
  rw [attached]
  refine Form.queryOf_append noFragment.1 noMark ?_
  rw [List.mem_append, List.mem_append, not_or, not_or]
  refine ⟨⟨noFragment.2.2, ?_⟩, (clean_pieces clean).2 '#' (.inl rfl)⟩
  split <;> simp

/-- Where they begin a parameter, the attached parameters are read after those of the URL. -/
theorem parametersOf_attachParams (opens : OpensParameter url.toList) :
    Form.parametersOf (attachParams url (params.map paramText)).toList =
      Form.parametersOf url.toList ++ params.map decodedPair := by
  have read := decodeQuery_pieces clean nonempty
  unfold OpensParameter at opens
  cases found : Form.queryOf url.toList with
  | none =>
      have noMark := (Form.queryOf_eq_none_iff_of_plain noFragment).mp found
      rw [found] at opens
      have opened : Text.endsWith url '&' = false := by
        rw [Text.endsWith, beq_eq_false_iff_ne]
        exact opens
      rw [parametersOf_attachParams_of_plain noFragment noMark clean, opened,
        if_neg Bool.false_ne_true, Form.parametersOf_of_plain noFragment noMark, List.nil_append]
  | some query =>
      rw [found] at opens
      rw [parametersOf_attachParams_of_query noFragment clean nonempty found,
        Form.parametersOf_of_queryOf found]
      by_cases none : query = []
      · rw [none, if_pos (.inl rfl), List.append_nil, List.nil_append, Form.decodeQuery_nil,
          List.nil_append, read]
      · by_cases ampersand : query.getLast? = some '&'
        · obtain ⟨front, rfl⟩ := List.getLast?_eq_some_iff.mp ampersand
          have own : Form.decodeQuery (front ++ ['&']) = Form.decodeQuery front := by
            rw [Form.decodeQuery_append, Form.decodeQuery_nil, List.append_nil]
          rw [if_pos (.inr (.inr ampersand)), List.append_nil, own, List.append_assoc,
            List.singleton_append, Form.decodeQuery_append, read]
        · rw [if_neg (by tauto), List.append_assoc, List.singleton_append,
            Form.decodeQuery_append, read]

/-- Else one of them is missing. -/
theorem length_parametersOf_attachParams_lt (closed : ¬OpensParameter url.toList) :
    (Form.parametersOf (attachParams url (params.map paramText)).toList).length <
      (Form.parametersOf url.toList).length + params.length := by
  have pieces := clean_pieces clean
  have pos : 0 < params.length := List.length_pos_of_ne_nil nonempty
  unfold OpensParameter at closed
  cases found : Form.queryOf url.toList with
  | none =>
      have noMark := (Form.queryOf_eq_none_iff_of_plain noFragment).mp found
      rw [found] at closed
      have ends : Text.endsWith url '&' = true := beq_iff_eq.mpr (not_not.mp closed)
      rw [parametersOf_attachParams_of_plain noFragment noMark clean, ends, if_pos rfl]
      exact Nat.lt_add_left _ pos
  | some query =>
      rw [found] at closed
      have mark : query.getLast? = some '?' := not_not.mp closed
      have left : query ≠ [] := by
        rintro rfl
        cases mark
      cases params with
      | nil => exact absurd rfl nonempty
      | cons param params =>
          have merged := Form.length_decodeQuery_merge pieces.1
            (by simp [mark] : ∀ c ∈ query.getLast?, c ≠ '&') left
          rw [parametersOf_attachParams_of_query noFragment clean nonempty found,
            if_pos (.inr (.inl mark)), List.append_nil, Form.parametersOf_of_queryOf found]
          rw [List.map_cons, List.map_cons, merged, List.length_map, List.length_map,
            List.length_cons]
          omega

end Attached

/-! ## The endpoint -/

/-- A scheme has no other characters than its own. -/
theorem mem_drop_of_startsWith {text scheme : String} {c : Char} {width : Nat}
    (same : c.toLower = c) (other : c ∉ scheme.toList) (isWidth : scheme.toList.length = width)
    (starts : Text.startsWith (Text.toAsciiLowercase text) scheme = true)
    (mem : c ∈ text.toList) : c ∈ text.toList.drop width := by
  subst isWidth
  rw [Text.startsWith, List.isPrefixOf_iff_prefix, Text.toAsciiLowercase, String.toList_ofList]
    at starts
  rw [← List.take_append_drop scheme.toList.length text.toList, List.mem_append] at mem
  obtain inScheme | inside := mem
  · have lower : c.toLower ∈ (text.toList.take scheme.toList.length).map Char.toLower :=
      List.mem_map_of_mem (f := Char.toLower) inScheme
    rw [same, List.map_take, ← List.prefix_iff_eq_take.mp starts] at lower
    exact absurd lower other
  · exact inside

theorem mem_schemeless {endpoint : String} (mem : '?' ∈ (Text.trim endpoint).toList) :
    '?' ∈ schemeless endpoint := by
  unfold schemeless
  dsimp only
  split
  · next plain => exact mem_drop_of_startsWith (by decide) (by decide) rfl plain mem
  · split
    · next secure => exact mem_drop_of_startsWith (by decide) (by decide) rfl secure mem
    · exact mem

theorem not_mem_trim {endpoint : String} {c : Char} (absent : c ∉ endpoint.toList) :
    c ∉ (Text.trim endpoint).toList :=
  fun mem => absent ((Text.trim_isInfix endpoint).subset mem)

section Endpoint

variable {endpoint : String} (noFragment : '#' ∉ endpoint.toList)
include noFragment

theorem not_mem_of_queryOf_trim (found : Form.queryOf (Text.trim endpoint).toList = none) :
    '?' ∉ endpoint.toList := by
  intro mem
  rw [Form.queryOf_eq_none_iff_of_plain (not_mem_trim noFragment)] at found
  obtain inside | white := Text.mem_trim_or_isWhitespace mem
  · exact found inside
  · exact absurd white (by decide)

/-- The normalized endpoint has the query of the endpoint. -/
theorem queryOf_normalizeEndpoint_eq :
    Form.queryOf (normalizeEndpoint endpoint).toList =
      Form.queryOf (Text.trim endpoint).toList := by
  cases found : Form.queryOf (Text.trim endpoint).toList with
  | none =>
      refine queryOf_normalizeEndpoint ?_
      rw [Form.queryOf_eq_none_iff_of_plain noFragment]
      exact not_mem_of_queryOf_trim noFragment found
  | some query =>
      obtain ⟨front, url_eq, -⟩ := Form.exists_of_queryOf (not_mem_trim noFragment) found
      have mark : '?' ∈ schemeless endpoint := mem_schemeless (by rw [url_eq]; simp)
      obtain ⟨scheme, scheme_eq, normalized⟩ := toList_normalizeEndpoint endpoint
      have plain : '#' ∉ scheme ∧ '?' ∉ scheme := by
        obtain rfl | rfl := scheme_eq <;> decide
      rw [normalized, if_pos (.inr mark), List.append_nil,
        Form.queryOf_append_of_plain plain.1 plain.2, found]

theorem parametersOf_normalizeEndpoint :
    Form.parametersOf (normalizeEndpoint endpoint).toList =
      Form.parametersOf (Text.trim endpoint).toList := by
  rw [Form.parametersOf, queryOf_normalizeEndpoint_eq noFragment, Form.parametersOf]

theorem opensParameter_normalizeEndpoint_iff :
    OpensParameter (normalizeEndpoint endpoint).toList ↔ Opens endpoint := by
  unfold OpensParameter Opens
  rw [queryOf_normalizeEndpoint_eq noFragment]
  cases found : Form.queryOf (Text.trim endpoint).toList with
  | none =>
      have ends := endsWith_normalizeEndpoint (not_mem_of_queryOf_trim noFragment found)
      rw [Text.endsWith, beq_iff_eq] at ends
      exact not_congr ends
  | some query => exact Iff.rfl

end Endpoint

/-! ## The URL -/

/-- What is read from the attached parameters is what was wanted if all of it was attached, to
a URL that opens a parameter for it. -/
theorem parametersOf_attachParams_iff {url : String} (noFragment : '#' ∉ url.toList)
    {params : List (String × String)} (clean : ∀ param ∈ params, IsCleanParam param)
    {parameters : List (List UInt8 × List UInt8)} (fewer : params.length ≤ parameters.length) :
    Form.parametersOf (attachParams url (params.map paramText)).toList =
        Form.parametersOf url.toList ++ parameters ↔
      params.map decodedPair = parameters ∧ (parameters = [] ∨ OpensParameter url.toList) := by
  by_cases nonempty : params = []
  · have attached : attachParams url [] = url := rfl
    rw [nonempty, List.map_nil, List.map_nil, attached, List.self_eq_append_right]
    exact ⟨fun none => ⟨none.symm, .inl none⟩, fun both => both.1.symm⟩
  · by_cases opens : OpensParameter url.toList
    · rw [parametersOf_attachParams noFragment clean nonempty opens, List.append_cancel_left_eq,
        and_iff_left (.inr opens)]
    · have missing := length_parametersOf_attachParams_lt noFragment clean nonempty opens
      refine iff_of_false (fun same => ?_) ?_
      · rw [same, List.length_append] at missing
        omega
      · rintro ⟨rfl, none | opens'⟩
        · exact nonempty (List.map_eq_nil_iff.mp none)
        · exact opens opens'

/-- All parameters are taken exactly if those of each name are. -/
theorem taken_append_iff (endpoint : String)
    (collections dids cursors : List (List UInt8 × List UInt8)) :
    taken endpoint "wantedCollections" collections ++ taken endpoint "wantedDids" dids ++
          taken endpoint "cursor" cursors = collections ++ dids ++ cursors ↔
      Takes endpoint "wantedCollections" collections ∧ Takes endpoint "wantedDids" dids ∧
        Takes endpoint "cursor" cursors := by
  constructor
  · intro same
    have length := congrArg List.length same
    have fewerCollections := length_taken_le endpoint "wantedCollections" collections
    have fewerDids := length_taken_le endpoint "wantedDids" dids
    have fewerCursors := length_taken_le endpoint "cursor" cursors
    simp only [List.length_append] at length
    exact ⟨takes_of_length_le (by omega), takes_of_length_le (by omega),
      takes_of_length_le (by omega)⟩
  · rintro ⟨takesCollections, takesDids, takesCursor⟩
    rw [taken_of_takes takesCollections, taken_of_takes takesDids, taken_of_takes takesCursor]

/-- A decoder reads the parameters of the endpoint and those that are asked for exactly if the
endpoint takes each of them and opens a parameter for them. -/
theorem parametersOf_buildSubscriptionUrlFull_iff (form : Form.Encoder) {baseUrl : String}
    (noFragment : '#' ∉ baseUrl.toList) (wantedCollections wantedDids : List String)
    (cursor : Option U64) :
    Form.parametersOf
          (buildSubscriptionUrlFull form baseUrl wantedCollections wantedDids cursor).toList =
        Form.parametersOf (Text.trim baseUrl).toList ++
          wantedParameters wantedCollections wantedDids cursor ↔
      (Takes baseUrl "wantedCollections" (wantedEntries "wantedCollections" wantedCollections) ∧
        Takes baseUrl "wantedDids" (wantedEntries "wantedDids" wantedDids) ∧
        Takes baseUrl "cursor" (wantedCursor cursor)) ∧
      (wantedParameters wantedCollections wantedDids cursor = [] ∨ Opens baseUrl) := by
  have noMark : '#' ∉ (normalizeEndpoint baseUrl).toList := by
    rwa [mem_normalizeEndpoint_iff (by decide) (by decide)]
  have read := map_decodedPair_queryPairs form baseUrl wantedCollections wantedDids cursor
  have fewer : (queryPairs form (normalizeEndpoint baseUrl) wantedCollections wantedDids
      cursor).length ≤ (wantedParameters wantedCollections wantedDids cursor).length := by
    rw [← List.length_map (f := decodedPair), read, wantedParameters]
    simp only [List.length_append]
    exact Nat.add_le_add (Nat.add_le_add (length_taken_le _ _ _) (length_taken_le _ _ _))
      (length_taken_le _ _ _)
  rw [buildSubscriptionUrlFull_eq, ← parametersOf_normalizeEndpoint noFragment,
    parametersOf_attachParams_iff noMark (isCleanParam_queryPairs form _ _ _ _) fewer, read,
    opensParameter_normalizeEndpoint_iff noFragment, wantedParameters, taken_append_iff]

/-- The cursor is read from the URL of a public endpoint. -/
theorem parametersOf_buildSubscriptionUrlFull_example :
    Form.parametersOf
        (buildSubscriptionUrlFull Form.standard "wss://jetstream2.us-east.bsky.network/subscribe"
          ["app.bsky.feed.post"] ["did:plc:a"] (some 5)).toList =
      Form.parametersOf
          (Text.trim "wss://jetstream2.us-east.bsky.network/subscribe").toList ++
        wantedParameters ["app.bsky.feed.post"] ["did:plc:a"] (some 5) := by
  have noQuery : Form.queryOf
      (Text.trim "wss://jetstream2.us-east.bsky.network/subscribe").toList = none := by
    decide
  have opens : Opens "wss://jetstream2.us-east.bsky.network/subscribe" := by
    unfold Opens
    rw [noQuery]
    exact fun ends => absurd ends.1 (by decide)
  exact (parametersOf_buildSubscriptionUrlFull_iff Form.standard (by decide) _ _ _).mpr
    ⟨⟨.inr (by decide), .inr (by decide), .inr (by decide)⟩, .inr opens⟩

/-- A parameter whose name ends like that of the cursor keeps the cursor out of the URL. -/
theorem parametersOf_buildSubscriptionUrlFull_xcursor :
    ∃ baseUrl, Text.startsWith baseUrl "wss://" = true ∧ '#' ∉ baseUrl.toList ∧
      (∀ parameter ∈ Form.parametersOf baseUrl.toList,
        parameter.1 ∉ ["wantedCollections", "wantedDids", "cursor"].map Text.bytes) ∧
      Form.parametersOf (buildSubscriptionUrlFull Form.standard baseUrl [] [] (some 5)).toList ≠
        Form.parametersOf baseUrl.toList ++ wantedParameters [] [] (some 5) :=
  ⟨"wss://h/?xcursor=1", by decide, by decide, by decide,
    by decide⟩

end Skybase.Ingest
