import Skybase.Form.Input
import Skybase.Integer

/-!
# The queries of the chat client

The URLs of the chat requests with parameters.  The values are put into them as
they are, so that a server reads other values, or other parameters, where a
value holds a character with a meaning in a query or one that the URL parser of
the HTTP client drops.
-/

namespace Skybase.Chat

/-- The URL of a chat service, without trailing slashes, query and fragment. -/
structure Service where
  baseUrl : String
  noQuery : '?' ∉ baseUrl.toList
  noFragment : '#' ∉ baseUrl.toList

/-- The parameters of `list_convos` and `list_convo_requests`. -/
def listParams (limit : Option U64) (cursor : Option String) : List String :=
  (limit.toList.map fun limit => "limit=" ++ limit.text) ++
    cursor.toList.map fun cursor => "cursor=" ++ cursor

/-- The URL of a listing. -/
def listUrl (url : String) (queryParams : List String) : String :=
  if queryParams.isEmpty then url else url ++ "?" ++ String.intercalate "&" queryParams

/-- The URL of `list_convos`. -/
def listConvosUrl (service : Service) (limit : Option U64) (cursor : Option String) : String :=
  listUrl (service.baseUrl ++ "/xrpc/chat.bsky.convo.listConvos") (listParams limit cursor)

/-- The URL of `list_convo_requests`. -/
def listConvoRequestsUrl (service : Service) (limit : Option U64) (cursor : Option String) :
    String :=
  listUrl (service.baseUrl ++ "/xrpc/chat.bsky.convo.listConvoRequests") (listParams limit cursor)

/-- The URL of `get_messages`. -/
def getMessagesUrl (service : Service) (convoId : String) (limit : Option U64)
    (cursor : Option String) : String :=
  let url := service.baseUrl ++ "/xrpc/chat.bsky.convo.getMessages?convoId=" ++ convoId
  let url := url ++ (limit.elim "" fun limit => "&limit=" ++ limit.text)
  url ++ cursor.elim "" fun cursor => "&cursor=" ++ cursor

/-- The URL of `get_convo_for_members`. -/
def getConvoForMembersUrl (service : Service) (members : List String) : String :=
  service.baseUrl ++ "/xrpc/chat.bsky.convo.getConvoForMembers?" ++
    String.intercalate "&" (members.map fun m => "members=" ++ m)

/-! ## The parameters of a request -/

/-- The parameters that a server reads from a URL, which the client has parsed. -/
def received (url : String) : List (List UInt8 × List UInt8) :=
  Form.parametersOf (Form.inputOf url.toList)

/-- A parameter that a request is made with. -/
def given (name value : String) : List UInt8 × List UInt8 := (Text.bytes name, Text.bytes value)

/-- The limit and the cursor that a request is made with. -/
def givenPage (limit : Option U64) (cursor : Option String) : List (List UInt8 × List UInt8) :=
  (limit.toList.map fun limit => given "limit" limit.text) ++
    cursor.toList.map fun cursor => given "cursor" cursor

/-- A value that is read as it is: it has no `&`, `#` and `+`, no percent sign with two
hexadecimal digits after it, no tab and no line end. -/
def IsVerbatim (value : String) : Prop := Form.Kept value.toList

/-- A value that does not end in a control or a space. -/
def IsUntrimmed (value : String) : Prop := Form.Untrimmed value.toList

/-! ## What a server reads -/

/-- A parameter as the URLs hold it. -/
def interpolated (parameter : String × String) : String :=
  parameter.1 ++ "=" ++ parameter.2

/-- The names that the client uses. -/
def paramNames : List String := ["limit", "cursor", "convoId", "members"]

theorem isAlphanum_of_mem {name : String} (mem : name ∈ paramNames) :
    ∀ c ∈ name.toList, c.isAlphanum = true := by
  have alphanum : (paramNames.all fun name => name.toList.all Char.isAlphanum) = true := by
    decide
  exact List.all_eq_true.mp (List.all_eq_true.mp alphanum name mem)

theorem isVerbatim_text (value : U64) : IsVerbatim value.text where
  verbatim := (Form.plainName_of_isAlphanum value.isAlphanum_text).verbatim
  kept c mem := Form.isKept_of_isAlphanum (value.isAlphanum_text c mem)

theorem isUntrimmed_text (value : U64) : IsUntrimmed value.text := fun c last =>
  Form.isTrimmed_of_isAlphanum (value.isAlphanum_text c (List.mem_of_getLast? last))

theorem toList_intercalate_interpolated (parameters : List (String × String)) :
    (String.intercalate "&" (parameters.map interpolated)).toList =
      Form.joined (parameters.map fun p => (p.1.toList, p.2.toList)) := by
  have separator : "&".toList = ['&'] := by decide
  have equals : "=".toList = ['='] := by decide
  rw [String.toList_intercalate, Form.joined, separator, List.map_map, List.map_map]
  refine congrArg _ (List.map_congr_left fun p _ => ?_)
  simp [interpolated, Form.written, equals]

/-- The parameters that a URL is given are read from it exactly if their values are verbatim and
the end of the last one is not trimmed. -/
theorem received_iff {front : String} (path : '/' ∈ front.toList) (noQuery : '?' ∉ front.toList)
    (noFragment : '#' ∉ front.toList) {parameters : List (String × String)}
    (names : ∀ p ∈ parameters, p.1 ∈ paramNames) :
    received (front ++ "?" ++ String.intercalate "&" (parameters.map interpolated)) =
        parameters.map (fun p => given p.1 p.2) ↔
      (∀ p ∈ parameters, IsVerbatim p.2) ∧ ∀ p ∈ parameters.getLast?, IsUntrimmed p.2 := by
  have mark : "?".toList = ['?'] := by decide
  let texts := parameters.map fun p => (p.1.toList, p.2.toList)
  have plain : ∀ p ∈ texts, Form.PlainName p.1 :=
    List.forall_mem_map.mpr fun p mem =>
      Form.plainName_of_isAlphanum (isAlphanum_of_mem (names p mem))
  have kept : ∀ p ∈ texts, ∀ c ∈ p.1, Form.isKept c = true :=
    List.forall_mem_map.mpr fun p mem c inside =>
      Form.isKept_of_isAlphanum (isAlphanum_of_mem (names p mem) c inside)
  have last : (∀ p ∈ texts.getLast?, Form.Untrimmed p.2) ↔
      ∀ p ∈ parameters.getLast?, IsUntrimmed p.2 := by
    rw [List.getLast?_map]
    cases parameters.getLast? <;> simp [IsUntrimmed]
  have read := Form.parametersOf_inputOf_joined_iff path (by decide) noFragment noQuery plain kept
  rw [last, List.map_map, List.forall_mem_map] at read
  rw [received, String.toList_append, String.toList_append, toList_intercalate_interpolated, mark,
    List.append_assoc]
  exact read

/-! ## The four requests -/

/-- The limit and the cursor of a request. -/
def pageParameters (limit : Option U64) (cursor : Option String) : List (String × String) :=
  (limit.toList.map fun limit => ("limit", limit.text)) ++
    cursor.toList.map fun cursor => ("cursor", cursor)

theorem mem_pageParameters {limit : Option U64} {cursor : Option String} {p : String × String}
    (mem : p ∈ pageParameters limit cursor) : p.1 ∈ paramNames := by
  rw [pageParameters, List.mem_append, List.mem_map, List.mem_map] at mem
  obtain ⟨_, -, rfl⟩ | ⟨_, -, rfl⟩ := mem
  · simp [paramNames]
  · simp [paramNames]

theorem verbatim_pageParameters_iff (limit : Option U64) (cursor : Option String) :
    (∀ p ∈ pageParameters limit cursor, IsVerbatim p.2) ↔ ∀ c ∈ cursor, IsVerbatim c := by
  simp [pageParameters, or_imp, forall_and, isVerbatim_text]

/-- A limit ends in a digit, so the end of a page's URL is that of the cursor. -/
theorem untrimmed_pageParameters_iff (limit : Option U64) (cursor : Option String) :
    (∀ p ∈ (pageParameters limit cursor).getLast?, IsUntrimmed p.2) ↔
      ∀ c ∈ cursor, IsUntrimmed c := by
  cases cursor <;> cases limit <;> simp [pageParameters, isUntrimmed_text]

theorem listParams_eq (limit : Option U64) (cursor : Option String) :
    listParams limit cursor = (pageParameters limit cursor).map interpolated := by
  have limitName : "limit" ++ "=" = "limit=" := by decide
  have cursorName : "cursor" ++ "=" = "cursor=" := by decide
  simp [listParams, pageParameters, interpolated, Function.comp_def, limitName, cursorName]

theorem givenPage_eq (limit : Option U64) (cursor : Option String) :
    givenPage limit cursor = (pageParameters limit cursor).map fun p => given p.1 p.2 := by
  simp [givenPage, pageParameters, Function.comp_def]

/-- A URL with a path, and without a query and a fragment. -/
structure IsPlain (url : String) : Prop where
  path : '/' ∈ url.toList
  noQuery : '?' ∉ url.toList
  noFragment : '#' ∉ url.toList

/-- A path after the URL of a service adds neither a query nor a fragment. -/
theorem Service.plain (service : Service) {path : String} (plain : IsPlain path) :
    IsPlain (service.baseUrl ++ path) where
  path := by
    rw [String.toList_append]
    exact List.mem_append_right _ plain.path
  noQuery := by
    rw [String.toList_append, List.mem_append, not_or]
    exact ⟨service.noQuery, plain.noQuery⟩
  noFragment := by
    rw [String.toList_append, List.mem_append, not_or]
    exact ⟨service.noFragment, plain.noFragment⟩

theorem received_listUrl_iff {url : String} (plain : IsPlain url) (limit : Option U64)
    (cursor : Option String) :
    received (listUrl url (listParams limit cursor)) = givenPage limit cursor ↔
      ∀ c ∈ cursor, IsVerbatim c ∧ IsUntrimmed c := by
  rw [listUrl, listParams_eq, givenPage_eq]
  simp only [imp_and, forall_and]
  rw [← verbatim_pageParameters_iff limit, ← untrimmed_pageParameters_iff limit]
  cases parameters : pageParameters limit cursor with
  | nil =>
      apply iff_of_true
      · exact Form.parametersOf_inputOf_of_plain plain.noFragment plain.noQuery
      · exact ⟨List.forall_mem_nil _, fun p absurd => by cases absurd⟩
  | cons p rest =>
      have names : ∀ q ∈ p :: rest, q.1 ∈ paramNames := fun q mem =>
        mem_pageParameters (parameters ▸ mem)
      exact received_iff plain.path plain.noQuery plain.noFragment names

theorem getMessagesUrl_eq (service : Service) (convoId : String) (limit : Option U64)
    (cursor : Option String) :
    getMessagesUrl service convoId limit cursor =
      service.baseUrl ++ "/xrpc/chat.bsky.convo.getMessages" ++ "?" ++
        String.intercalate "&"
          ((("convoId", convoId) :: pageParameters limit cursor).map interpolated) := by
  have path : "/xrpc/chat.bsky.convo.getMessages?convoId=" =
      "/xrpc/chat.bsky.convo.getMessages" ++ "?" ++ ("convoId" ++ "=") := by decide
  have limitName : "&limit=" = "&" ++ ("limit" ++ "=") := by decide
  have cursorName : "&cursor=" = "&" ++ ("cursor" ++ "=") := by decide
  cases limit <;> cases cursor <;>
    simp only [getMessagesUrl, pageParameters, interpolated, path, limitName, cursorName,
      Option.elim_some, Option.elim_none, Option.toList_some, Option.toList_none, List.map_cons,
      List.map_nil, List.nil_append, List.append_nil, List.cons_append,
      String.intercalate_cons_cons, String.intercalate_singleton, String.append_assoc,
      String.append_empty]

theorem getConvoForMembersUrl_eq (service : Service) (members : List String) :
    getConvoForMembersUrl service members =
      service.baseUrl ++ "/xrpc/chat.bsky.convo.getConvoForMembers" ++ "?" ++
        String.intercalate "&" ((members.map fun m => ("members", m)).map interpolated) := by
  have path : "/xrpc/chat.bsky.convo.getConvoForMembers?" =
      "/xrpc/chat.bsky.convo.getConvoForMembers" ++ "?" := by decide
  have name : "members" ++ "=" = "members=" := by decide
  simp only [getConvoForMembersUrl, interpolated, List.map_map, Function.comp_def, path, name,
    String.append_assoc]

theorem received_getMessagesUrl_iff (service : Service) (convoId : String) (limit : Option U64)
    (cursor : Option String) :
    received (getMessagesUrl service convoId limit cursor) =
        given "convoId" convoId :: givenPage limit cursor ↔
      IsVerbatim convoId ∧ (limit = none → cursor = none → IsUntrimmed convoId) ∧
        ∀ c ∈ cursor, IsVerbatim c ∧ IsUntrimmed c := by
  have plain : IsPlain (service.baseUrl ++ "/xrpc/chat.bsky.convo.getMessages") :=
    service.plain ⟨by decide, by decide, by decide⟩
  have names : ∀ p ∈ ("convoId", convoId) :: pageParameters limit cursor, p.1 ∈ paramNames :=
    List.forall_mem_cons.mpr ⟨by simp [paramNames], fun p mem => mem_pageParameters mem⟩
  have last : (∀ p ∈ (("convoId", convoId) :: pageParameters limit cursor).getLast?,
      IsUntrimmed p.2) ↔
        (limit = none → cursor = none → IsUntrimmed convoId) ∧ ∀ c ∈ cursor, IsUntrimmed c := by
    rw [← untrimmed_pageParameters_iff limit]
    cases cursor <;> cases limit <;> simp [pageParameters]
  have all : (∀ p ∈ ("convoId", convoId) :: pageParameters limit cursor, IsVerbatim p.2) ↔
      IsVerbatim convoId ∧ ∀ c ∈ cursor, IsVerbatim c := by
    rw [← verbatim_pageParameters_iff limit]
    exact List.forall_mem_cons
  have wanted : (("convoId", convoId) :: pageParameters limit cursor).map (fun p => given p.1 p.2) =
      given "convoId" convoId :: (pageParameters limit cursor).map fun p => given p.1 p.2 :=
    List.map_cons
  have read := received_iff plain.path plain.noQuery plain.noFragment names
  rw [last, all, wanted] at read
  rw [getMessagesUrl_eq, givenPage_eq, read]
  constructor
  · rintro ⟨⟨verbatim, verbatims⟩, ends, untrimmed⟩
    exact ⟨verbatim, ends, fun c mem => ⟨verbatims c mem, untrimmed c mem⟩⟩
  · rintro ⟨verbatim, ends, cursors⟩
    exact ⟨⟨verbatim, fun c mem => (cursors c mem).1⟩, ends, fun c mem => (cursors c mem).2⟩

theorem received_getConvoForMembersUrl_iff (service : Service) (members : List String) :
    received (getConvoForMembersUrl service members) = members.map (given "members") ↔
      (∀ m ∈ members, IsVerbatim m) ∧ ∀ m ∈ members.getLast?, IsUntrimmed m := by
  have plain : IsPlain (service.baseUrl ++ "/xrpc/chat.bsky.convo.getConvoForMembers") :=
    service.plain ⟨by decide, by decide, by decide⟩
  have names : ∀ p ∈ members.map fun m => ("members", m), p.1 ∈ paramNames :=
    List.forall_mem_map.mpr fun m _ => by simp [paramNames]
  have wanted : members.map (given "members") =
      (members.map fun m => ("members", m)).map fun p => given p.1 p.2 := by
    rw [List.map_map]
    rfl
  have last : (∀ p ∈ (members.map fun m => ("members", m)).getLast?, IsUntrimmed p.2) ↔
      ∀ m ∈ members.getLast?, IsUntrimmed m := by
    rw [List.getLast?_map]
    cases members.getLast? <;> simp
  have read := received_iff plain.path plain.noQuery plain.noFragment names
  rw [last, List.forall_mem_map] at read
  rw [getConvoForMembersUrl_eq, wanted]
  exact read

/-- The parameters of the four requests arrive exactly if their values are verbatim and the one
that ends the URL does not end in a control or a space. -/
theorem received_parameters_iff (service : Service) (convoId : String) (limit : Option U64)
    (cursor : Option String) (members : List String) :
    (received (listConvosUrl service limit cursor) = givenPage limit cursor ↔
        ∀ c ∈ cursor, IsVerbatim c ∧ IsUntrimmed c) ∧
      (received (listConvoRequestsUrl service limit cursor) = givenPage limit cursor ↔
        ∀ c ∈ cursor, IsVerbatim c ∧ IsUntrimmed c) ∧
      (received (getMessagesUrl service convoId limit cursor) =
          given "convoId" convoId :: givenPage limit cursor ↔
        IsVerbatim convoId ∧ (limit = none → cursor = none → IsUntrimmed convoId) ∧
          ∀ c ∈ cursor, IsVerbatim c ∧ IsUntrimmed c) ∧
      (received (getConvoForMembersUrl service members) = members.map (given "members") ↔
        (∀ m ∈ members, IsVerbatim m) ∧ ∀ m ∈ members.getLast?, IsUntrimmed m) := by
  refine ⟨?_, ?_, ?_, ?_⟩
  · have plain : IsPlain (service.baseUrl ++ "/xrpc/chat.bsky.convo.listConvos") :=
      service.plain ⟨by decide, by decide, by decide⟩
    exact received_listUrl_iff plain limit cursor
  · have plain : IsPlain (service.baseUrl ++ "/xrpc/chat.bsky.convo.listConvoRequests") :=
      service.plain ⟨by decide, by decide, by decide⟩
    exact received_listUrl_iff plain limit cursor
  · exact received_getMessagesUrl_iff service convoId limit cursor
  · exact received_getConvoForMembersUrl_iff service members

/-- The escapes of a DID are decoded: the member that a server reads is another one. -/
theorem received_members_escape : ∃ (service : Service) (members : List String),
    received (getConvoForMembersUrl service members) ≠ members.map (given "members") :=
  ⟨⟨"https://api.bsky.chat", by decide, by decide⟩,
    ["did:web:localhost%3A8080"], by decide⟩

end Skybase.Chat
