import Skybase.Json.Rebuilt
import Skybase.Lexicon.Facet

/-!
# Messages and conversations

The types of `chat.bsky.convo` and their serialization.  Two readers are lenient:
they read values first, drop the tombstones and what has no text, and keep of the
rest what is a message.  So an item of a page is an error only where it cannot be
read as a value.
-/

namespace Skybase.Chat

open Json Json.Serde Lexicon

/-! ## Data -/

/-- `ConvoMember`. -/
structure ConvoMember where
  did : String
  handle : Option String
  displayName : Option String
deriving DecidableEq

/-- `MessageSender`. -/
structure MessageSender where
  did : String
deriving DecidableEq

/-- `MessageView`. -/
structure MessageView where
  id : String
  rev : String
  text : String
  facets : Option (List Facet)
  sender : MessageSender
  sentAt : String
deriving DecidableEq

/-- `DeletedMessageView`. -/
structure DeletedMessageView where
  id : String
  rev : String
  sender : MessageSender
  sentAt : String
deriving DecidableEq

/-- `ChatMessageView`. -/
inductive ChatMessageView where
  | message (view : MessageView)
  | deleted (view : DeletedMessageView)
  | unknown
deriving DecidableEq

/-- `ConvoView`. -/
structure ConvoView where
  id : String
  rev : String
  members : List ConvoMember
  lastMessage : Option MessageView
  unreadCount : U64
  status : Option String
deriving DecidableEq

/-- `ListConvosResponse`. -/
structure ListConvosResponse where
  convos : List ConvoView
  cursor : Option String
deriving DecidableEq

/-- `ListConvoRequestsResponse`. -/
structure ListConvoRequestsResponse where
  requests : List ConvoView
  cursor : Option String
deriving DecidableEq

/-- `GetMessagesResponse`. -/
structure GetMessagesResponse where
  messages : List MessageView
  cursor : Option String
deriving DecidableEq

/-! ## Serialization -/

def ConvoMember.names : List String := ["did", "handle", "displayName"]

def ConvoMember.serialize (member : ConvoMember) : Value :=
  structTree ConvoMember.names
    [some (.string member.did), some (writeOption .string member.handle),
      some (writeOption .string member.displayName)]

def ConvoMember.deserialize (tree : Value) : Option ConvoMember :=
  match structFields ConvoMember.names tree with
  | some [did, handle, displayName] => do
      pure {
        did := ← required readString did
        handle := ← defaulted none (readOption readString) handle
        displayName := ← defaulted none (readOption readString) displayName }
  | _ => none

def MessageSender.names : List String := ["did"]

def MessageSender.serialize (sender : MessageSender) : Value :=
  structTree MessageSender.names [some (.string sender.did)]

def MessageSender.deserialize (tree : Value) : Option MessageSender :=
  match structFields MessageSender.names tree with
  | some [did] => do pure { did := ← required readString did }
  | _ => none

def MessageView.names : List String := ["id", "rev", "text", "facets", "sender", "sentAt"]

/-- The fields as they are written. -/
def MessageView.fields (view : MessageView) : List (Option Value) :=
  [some (.string view.id), some (.string view.rev), some (.string view.text),
    view.facets.map (writeVec Facet.serialize), some view.sender.serialize,
    some (.string view.sentAt)]

def MessageView.serialize (view : MessageView) : Value := structTree names view.fields

def MessageView.ofFields : List (Option Value) → Option MessageView
  | [id, rev, text, facets, sender, sentAt] => do
      pure {
        id := ← required readString id
        rev := ← defaulted "" readString rev
        text := ← required readString text
        facets := ← defaulted none (readOption (readVec Facet.deserialize)) facets
        sender := ← required MessageSender.deserialize sender
        sentAt := ← required readString sentAt }
  | _ => none

def MessageView.deserialize (tree : Value) : Option MessageView :=
  (structFields names tree).bind ofFields

def DeletedMessageView.names : List String := ["id", "rev", "sender", "sentAt"]

def DeletedMessageView.fields (view : DeletedMessageView) : List (Option Value) :=
  [some (.string view.id), some (.string view.rev), some view.sender.serialize,
    some (.string view.sentAt)]

def ChatMessageView.serialize : ChatMessageView → Value
  | message view =>
      variantTree "$type" "chat.bsky.convo.defs#messageView"
        (structMembers MessageView.names view.fields)
  | deleted view =>
      variantTree "$type" "chat.bsky.convo.defs#deletedMessageView"
        (structMembers DeletedMessageView.names view.fields)
  | unknown => variantTree "$type" "Unknown" []

/-! ## Lenient readers -/

/-- Whether the type of a value is that of a tombstone. -/
def isDeletedMessageView (val : Value) : Bool :=
  ((val.get "$type").bind Value.asStr).any fun t =>
    "#deletedMessageView".toList.isSuffixOf t.toList

/-- Whether a value has a text. -/
def hasText (val : Value) : Bool := ((val.get "text").bind Value.asStr).isSome

/-- What the lenient readers keep of a value.  It stands deeper in its text than
a message of its own, so the limit for its features is met. -/
def activeMessage (val : Value) : Option MessageView :=
  if isDeletedMessageView val then none
  else if hasText val then MessageView.deserialize val
  else none

/-- `deserialize_optional_message_view`, at a level of the text. -/
def deserializeOptionalMessageView (level : Nat) (value : Value) : Option (Option MessageView) :=
  (readOption (buffered level readValue) value).map fun raw => raw.bind activeMessage

/-- `deserialize_message_views_filtering_deleted`, for items at a level of the
text. -/
def deserializeMessageViewsFilteringDeleted (level : Nat) (value : Value) :
    Option (List MessageView) :=
  (readVec (buffered level readValue) value).map fun rawItems => rawItems.filterMap activeMessage

/-! ## Conversations and pages -/

def ConvoView.names : List String :=
  ["id", "rev", "members", "lastMessage", "unreadCount", "status"]

/-- A conversation with a tree for its last message. -/
def ConvoView.treeAround (convo : ConvoView) (lastMessage : Value) : Value :=
  structTree names
    [some (.string convo.id), some (.string convo.rev),
      some (writeVec ConvoMember.serialize convo.members), some lastMessage,
      some (.number (.posInt convo.unreadCount)), some (writeOption .string convo.status)]

def ConvoView.serialize (convo : ConvoView) : Value :=
  convo.treeAround (writeOption MessageView.serialize convo.lastMessage)

/-- The fields of a conversation at a level of the text are one level deeper. -/
def ConvoView.deserialize (level : Nat) (tree : Value) : Option ConvoView :=
  match structFields names tree with
  | some [id, rev, members, lastMessage, unreadCount, status] => do
      pure {
        id := ← required readString id
        rev := ← defaulted "" readString rev
        members := ← defaulted [] (readVec ConvoMember.deserialize) members
        lastMessage := ← defaulted none (deserializeOptionalMessageView (level + 1)) lastMessage
        unreadCount := ← defaulted 0 readUsize unreadCount
        status := ← defaulted none (readOption readString) status }
  | _ => none

/-- A page of trees, under a name. -/
def pageTree (name : String) (listed : List Value) (cursor : Option String) : Value :=
  structTree [name, "cursor"] [some (.array listed), some (writeOption .string cursor)]

/-- A page of conversations, under a name. -/
def readConvos (name : String) (tree : Value) : Option (List ConvoView × Option String) :=
  match structFields [name, "cursor"] tree with
  | some [convos, cursor] => do
      let convos ← defaulted [] (readVec (ConvoView.deserialize 2)) convos
      let cursor ← defaulted none (readOption readString) cursor
      pure (convos, cursor)
  | _ => none

def ListConvosResponse.serialize (response : ListConvosResponse) : Value :=
  pageTree "convos" (response.convos.map ConvoView.serialize) response.cursor

def ListConvosResponse.deserialize (tree : Value) : Option ListConvosResponse :=
  (readConvos "convos" tree).map fun page => ⟨page.1, page.2⟩

def ListConvoRequestsResponse.serialize (response : ListConvoRequestsResponse) : Value :=
  pageTree "requests" (response.requests.map ConvoView.serialize) response.cursor

def ListConvoRequestsResponse.deserialize (tree : Value) : Option ListConvoRequestsResponse :=
  (readConvos "requests" tree).map fun page => ⟨page.1, page.2⟩

def GetMessagesResponse.serialize (response : GetMessagesResponse) : Value :=
  pageTree "messages" (response.messages.map MessageView.serialize) response.cursor

def GetMessagesResponse.deserialize (tree : Value) : Option GetMessagesResponse :=
  match structFields ["messages", "cursor"] tree with
  | some [messages, cursor] => do
      pure {
        messages := ← defaulted [] (deserializeMessageViewsFilteringDeleted 2) messages
        cursor := ← defaulted none (readOption readString) cursor }
  | _ => none

/-- `json` of a response with the given text. -/
def ofText {α : Type} (codec : TreeCodec) (read : Value → Option α) (text : String) : Option α :=
  match codec.read text with
  | .ok tree => read tree
  | .error _ => none

end Skybase.Chat
