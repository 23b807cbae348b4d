import Skybase.Chat.Messages

/-!
# Pages of the chat service

What the client reads from a page: of what the service lists, the messages, in
their order, whatever their type is called, unless it is that of a tombstone.
Tombstones and values that lack a field of a message are passed over; none of
them makes the page an error, unless it is too deep for the parser.
-/

namespace Skybase.Lexicon

open Json Json.Serde

/-! ## Facets in values -/

theorem ByteSlice.rebuilt : Rebuilt ByteSlice.serialize ByteSlice.deserialize where
  read_canonicalize again slice := by
    rw [ByteSlice.serialize, reread_structTree, ByteSlice.deserialize,
      structFields_canonicalize ByteSlice.nodup_names rfl]
    simp only [List.map_cons, List.map_nil, Option.map_some, Rebuilt.usize.required_some]
    rfl
  ne_null _ := Value.noConfusion

namespace FacetFeature

theorem field_canonicalize (name text : String) :
    field name (structTree [name] [some (.string text)]).canonicalize = some text := by
  have nodup : [name].Nodup := List.nodup_cons.mpr ⟨List.not_mem_nil, List.nodup_nil⟩
  rw [field, structFields_canonicalize nodup rfl]
  rfl

/-- A variant in a value is read as its content is. -/
theorem bind_taggedContent_canonicalize {variant : String} {members : List (String × Value)}
    (nodup : (members.map Prod.fst).Nodup) (absent : "$type" ∉ members.map Prod.fst) :
    (do
      let (variant, content) ← taggedContent "$type"
        (variantTree "$type" variant members).canonicalize
      ofContent variant content) = ofContent variant (Value.object members).canonicalize := by
  rw [taggedContent_canonicalize nodup absent]
  rfl

theorem nodup_field (name : String) (values : List (Option Value)) :
    ((structMembers [name] values).map Prod.fst).Nodup :=
  nodup_structMembers (List.nodup_cons.mpr ⟨List.not_mem_nil, List.nodup_nil⟩) values

theorem rebuilt : Rebuilt serialize deserialize where
  read_canonicalize again feature := by
    have shallow : 4 + (feature.serialize.reread again).canonicalize.depth ≤ 127 := by
      have depth := Value.depth_canonicalize_le (feature.serialize.reread again)
      rw [Value.depth_reread, depth_serialize] at depth
      omega
    rw [deserialize, buffered_of_le shallow]
    cases feature with
    | mention did =>
        have named : "did" ≠ "$type" := by simp
        rw [serialize, reread_variantTree, rereadMembers_structMembers,
          bind_taggedContent_canonicalize (nodup_field "did" _) (not_mem_structMembers named _),
          ofContent_mention]
        exact congrArg (Option.map mention) (field_canonicalize "did" did)
    | link uri =>
        have named : "uri" ≠ "$type" := by simp
        rw [serialize, reread_variantTree, rereadMembers_structMembers,
          bind_taggedContent_canonicalize (nodup_field "uri" _) (not_mem_structMembers named _),
          ofContent_link]
        exact congrArg (Option.map link) (field_canonicalize "uri" uri)
    | tag name =>
        have named : "tag" ≠ "$type" := by simp
        rw [serialize, reread_variantTree, rereadMembers_structMembers,
          bind_taggedContent_canonicalize (nodup_field "tag" _) (not_mem_structMembers named _),
          ofContent_tag]
        exact congrArg (Option.map tag) (field_canonicalize "tag" name)
    | unknown =>
        have empty : (([] : List (String × Value)).map Prod.fst).Nodup := List.nodup_nil
        rw [serialize, reread_variantTree, Value.rereadMembers,
          bind_taggedContent_canonicalize empty List.not_mem_nil, ofContent_unknown]
        rfl
  ne_null feature absurd := by
    cases feature <;> cases absurd

end FacetFeature

theorem Facet.rebuilt : Rebuilt Facet.serialize Facet.deserialize where
  read_canonicalize again facet := by
    rw [Facet.serialize, reread_structTree, Facet.deserialize,
      structFields_canonicalize Facet.nodup_names rfl]
    simp only [List.map_cons, List.map_nil, Option.map_some, ByteSlice.rebuilt.required_some,
      FacetFeature.rebuilt.vec.required_some]
    rfl
  ne_null _ := Value.noConfusion

end Skybase.Lexicon

namespace Skybase.Chat

open Json Json.Serde Lexicon

/-! ## Members and senders -/

theorem ConvoMember.nodup_names : ConvoMember.names.Nodup := by simp [ConvoMember.names]

theorem MessageSender.nodup_names : MessageSender.names.Nodup := by simp [MessageSender.names]

theorem MessageView.nodup_names : MessageView.names.Nodup := by simp [MessageView.names]

theorem DeletedMessageView.nodup_names : DeletedMessageView.names.Nodup := by
  simp [DeletedMessageView.names]

theorem ConvoView.nodup_names : ConvoView.names.Nodup := by simp [ConvoView.names]

theorem ConvoMember.codec : Codec 1 ConvoMember.serialize ConvoMember.deserialize where
  read_write again member := by
    rw [ConvoMember.serialize, reread_structTree, ConvoMember.deserialize,
      structFields_structTree ConvoMember.nodup_names rfl]
    simp only [List.map_cons, List.map_nil, Option.map_some, Codec.string.defaulted_writeOption]
    rfl
  depth_le member := by
    have handle := Codec.string.depth_writeOption_le member.handle
    have displayName := Codec.string.depth_writeOption_le member.displayName
    refine depth_structTree_le ?_
    intro value mem
    simp only [List.mem_cons, Option.some.injEq, List.not_mem_nil, or_false] at mem
    rcases mem with rfl | rfl | rfl
    · exact le_rfl
    · exact handle
    · exact displayName
  ne_null _ := Value.noConfusion

theorem MessageSender.rebuilt : Rebuilt MessageSender.serialize MessageSender.deserialize where
  read_canonicalize again sender := by
    rw [MessageSender.serialize, reread_structTree, MessageSender.deserialize,
      structFields_canonicalize MessageSender.nodup_names rfl]
    rfl
  ne_null _ := Value.noConfusion

/-! ## Messages -/

namespace MessageView

/-- The fields of a message in a value. -/
def rebuiltFields (again : U64 → U64) (view : MessageView) : List (Option Value) :=
  (view.fields.map (Option.map (Value.reread again))).map (Option.map Value.canonicalize)

theorem ofFields_rebuiltFields (again : U64 → U64) (view : MessageView) :
    ofFields (view.rebuiltFields again) = some view := by
  rw [rebuiltFields, fields]
  simp only [List.map_cons, List.map_nil, Option.map_some, ofFields,
    Facet.rebuilt.vec.defaulted_skipped, MessageSender.rebuilt.required_some]
  rfl

/-- A message is read from the value that it was written as. -/
theorem deserialize_canonicalize (again : U64 → U64) (view : MessageView) :
    deserialize (view.serialize.reread again).canonicalize = some view := by
  rw [serialize, reread_structTree, deserialize, structFields_canonicalize nodup_names rfl]
  exact view.ofFields_rebuiltFields again

/-- A message under the name of a type. -/
def typed (variant : String) (view : MessageView) : Value :=
  variantTree "$type" variant (structMembers names view.fields)

theorem not_mem_names : "$type" ∉ names := by simp [names]

/-- A type beside the fields does not matter. -/
theorem structFields_typed (again : U64 → U64) (variant : String) (view : MessageView) :
    structFields names ((view.typed variant).reread again).canonicalize =
      some (view.rebuiltFields again) := by
  rw [typed, reread_variantTree, rereadMembers_structMembers,
    structFields_canonicalize_variantTree not_mem_names nodup_names rfl]
  rfl

theorem depth_fields_le (view : MessageView) {value : Value} (mem : some value ∈ view.fields) :
    value.depth ≤ 4 := by
  simp only [fields, List.mem_cons, Option.some.injEq, List.not_mem_nil, or_false] at mem
  rcases mem with rfl | rfl | rfl | facets | rfl | rfl
  · exact Nat.zero_le 4
  · exact Nat.zero_le 4
  · exact Nat.zero_le 4
  · rcases Option.map_eq_some_iff.mp facets.symm with ⟨given, _, rfl⟩
    exact Facet.codec.vec.depth_le given
  · exact Nat.le_add_left 1 3
  · exact Nat.zero_le 4

theorem depth_serialize_le (view : MessageView) : view.serialize.depth ≤ 5 :=
  depth_structTree_le fun _ mem => view.depth_fields_le mem

theorem depth_typed_le (variant : String) (view : MessageView) :
    (view.typed variant).depth ≤ 5 := by
  rw [typed, depth_variantTree]
  exact view.depth_serialize_le

end MessageView

/-! ## The lenient readers -/

theorem isDeletedMessageView_reread (again : U64 → U64) (val : Value) :
    isDeletedMessageView (val.reread again) = isDeletedMessageView val := by
  rw [isDeletedMessageView, isDeletedMessageView, Value.get_reread, Option.bind_map]
  simp only [Function.comp_def, Value.asStr_reread]

theorem hasText_reread (again : U64 → U64) (val : Value) :
    hasText (val.reread again) = hasText val := by
  rw [hasText, hasText, Value.get_reread, Option.bind_map]
  simp only [Function.comp_def, Value.asStr_reread]

/-- The type of a variant in a value. -/
theorem isDeletedMessageView_variantTree {variant : String} {members : List (String × Value)}
    (nodup : (members.map Prod.fst).Nodup) (absent : "$type" ∉ members.map Prod.fst) :
    isDeletedMessageView (variantTree "$type" variant members).canonicalize =
      "#deletedMessageView".toList.isSuffixOf variant.toList := by
  rw [variantTree, Value.canonicalize, isDeletedMessageView, Value.get,
    lookup_of_fieldOf (fieldOf_tag_canonicalize nodup absent variant)]
  rfl

/-- A struct without a type is no tombstone. -/
theorem isDeletedMessageView_structTree {names : List String} {values : List (Option Value)}
    (nodup : names.Nodup) (absent : "$type" ∉ names) :
    isDeletedMessageView (structTree names values).canonicalize = false := by
  have noTag : "$type" ∉ (rebuiltMembers (structMembers names values)).map Prod.fst := by
    rw [keys_rebuiltMembers]
    exact fun mem => absent (mem_of_mem_structMembers mem)
  have found := (fieldOf_insertMembers (nodup_structMembers nodup values) "$type").trans
    (fieldOf_of_not_mem noTag)
  rw [structTree, Value.canonicalize, isDeletedMessageView, Value.get, lookup_of_fieldOf found]
  rfl

namespace MessageView

/-- Where the fields of a message are read, its text is found. -/
theorem hasText_of_structFields {view : MessageView} {again : U64 → U64}
    {members : List (String × Value)}
    (read : structFields names (.object members) = some (view.rebuiltFields again)) :
    hasText (.object members) = true := by
  have text := congrArg (fun fields => fields[2]?) (map_lookup_of_structFields read)
  have found : some (Value.string view.text) = members.lookup "text" := Option.some.inj text
  rw [hasText, Value.get, ← found]
  rfl

/-- A message that the client wrote itself. -/
theorem activeMessage_serialize (again : U64 → U64) (view : MessageView) :
    activeMessage (view.serialize.reread again).canonicalize = some view := by
  have read := view.deserialize_canonicalize again
  have fields : structFields names (view.serialize.reread again).canonicalize =
      some (view.rebuiltFields again) := by
    rw [serialize, reread_structTree, structFields_canonicalize nodup_names rfl]
    rfl
  have live : isDeletedMessageView (view.serialize.reread again).canonicalize = false := by
    rw [serialize, reread_structTree]
    exact isDeletedMessageView_structTree nodup_names not_mem_names
  have text : hasText (view.serialize.reread again).canonicalize = true :=
    hasText_of_structFields fields
  rw [activeMessage, live, text]
  exact read

/-- A message under a type is read, unless the type is that of a tombstone. -/
theorem activeMessage_typed (again : U64 → U64) (variant : String) (view : MessageView) :
    activeMessage ((view.typed variant).reread again).canonicalize =
      if "#deletedMessageView".toList.isSuffixOf variant.toList then none else some view := by
  have fields := view.structFields_typed again variant
  have read : deserialize ((view.typed variant).reread again).canonicalize = some view := by
    rw [deserialize, fields]
    exact view.ofFields_rebuiltFields again
  have kind : isDeletedMessageView ((view.typed variant).reread again).canonicalize =
      "#deletedMessageView".toList.isSuffixOf variant.toList := by
    rw [typed, reread_variantTree, rereadMembers_structMembers]
    exact isDeletedMessageView_variantTree (nodup_structMembers nodup_names _)
      fun mem => not_mem_names (mem_of_mem_structMembers mem)
  have text : hasText ((view.typed variant).reread again).canonicalize = true :=
    hasText_of_structFields fields
  rw [activeMessage, kind, text, read]
  rfl

/-- The fields that a message must have. -/
def requiredNames : List String := ["id", "text", "sender", "sentAt"]

theorem ofFields_of_missing {id rev text facets sender sentAt : Option Value}
    (missing : id = none ∨ text = none ∨ sender = none ∨ sentAt = none) :
    ofFields [id, rev, text, facets, sender, sentAt] = none := by
  rcases missing with rfl | rfl | rfl | rfl <;> simp [ofFields, required]

/-- What lacks one of them is no message. -/
theorem activeMessage_of_get_none {val : Value} {name : String} (required : name ∈ requiredNames)
    (missing : val.get name = none) : activeMessage val = none := by
  rw [activeMessage]
  split
  · rfl
  · split
    · next text =>
        cases val with
        | object members =>
            rw [deserialize]
            cases read : structFields names (.object members) with
            | none => rfl
            | some fields =>
                rw [map_lookup_of_structFields read, Option.bind_some]
                apply ofFields_of_missing
                have looked : members.lookup name = none := missing
                simp only [requiredNames, List.mem_cons, List.not_mem_nil, or_false] at required
                rcases required with rfl | rfl | rfl | rfl
                · exact .inl looked
                · exact .inr (.inl looked)
                · exact .inr (.inr (.inl looked))
                · exact .inr (.inr (.inr looked))
        | _ => cases text
    · rfl

end MessageView

namespace ChatMessageView

/-- The message of a view. -/
def active : ChatMessageView → Option MessageView
  | message view => some view
  | deleted _ => none
  | unknown => none

theorem depth_serialize_le (view : ChatMessageView) : view.serialize.depth ≤ 5 := by
  cases view with
  | message view => exact view.depth_typed_le _
  | deleted view =>
      rw [serialize, depth_variantTree]
      refine depth_structTree_le ?_
      intro value mem
      simp only [DeletedMessageView.fields, List.mem_cons, Option.some.injEq, List.not_mem_nil,
        or_false] at mem
      rcases mem with rfl | rfl | rfl | rfl
      · exact Nat.zero_le 4
      · exact Nat.zero_le 4
      · exact Nat.le_add_left 1 3
      · exact Nat.zero_le 4
  | unknown => exact Nat.le_add_left 1 4

/-- A view is read as its message. -/
theorem activeMessage_serialize (again : U64 → U64) (view : ChatMessageView) :
    activeMessage (view.serialize.reread again).canonicalize = view.active := by
  cases view with
  | message view => exact view.activeMessage_typed again "chat.bsky.convo.defs#messageView"
  | deleted view =>
      have absent : "$type" ∉ DeletedMessageView.names := by simp [DeletedMessageView.names]
      have gone : isDeletedMessageView ((deleted view).serialize.reread again).canonicalize =
          true := by
        rw [serialize, reread_variantTree, rereadMembers_structMembers,
          isDeletedMessageView_variantTree (nodup_structMembers DeletedMessageView.nodup_names _)
            fun mem => absent (mem_of_mem_structMembers mem)]
        decide
      rw [activeMessage, gone]
      rfl
  | unknown => rfl

end ChatMessageView

/-! ## What a service lists -/

/-- A value in a page that is not a message: a tombstone, whatever else it has,
a value without a text, or one that lacks another field that a message must
have. -/
structure Foreign where
  value : Value
  canonical : value.Canonical
  depth_le : value.depth ≤ 124
  passedOver : isDeletedMessageView value = true ∨ hasText value = false ∨
    ∃ name ∈ MessageView.requiredNames, value.get name = none

/-- An item of a page: a message as the client writes it, a view as a service
writes it, a message under the name of any type, or another value. -/
inductive PageItem where
  | plain (message : MessageView)
  | listed (view : ChatMessageView)
  | typed (variant : String) (message : MessageView)
  | other (foreign : Foreign)

namespace PageItem

def tree : PageItem → Value
  | plain message => message.serialize
  | listed view => view.serialize
  | typed variant message => message.typed variant
  | other foreign => foreign.value

/-- The message of an item. -/
def active : PageItem → Option MessageView
  | plain message => some message
  | listed view => view.active
  | typed variant message =>
      if "#deletedMessageView".toList.isSuffixOf variant.toList then none else some message
  | other _ => none

theorem depth_tree_le (item : PageItem) : item.tree.depth ≤ 124 := by
  cases item with
  | plain message => exact message.depth_serialize_le.trans (by decide)
  | listed view => exact view.depth_serialize_le.trans (by decide)
  | typed variant message => exact (message.depth_typed_le variant).trans (by decide)
  | other foreign => exact foreign.depth_le

theorem active_of_tree_null {item : PageItem} (null : item.tree = .null) : item.active = none := by
  cases item with
  | plain message => cases null
  | listed view => cases view <;> cases null
  | typed variant message => cases null
  | other foreign => rfl

theorem activeMessage_tree (again : U64 → U64) (item : PageItem) :
    activeMessage (item.tree.reread again).canonicalize = item.active := by
  cases item with
  | plain message => exact message.activeMessage_serialize again
  | listed view => exact view.activeMessage_serialize again
  | typed variant message => exact message.activeMessage_typed again variant
  | other foreign =>
      have canonical : (foreign.value.reread again).canonicalize = foreign.value.reread again :=
        Value.canonicalize_of_canonical (Value.canonical_reread foreign.canonical)
      change activeMessage (foreign.value.reread again).canonicalize = none
      rw [canonical]
      rcases foreign.passedOver with deleted | noText | ⟨name, required, missing⟩
      · rw [activeMessage, isDeletedMessageView_reread, deleted]
        rfl
      · rw [activeMessage, hasText_reread, noText]
        split <;> rfl
      · apply MessageView.activeMessage_of_get_none required
        rw [Value.get_reread, missing]
        rfl

/-- A tree for an item or for none is read as its message. -/
theorem deserializeOptionalMessageView_tree (again : U64 → U64) (item : Option PageItem) :
    deserializeOptionalMessageView 3 ((writeOption tree item).reread again) =
      some (item.bind active) := by
  cases item with
  | none => rfl
  | some item =>
      have shallow : 3 + (item.tree.reread again).depth ≤ 127 := by
        have depth := item.depth_tree_le
        rw [Value.depth_reread]
        omega
      by_cases null : item.tree = .null
      · rw [writeOption, null, Option.bind_some, active_of_tree_null null]
        rfl
      · have present := Rebuilt.reread_ne_null null again
        rw [deserializeOptionalMessageView, writeOption, readOption, buffered_of_le shallow,
          readValue, Option.map_some, Option.map_some, Option.bind_some, Option.bind_some,
          activeMessage_tree]
        exact present

/-- The items of a page are read as their messages. -/
theorem deserializeMessageViewsFilteringDeleted_trees (again : U64 → U64)
    (items : List PageItem) :
    deserializeMessageViewsFilteringDeleted 2 ((Value.array (items.map tree)).reread again) =
      some (items.filterMap active) := by
  rw [deserializeMessageViewsFilteringDeleted, Value.reread, readVec]
  induction items with
  | nil => rfl
  | cons item items ih =>
      have shallow : 2 + (item.tree.reread again).depth ≤ 127 := by
        have depth := item.depth_tree_le
        rw [Value.depth_reread]
        omega
      rcases Option.map_eq_some_iff.mp ih with ⟨raw, raw_eq, rest_eq⟩
      rw [List.map_cons, Value.rereadElements, readElements, buffered_of_le shallow, readValue,
        raw_eq]
      change some (List.filterMap activeMessage (_ :: raw)) = _
      rw [List.filterMap_cons, activeMessage_tree, List.filterMap_cons, rest_eq]

end PageItem

/-! ## Pages -/

/-- A conversation as a service lists it: with an item for its last message. -/
structure ListedConvo where
  convo : ConvoView
  lastMessage : Option PageItem

namespace ListedConvo

def tree (listed : ListedConvo) : Value :=
  listed.convo.treeAround (writeOption PageItem.tree listed.lastMessage)

/-- The conversation with the message of the item. -/
def view (listed : ListedConvo) : ConvoView :=
  { listed.convo with lastMessage := listed.lastMessage.bind PageItem.active }

theorem deserialize_tree (again : U64 → U64) (listed : ListedConvo) :
    ConvoView.deserialize 2 (listed.tree.reread again) = some listed.view := by
  rw [tree, ConvoView.treeAround, reread_structTree, ConvoView.deserialize,
    structFields_structTree ConvoView.nodup_names rfl]
  have last : defaulted none (deserializeOptionalMessageView (2 + 1))
      (some ((writeOption PageItem.tree listed.lastMessage).reread again)) =
        some (listed.lastMessage.bind PageItem.active) :=
    PageItem.deserializeOptionalMessageView_tree again listed.lastMessage
  simp only [List.map_cons, List.map_nil, Option.map_some, Codec.string.defaulted_writeOption,
    ConvoMember.codec.vec.defaulted_some, last]
  rfl

theorem depth_tree_le (listed : ListedConvo) : listed.tree.depth ≤ 125 := by
  have members := ConvoMember.codec.vec.depth_le listed.convo.members
  have status := Codec.string.depth_writeOption_le listed.convo.status
  refine depth_structTree_le ?_
  intro value mem
  simp only [List.mem_cons, Option.some.injEq, List.not_mem_nil, or_false] at mem
  rcases mem with rfl | rfl | rfl | rfl | rfl | rfl
  · exact Nat.zero_le 124
  · exact Nat.zero_le 124
  · omega
  · cases listed.lastMessage with
    | none => exact Nat.zero_le 124
    | some item => exact item.depth_tree_le
  · exact Nat.zero_le 124
  · omega

theorem readVec_trees (again : U64 → U64) (listed : List ListedConvo) :
    readVec (ConvoView.deserialize 2) ((Value.array (listed.map tree)).reread again) =
      some (listed.map view) := by
  rw [Value.reread, readVec]
  induction listed with
  | nil => rfl
  | cons first listed ih =>
      rw [List.map_cons, Value.rereadElements, readElements, deserialize_tree, ih]
      rfl

end ListedConvo

section Pages

theorem nodup_pageNames {name : String} (other : name ≠ "cursor") : [name, "cursor"].Nodup := by
  simp [other]

theorem depth_pageTree_le {name : String} {listed : List Value} {cursor : Option String}
    (shallow : ∀ value ∈ listed, value.depth ≤ 125) :
    (pageTree name listed cursor).depth ≤ 127 := by
  have written := Codec.string.depth_writeOption_le cursor
  refine depth_structTree_le ?_
  intro value mem
  simp only [List.mem_cons, Option.some.injEq, List.not_mem_nil, or_false] at mem
  rcases mem with rfl | rfl
  · exact Nat.succ_le_succ (Value.depthOfElements_le_iff.mpr shallow)
  · omega

theorem structFields_pageTree {name : String} (other : name ≠ "cursor") (again : U64 → U64)
    (listed : List Value) (cursor : Option String) :
    structFields [name, "cursor"] ((pageTree name listed cursor).reread again) =
      some [some ((Value.array listed).reread again),
        some ((writeOption .string cursor).reread again)] := by
  rw [pageTree, reread_structTree, structFields_structTree (nodup_pageNames other) rfl]
  rfl

theorem ofText_pageTree {α : Type} {codec : TreeCodec} (lawful : codec.Lawful)
    (read : Value → Option α) {name : String} {listed : List Value} {cursor : Option String}
    (shallow : ∀ value ∈ listed, value.depth ≤ 125) :
    ofText codec read (codec.write (pageTree name listed cursor)) =
      read ((pageTree name listed cursor).reread codec.reread) := by
  rw [ofText, lawful.read_write _ (depth_pageTree_le shallow)]

/-- The messages of a page are read, in their order. -/
theorem GetMessagesResponse.ofText_page {codec : TreeCodec} (lawful : codec.Lawful)
    (items : List PageItem) (cursor : Option String) :
    ofText codec deserialize (codec.write (pageTree "messages" (items.map PageItem.tree) cursor)) =
      some ⟨items.filterMap PageItem.active, cursor⟩ := by
  have shallow : ∀ value ∈ items.map PageItem.tree, value.depth ≤ 125 := by
    intro value mem
    rcases List.mem_map.mp mem with ⟨item, _, rfl⟩
    exact item.depth_tree_le.trans (by decide)
  have messages : defaulted [] (deserializeMessageViewsFilteringDeleted 2)
      (some ((Value.array (items.map PageItem.tree)).reread codec.reread)) =
        some (items.filterMap PageItem.active) :=
    PageItem.deserializeMessageViewsFilteringDeleted_trees codec.reread items
  rw [ofText_pageTree lawful deserialize shallow, deserialize,
    structFields_pageTree (by simp) codec.reread]
  simp only [Codec.string.defaulted_writeOption, messages]
  rfl

theorem ofText_readConvos {codec : TreeCodec} (lawful : codec.Lawful) {name : String}
    (other : name ≠ "cursor") (listed : List ListedConvo) (cursor : Option String) :
    ofText codec (readConvos name)
        (codec.write (pageTree name (listed.map ListedConvo.tree) cursor)) =
      some (listed.map ListedConvo.view, cursor) := by
  have shallow : ∀ value ∈ listed.map ListedConvo.tree, value.depth ≤ 125 := by
    intro value mem
    rcases List.mem_map.mp mem with ⟨convo, _, rfl⟩
    exact convo.depth_tree_le
  have convos : defaulted [] (readVec (ConvoView.deserialize 2))
      (some ((Value.array (listed.map ListedConvo.tree)).reread codec.reread)) =
        some (listed.map ListedConvo.view) :=
    ListedConvo.readVec_trees codec.reread listed
  rw [ofText_pageTree lawful (readConvos name) shallow, readConvos,
    structFields_pageTree other codec.reread]
  simp only [Codec.string.defaulted_writeOption, convos]
  rfl

theorem ofText_map {α β : Type} (codec : TreeCodec) (read : Value → Option α) (f : α → β)
    (text : String) :
    ofText codec (fun tree => (read tree).map f) text = (ofText codec read text).map f := by
  rw [ofText, ofText]
  cases codec.read text <;> rfl

end Pages

/-! ## What the client writes -/

/-- The messages of a response as items of a page. -/
theorem GetMessagesResponse.serialize_eq (response : GetMessagesResponse) :
    response.serialize = pageTree "messages"
      ((response.messages.map PageItem.plain).map PageItem.tree) response.cursor := by
  rw [serialize, List.map_map]
  rfl

/-- A conversation as the client lists it. -/
def ConvoView.listed (convo : ConvoView) : ListedConvo where
  convo := convo
  lastMessage := convo.lastMessage.map PageItem.plain

theorem ConvoView.tree_listed (convo : ConvoView) : convo.listed.tree = convo.serialize := by
  rw [ListedConvo.tree, listed, serialize]
  cases convo.lastMessage <;> rfl

theorem ConvoView.view_listed (convo : ConvoView) : convo.listed.view = convo := by
  have last : (convo.lastMessage.map PageItem.plain).bind PageItem.active = convo.lastMessage := by
    cases convo.lastMessage <;> rfl
  rw [ListedConvo.view, listed, last]

/-- Of pages of such items, the client reads the messages and the conversations,
in their order; none of the items makes a page an error.  What the client wrote
itself it reads back. -/
theorem pages_read {codec : TreeCodec} (lawful : codec.Lawful) :
    (∀ (items : List PageItem) (cursor : Option String),
      ofText codec GetMessagesResponse.deserialize
          (codec.write (pageTree "messages" (items.map PageItem.tree) cursor)) =
        some ⟨items.filterMap PageItem.active, cursor⟩) ∧
    (∀ (listed : List ListedConvo) (cursor : Option String),
      ofText codec ListConvosResponse.deserialize
          (codec.write (pageTree "convos" (listed.map ListedConvo.tree) cursor)) =
        some ⟨listed.map ListedConvo.view, cursor⟩ ∧
      ofText codec ListConvoRequestsResponse.deserialize
          (codec.write (pageTree "requests" (listed.map ListedConvo.tree) cursor)) =
        some ⟨listed.map ListedConvo.view, cursor⟩) ∧
    (∀ response : GetMessagesResponse,
      ofText codec GetMessagesResponse.deserialize (codec.write response.serialize) =
        some response) ∧
    (∀ response : ListConvosResponse,
      ofText codec ListConvosResponse.deserialize (codec.write response.serialize) =
        some response) ∧
    ∀ response : ListConvoRequestsResponse,
      ofText codec ListConvoRequestsResponse.deserialize (codec.write response.serialize) =
        some response := by
  have convos (listed : List ListedConvo) (cursor : Option String) :
      ofText codec ListConvosResponse.deserialize
          (codec.write (pageTree "convos" (listed.map ListedConvo.tree) cursor)) =
        some ⟨listed.map ListedConvo.view, cursor⟩ := by
    have read := ofText_readConvos lawful (by simp : "convos" ≠ "cursor") listed cursor
    exact (ofText_map codec (readConvos "convos") _ _).trans (congrArg (Option.map _) read)
  have requests (listed : List ListedConvo) (cursor : Option String) :
      ofText codec ListConvoRequestsResponse.deserialize
          (codec.write (pageTree "requests" (listed.map ListedConvo.tree) cursor)) =
        some ⟨listed.map ListedConvo.view, cursor⟩ := by
    have read := ofText_readConvos lawful (by simp : "requests" ≠ "cursor") listed cursor
    exact (ofText_map codec (readConvos "requests") _ _).trans (congrArg (Option.map _) read)
  have trees (own : List ConvoView) :
      own.map ConvoView.serialize = (own.map ConvoView.listed).map ListedConvo.tree := by
    rw [List.map_map]
    exact List.map_congr_left fun convo _ => convo.tree_listed.symm
  have views (own : List ConvoView) :
      (own.map ConvoView.listed).map ListedConvo.view = own := by
    rw [List.map_map]
    exact (List.map_congr_left fun convo _ => convo.view_listed).trans (List.map_id own)
  refine ⟨GetMessagesResponse.ofText_page lawful, fun listed cursor =>
    ⟨convos listed cursor, requests listed cursor⟩, ?_, ?_, ?_⟩
  · intro response
    have kept : (response.messages.map PageItem.plain).filterMap PageItem.active =
        response.messages := by
      rw [List.filterMap_map]
      exact List.filterMap_some
    rw [response.serialize_eq, GetMessagesResponse.ofText_page lawful, kept]
  · intro response
    rw [ListConvosResponse.serialize, trees, convos, views]
  · intro response
    rw [ListConvoRequestsResponse.serialize, trees, requests, views]

/-- A message from Alice. -/
def greeting : MessageView := ⟨"m2", "r2", "hello bot", none, ⟨"did:plc:alice"⟩, "2026-11-03"⟩

/-- A tombstone that kept its text, and nothing else. -/
def textualTombstone : Foreign where
  value := .object [("$type", .string "x#deletedMessageView"), ("text", .string "gone")]
  canonical := ⟨by decide, trivial, trivial, trivial⟩
  depth_le := by decide
  passedOver := .inl (by decide)

/-- A text, and nothing else. -/
def bareText : Foreign where
  value := .object [("text", .string "x")]
  canonical := ⟨by decide, trivial, trivial⟩
  depth_le := by decide
  passedOver := .inr (.inr ⟨"id", by decide, by decide⟩)

theorem pages_read_tombstones :
    ofText Compact.treeCodec GetMessagesResponse.deserialize
        (Compact.treeCodec.write (pageTree "messages"
          ([.listed (.deleted ⟨"m1", "r1", ⟨"did:plc:alice"⟩, "2026-11-02"⟩),
            .typed "x#newMessageView" greeting, .other textualTombstone, .other bareText,
            .listed .unknown].map PageItem.tree) (some "c"))) =
      some ⟨[greeting], some "c"⟩ :=
  (pages_read Compact.treeCodec_lawful).1 _ _

end Skybase.Chat
