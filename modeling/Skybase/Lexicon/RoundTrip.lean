import Skybase.Lexicon.Records

/-!
# Round trips of posts

A post that was read from a text is written and read again.  Everything but the
embed survives.  A quoted record does not: its type is written twice, as the tag
of the embed and as a field of its own, and a repeated tag is refused.  The
payloads of the other embeds survive if they came as objects and their doubles
are read as they are printed.
-/

namespace Skybase.Lexicon

open Json Json.Serde

/-- `serde_json::from_str` into a post. -/
def deserializeText (codec : TreeCodec) (text : String) : Option PostRecord :=
  match codec.read text with
  | .ok tree => PostRecord.deserialize tree
  | .error _ => none

/-- `serde_json::to_string` of a post. -/
def serializeText (codec : TreeCodec) (record : PostRecord) : Option String :=
  record.serialize.map codec.write

/-- Writing the post succeeds, and reading the text gives an equal post.  Doubles
are compared by their bits; of the doubles that are equal with different bits,
the zeros, none is read as another. -/
def RoundTrips (codec : TreeCodec) (record : PostRecord) : Prop :=
  ∃ text, serializeText codec record = some text ∧ deserializeText codec text = some record

/-! ## Fields of a post -/

theorem StrongRef.nodup_names : StrongRef.names.Nodup := by simp [StrongRef.names]

theorem ReplyRef.nodup_names : ReplyRef.names.Nodup := by simp [ReplyRef.names]

theorem SelfLabel.nodup_names : SelfLabel.names.Nodup := by simp [SelfLabel.names]

theorem SelfLabels.nodup_names : SelfLabels.names.Nodup := by simp [SelfLabels.names]

theorem PostRecord.nodup_names : PostRecord.names.Nodup := by simp [PostRecord.names]

theorem StrongRef.codec : Codec 1 StrongRef.serialize StrongRef.deserialize where
  read_write again ref := by
    rw [StrongRef.serialize, reread_structTree, StrongRef.deserialize,
      structFields_structTree StrongRef.nodup_names rfl]
    rfl
  depth_le ref := le_rfl
  ne_null _ := Value.noConfusion

theorem ReplyRef.codec : Codec 2 ReplyRef.serialize ReplyRef.deserialize where
  read_write again ref := by
    rw [ReplyRef.serialize, reread_structTree, ReplyRef.deserialize,
      structFields_structTree ReplyRef.nodup_names rfl]
    simp only [List.map_cons, List.map_nil, Option.map_some, StrongRef.codec.required_some]
    rfl
  depth_le ref := le_rfl
  ne_null _ := Value.noConfusion

theorem SelfLabel.codec : Codec 1 SelfLabel.serialize SelfLabel.deserialize where
  read_write again label := by
    rw [SelfLabel.serialize, reread_structTree, SelfLabel.deserialize,
      structFields_structTree SelfLabel.nodup_names rfl]
    rfl
  depth_le label := le_rfl
  ne_null _ := Value.noConfusion

theorem SelfLabels.codec : Codec 3 SelfLabels.serialize SelfLabels.deserialize where
  read_write again labels := by
    rw [SelfLabels.serialize, reread_structTree, SelfLabels.deserialize,
      structFields_structTree SelfLabels.nodup_names rfl]
    simp only [List.map_cons, List.map_nil, Option.map_some, Codec.string.defaulted_skipped,
      SelfLabel.codec.vec.defaulted_some]
    rfl
  depth_le labels := by
    refine depth_structTree_le ?_
    intro value mem
    rcases List.mem_cons.mp mem with type | mem
    · rcases Option.map_eq_some_iff.mp type.symm with ⟨text, _, rfl⟩
      exact Nat.zero_le 2
    · cases List.mem_singleton.mp mem
      exact SelfLabel.codec.vec.depth_le labels.values
  ne_null _ := Value.noConfusion

/-- Reading a written post reads its embed and keeps the rest. -/
theorem PostRecord.deserialize_treeAround (again : U64 → U64) (record : PostRecord)
    (tree : Value) :
    PostRecord.deserialize ((record.treeAround tree).reread again) =
      (readOption Embed.deserialize (tree.reread again)).map
        fun embed => { record with embed := embed } := by
  rw [PostRecord.treeAround, reread_structTree, PostRecord.deserialize,
    structFields_structTree PostRecord.nodup_names rfl]
  simp only [List.map_cons, List.map_nil, Option.map_some, Codec.string.defaulted_writeOption,
    Codec.string.defaulted_some, ReplyRef.codec.defaulted_writeOption,
    Facet.codec.vec.defaulted_writeOption, Codec.string.vec.defaulted_writeOption,
    SelfLabels.codec.defaulted_skipped]
  change (readOption Embed.deserialize (tree.reread again)).bind _ = _
  cases readOption Embed.deserialize (tree.reread again) <;> rfl

theorem PostRecord.depth_treeAround_le (record : PostRecord) {tree : Value}
    (shallow : tree.depth ≤ 126) : (record.treeAround tree).depth ≤ 127 := by
  have recordType := Codec.string.depth_writeOption_le record.recordType
  have reply := ReplyRef.codec.depth_writeOption_le record.reply
  have facets := Facet.codec.vec.depth_writeOption_le record.facets
  have langs := Codec.string.vec.depth_writeOption_le record.langs
  have tags := Codec.string.vec.depth_writeOption_le record.tags
  refine depth_structTree_le ?_
  intro value mem
  simp only [List.mem_cons, Option.some.injEq, List.not_mem_nil, or_false] at mem
  rcases mem with rfl | rfl | rfl | rfl | rfl | rfl | rfl | rfl | labels
  · omega
  · exact Nat.zero_le 126
  · omega
  · omega
  · exact shallow
  · exact Nat.zero_le 126
  · omega
  · omega
  · rcases Option.map_eq_some_iff.mp labels.symm with ⟨present, _, rfl⟩
    exact (SelfLabels.codec.depth_le present).trans (by decide)

/-! ## Embeds -/

namespace Embed

/-- A payload as it is read: without the tag, and within the recursion limit. -/
structure IsPayload (payload : Value) : Prop where
  canonical : payload.Canonical
  depth_le : payload.depth ≤ 126
  shape : (∃ members, payload = .object members ∧ "$type" ∉ members.map Prod.fst) ∨
    ∃ elements, payload = .array elements

/-- An embed as it is read. -/
def WellFormed : Embed → Prop
  | record _ => True
  | recordWithMedia embed => ∀ media ∈ embed.media, media.depth ≤ 125
  | images payload => IsPayload payload
  | gallery payload => IsPayload payload
  | external payload => IsPayload payload
  | video payload => IsPayload payload
  | unknown => True

/-- A payload that is an object, with numbers that are read as they are printed. -/
def StablePayload (again : U64 → U64) (payload : Value) : Prop :=
  payload.isObject ∧ payload.AllNumbers fun number => number.reread again = number

/-- An embed without a quoted record, whose payload is stable. -/
def Stable (again : U64 → U64) : Embed → Prop
  | record _ => False
  | recordWithMedia _ => False
  | images payload => StablePayload again payload
  | gallery payload => StablePayload again payload
  | external payload => StablePayload again payload
  | video payload => StablePayload again payload
  | unknown => True

theorem isPayload_of_readValue {content payload : Value} (shallow : content.depth ≤ 126)
    (shape : (∃ members, content = .object members ∧ "$type" ∉ members.map Prod.fst) ∨
      ∃ elements, content = .array elements)
    (read : readValue content = some payload) : IsPayload payload := by
  cases read
  refine ⟨Value.canonical_canonicalize content,
    (Value.depth_canonicalize_le content).trans shallow, ?_⟩
  rcases shape with ⟨members, rfl, absent⟩ | ⟨elements, rfl⟩
  · refine .inl ⟨_, rfl, ?_⟩
    intro mem
    rcases Value.mem_keys_insertMembers mem with empty | given
    · cases empty
    · exact absent given
  · exact .inr ⟨_, rfl⟩

end Embed

theorem RecordWithMediaEmbed.depth_media_lt {content : Value} {embed : RecordWithMediaEmbed}
    (read : RecordWithMediaEmbed.deserialize content = some embed) :
    ∀ media ∈ embed.media, media.depth < content.depth := by
  unfold RecordWithMediaEmbed.deserialize at read
  split at read
  · next recordType record media fields =>
      rcases Option.bind_eq_some_iff.mp read with ⟨_, _, read⟩
      rcases Option.bind_eq_some_iff.mp read with ⟨_, _, read⟩
      rcases Option.bind_eq_some_iff.mp read with ⟨found, found_eq, read⟩
      cases read
      rintro value rfl
      rcases exists_of_readOption found_eq with ⟨given, rfl, value_eq⟩
      cases value_eq
      have below : given.depth < content.depth := depth_lt_of_structFields fields (by simp)
      exact (Value.depth_canonicalize_le given).trans_lt below
  · cases read

namespace Embed

theorem wellFormed_of_deserialize {tree : Value} {embed : Embed}
    (read : deserialize tree = some embed) : embed.WellFormed := by
  rcases buffered_eq_some_iff.mp read with ⟨shallow, read⟩
  rcases Option.bind_eq_some_iff.mp read with ⟨⟨variant, content⟩, tagged, made⟩
  rcases taggedContent_eq_some tagged with ⟨depth_le, shape⟩
  have contentShallow : content.depth ≤ 126 := by omega
  change ofContent variant content = some embed at made
  unfold ofContent at made
  split_ifs at made
  · rcases Option.map_eq_some_iff.mp made with ⟨record, _, rfl⟩
    trivial
  · rcases Option.map_eq_some_iff.mp made with ⟨record, record_eq, rfl⟩
    intro media mem
    have below := RecordWithMediaEmbed.depth_media_lt record_eq media mem
    omega
  · rcases Option.map_eq_some_iff.mp made with ⟨payload, payload_eq, rfl⟩
    exact isPayload_of_readValue contentShallow shape payload_eq
  · rcases Option.map_eq_some_iff.mp made with ⟨payload, payload_eq, rfl⟩
    exact isPayload_of_readValue contentShallow shape payload_eq
  · rcases Option.map_eq_some_iff.mp made with ⟨payload, payload_eq, rfl⟩
    exact isPayload_of_readValue contentShallow shape payload_eq
  · rcases Option.map_eq_some_iff.mp made with ⟨payload, payload_eq, rfl⟩
    exact isPayload_of_readValue contentShallow shape payload_eq
  · rcases Option.map_eq_some_iff.mp made with ⟨_, _, rfl⟩
    trivial

theorem ofContent_images (content : Value) :
    ofContent "app.bsky.embed.images" content = some (images content.canonicalize) := by
  simp [ofContent, readValue]

theorem ofContent_gallery (content : Value) :
    ofContent "app.bsky.embed.gallery" content = some (gallery content.canonicalize) := by
  simp [ofContent, readValue]

theorem ofContent_external (content : Value) :
    ofContent "app.bsky.embed.external" content = some (external content.canonicalize) := by
  simp [ofContent, readValue]

theorem ofContent_video (content : Value) :
    ofContent "app.bsky.embed.video" content = some (video content.canonicalize) := by
  simp [ofContent, readValue]

theorem ofContent_unknown (content : Value) :
    ofContent "Unknown" content = (unitContent content).map fun _ => unknown := by
  simp [ofContent]

/-- A written variant without a second tag is read as its content is. -/
theorem deserialize_variantTree {variant : String} {members : List (String × Value)}
    (shallow : (Value.object members).depth ≤ 126) (absent : "$type" ∉ members.map Prod.fst) :
    deserialize (variantTree "$type" variant members) = ofContent variant (.object members) := by
  have limit : 1 + (variantTree "$type" variant members).depth ≤ 127 := by
    rw [depth_variantTree]
    omega
  rw [deserialize, buffered_of_le limit, taggedContent_variantTree absent]
  rfl

/-- A written variant with a second tag is refused. -/
theorem deserialize_variantTree_of_mem {variant : String} {members : List (String × Value)}
    (mem : "$type" ∈ members.map Prod.fst) :
    deserialize (variantTree "$type" variant members) = none := by
  rw [deserialize, buffered, taggedContent_variantTree_of_mem mem]
  exact ite_self none

/-- The embed is written, and the text of a post around it is read with an equal
embed. -/
def Rereads (again : U64 → U64) (embed : Embed) : Prop :=
  ∃ tree, embed.serialize = some tree ∧
    readOption deserialize (tree.reread again) = some (some embed)

theorem readOption_variantTree (variant : String) (members : List (String × Value)) :
    readOption deserialize (variantTree "$type" variant members) =
      (deserialize (variantTree "$type" variant members)).map some :=
  rfl

/-- A payload is read as it was written exactly if it is an object and its
doubles are read as they are printed. -/
theorem rereads_payload_iff {again : U64 → U64} {variant : String} {make : Value → Embed}
    (make_injective : Function.Injective make)
    (ofContent_eq : ∀ content, ofContent variant content = some (make content.canonicalize))
    {payload : Value} (isPayload : IsPayload payload) :
    (∃ tree, taggedTree "$type" variant payload = some tree ∧
      readOption deserialize (tree.reread again) = some (some (make payload))) ↔
      StablePayload again payload := by
  rcases isPayload.shape with ⟨members, rfl, absent⟩ | ⟨elements, rfl⟩
  · have shallow : (Value.object (Value.rereadMembers again members)).depth ≤ 126 := by
      rw [← Value.reread, Value.depth_reread]
      exact isPayload.depth_le
    have stillAbsent : "$type" ∉ (Value.rereadMembers again members).map Prod.fst := by
      rwa [Value.keys_rereadMembers]
    have canonical : ((Value.object members).reread again).canonicalize =
        (Value.object members).reread again :=
      Value.canonicalize_of_canonical (Value.canonical_reread isPayload.canonical)
    have read : readOption deserialize ((variantTree "$type" variant members).reread again) =
        some (some (make ((Value.object members).reread again))) := by
      rw [reread_variantTree, readOption_variantTree, deserialize_variantTree shallow stillAbsent,
        ofContent_eq, ← Value.reread, canonical, Option.map_some]
    rw [StablePayload, ← Value.reread_eq_self_iff]
    constructor
    · rintro ⟨tree, written, again_eq⟩
      cases written
      rw [read] at again_eq
      exact ⟨rfl, make_injective (Option.some.inj (Option.some.inj again_eq))⟩
    · rintro ⟨-, same⟩
      refine ⟨_, rfl, ?_⟩
      rw [read, same]
  · constructor
    · rintro ⟨tree, written, -⟩
      cases written
    · rintro ⟨isObject, -⟩
      cases isObject

/-- A variant with a struct that has a type of its own is not read again. -/
theorem not_rereads_structTree {again : U64 → U64} {variant : String} {names : List String}
    {type : Value} {values : List (Option Value)} {embed : Embed} :
    ¬∃ tree, taggedTree "$type" variant (structTree ("$type" :: names) (some type :: values)) =
        some tree ∧ readOption deserialize (tree.reread again) = some (some embed) := by
  rintro ⟨tree, written, read⟩
  cases written
  have repeated : "$type" ∈ (Value.rereadMembers again
      (structMembers ("$type" :: names) (some type :: values))).map Prod.fst := by
    rw [Value.keys_rereadMembers]
    exact List.mem_cons_self
  rw [reread_variantTree, readOption_variantTree, deserialize_variantTree_of_mem repeated] at read
  cases read

/-- A quoted record is not read again. -/
theorem not_rereads_of_isQuote {again : U64 → U64} {embed : Embed} (isQuote : embed.isQuote) :
    ¬embed.Rereads again := by
  cases embed with
  | record embed => exact not_rereads_structTree
  | recordWithMedia embed => exact not_rereads_structTree
  | _ => cases isQuote

theorem rereads_iff {again : U64 → U64} {embed : Embed} (wellFormed : embed.WellFormed) :
    embed.Rereads again ↔ embed.Stable again := by
  cases embed with
  | record embed => exact iff_of_false (not_rereads_of_isQuote rfl) id
  | recordWithMedia embed => exact iff_of_false (not_rereads_of_isQuote rfl) id
  | images payload =>
      exact rereads_payload_iff (fun _ _ => images.inj) ofContent_images wellFormed
  | gallery payload =>
      exact rereads_payload_iff (fun _ _ => gallery.inj) ofContent_gallery wellFormed
  | external payload =>
      exact rereads_payload_iff (fun _ _ => external.inj) ofContent_external wellFormed
  | video payload =>
      exact rereads_payload_iff (fun _ _ => video.inj) ofContent_video wellFormed
  | unknown =>
      refine iff_of_true ⟨_, rfl, ?_⟩ trivial
      rw [reread_variantTree, readOption_variantTree, Value.rereadMembers,
        deserialize_variantTree (by decide) List.not_mem_nil, ofContent_unknown]
      rfl

end Embed

theorem RecordEmbed.depth_serialize_le (embed : RecordEmbed) : embed.serialize.depth ≤ 2 := by
  have type := Codec.string.depth_writeOption_le embed.recordType
  refine depth_structTree_le ?_
  intro value mem
  simp only [List.mem_cons, Option.some.injEq, List.not_mem_nil, or_false] at mem
  rcases mem with rfl | rfl
  · omega
  · exact StrongRef.codec.depth_le embed.record

theorem RecordWithMediaEmbed.depth_serialize_le {embed : RecordWithMediaEmbed}
    (shallow : ∀ media ∈ embed.media, media.depth ≤ 125) : embed.serialize.depth ≤ 126 := by
  have type := Codec.string.depth_writeOption_le embed.recordType
  have record := embed.record.depth_serialize_le
  refine depth_structTree_le ?_
  intro value mem
  simp only [List.mem_cons, Option.some.injEq, List.not_mem_nil, or_false] at mem
  rcases mem with rfl | rfl | rfl
  · omega
  · omega
  · cases media_eq : embed.media with
    | none => exact Nat.zero_le 125
    | some media => exact shallow media media_eq

/-- A written embed stays within the recursion limit. -/
theorem Embed.depth_le_of_serialize {embed : Embed} (wellFormed : embed.WellFormed)
    {tree : Value} (written : embed.serialize = some tree) : tree.depth ≤ 126 := by
  have within {variant : String} {content : Value} (shallow : content.depth ≤ 126)
      (written : taggedTree "$type" variant content = some tree) : tree.depth ≤ 126 :=
    (depth_taggedTree_le written).trans (max_le (by decide) shallow)
  cases embed with
  | record embed => exact within (embed.depth_serialize_le.trans (by decide)) written
  | recordWithMedia embed =>
      exact within (RecordWithMediaEmbed.depth_serialize_le wellFormed) written
  | images payload => exact within wellFormed.depth_le written
  | gallery payload => exact within wellFormed.depth_le written
  | external payload => exact within wellFormed.depth_le written
  | video payload => exact within wellFormed.depth_le written
  | unknown =>
      cases written
      decide

/-! ## Posts -/

/-- The embed of a post that was read is well formed. -/
theorem PostRecord.wellFormed_of_deserialize {tree : Value} {record : PostRecord}
    (read : PostRecord.deserialize tree = some record) :
    ∀ embed ∈ record.embed, embed.WellFormed := by
  rcases PostRecord.exists_of_deserialize read with ⟨_, _, _, _, _, _, _, _, _, _, found_eq, _⟩
  intro embed mem
  rw [Option.mem_def.mp mem] at found_eq
  rcases exists_of_readOption found_eq with ⟨given, _, embed_eq⟩
  exact Embed.wellFormed_of_deserialize embed_eq

/-- Reading the text of a post around the tree of its embed. -/
theorem deserializeText_write {codec : TreeCodec} (lawful : codec.Lawful) (record : PostRecord)
    {tree : Value} (shallow : tree.depth ≤ 126) :
    deserializeText codec (codec.write (record.treeAround tree)) =
      (readOption Embed.deserialize (tree.reread codec.reread)).map
        fun embed => { record with embed := embed } := by
  rw [deserializeText, lawful.read_write _ (record.depth_treeAround_le shallow)]
  exact record.deserialize_treeAround codec.reread tree

/-- The embed of a post that was read decides whether the post is read again. -/
theorem roundTrips_iff_rereads {codec : TreeCodec} (lawful : codec.Lawful) {record : PostRecord}
    (wellFormed : ∀ embed ∈ record.embed, embed.WellFormed) :
    RoundTrips codec record ↔ ∀ embed ∈ record.embed, embed.Rereads codec.reread := by
  cases embed_eq : record.embed with
  | none =>
      have written : serializeText codec record =
          some (codec.write (record.treeAround .null)) := by
        rw [serializeText, PostRecord.serialize, embed_eq]
        rfl
      have shallow : Value.null.depth ≤ 126 := Nat.zero_le 126
      have read := deserializeText_write lawful record shallow
      refine iff_of_true ⟨_, written, read.trans ?_⟩ fun _ mem => nomatch mem
      exact congrArg (fun embed => some { record with embed := embed }) embed_eq.symm
  | some embed =>
      have written {tree : Value} (tree_eq : embed.serialize = some tree) :
          serializeText codec record = some (codec.write (record.treeAround tree)) := by
        rw [serializeText, PostRecord.serialize, embed_eq]
        exact congrArg (Option.map codec.write) (congrArg (Option.map record.treeAround) tree_eq)
      have read {tree : Value} (tree_eq : embed.serialize = some tree) :=
        deserializeText_write lawful record
          (Embed.depth_le_of_serialize (wellFormed embed embed_eq) tree_eq)
      simp only [Option.mem_def, Option.some.injEq, forall_eq']
      constructor
      · rintro ⟨again, serialized, again_eq⟩
        rcases Option.map_eq_some_iff.mp serialized with ⟨whole, whole_eq, -⟩
        rw [PostRecord.serialize, embed_eq] at whole_eq
        rcases Option.map_eq_some_iff.mp whole_eq with ⟨tree, tree_eq, -⟩
        rw [written tree_eq] at serialized
        cases serialized
        rw [read tree_eq] at again_eq
        rcases Option.map_eq_some_iff.mp again_eq with ⟨found, found_eq, same⟩
        have foundEmbed : found = some embed := (congrArg PostRecord.embed same).trans embed_eq
        exact ⟨tree, tree_eq, foundEmbed ▸ found_eq⟩
      · rintro ⟨tree, tree_eq, found_eq⟩
        refine ⟨_, written tree_eq, ?_⟩
        rw [read tree_eq, found_eq]
        exact congrArg (fun embed => some { record with embed := embed }) embed_eq.symm

theorem wellFormed_of_deserializeText {codec : TreeCodec} {text : String} {record : PostRecord}
    (obtained : deserializeText codec text = some record) :
    ∀ embed ∈ record.embed, embed.WellFormed := by
  unfold deserializeText at obtained
  split at obtained
  · exact PostRecord.wellFormed_of_deserialize obtained
  · cases obtained

/-- A post that was read from a text survives being written and read again
exactly if its embed is stable. -/
theorem roundTrips_iff {codec : TreeCodec} (lawful : codec.Lawful) {text : String}
    {record : PostRecord} (obtained : deserializeText codec text = some record) :
    RoundTrips codec record ↔ ∀ embed ∈ record.embed, embed.Stable codec.reread := by
  have wellFormed := wellFormed_of_deserializeText obtained
  rw [roundTrips_iff_rereads lawful wellFormed]
  exact forall₂_congr fun embed mem => Embed.rereads_iff (wellFormed embed mem)

theorem roundTrips_iff_images :
    ∃ record, deserializeText Compact.treeCodec
        "\x7b\"embed\":\x7b\"$type\":\"app.bsky.embed.images\",\"images\":[]\x7d\x7d" =
          some record ∧
      (RoundTrips Compact.treeCodec record ↔ ∀ embed ∈ record.embed, embed.Stable id) := by
  have accepted : (deserializeText Compact.treeCodec
      "\x7b\"embed\":\x7b\"$type\":\"app.bsky.embed.images\",\"images\":[]\x7d\x7d").isSome =
        true := by
    decide +kernel
  rcases Option.isSome_iff_exists.mp accepted with ⟨record, read⟩
  exact ⟨record, read, roundTrips_iff Compact.treeCodec_lawful read⟩

/-- A post that quotes another one. -/
def quotingPost : String :=
  "\x7b\"embed\":\x7b\"$type\":\"app.bsky.embed.record\"," ++
    "\"record\":\x7b\"uri\":\"at://a/b/c\",\"cid\":\"d\"\x7d\x7d\x7d"

theorem quotingPost_not_roundTrips :
    ∃ record, deserializeText Compact.treeCodec quotingPost = some record ∧
      ¬RoundTrips Compact.treeCodec record := by
  have accepted : ((deserializeText Compact.treeCodec quotingPost).bind PostRecord.embed).any
      Embed.isQuote = true := by
    decide +kernel
  rcases (Option.any_eq_true _ _).mp accepted with ⟨embed, embed_eq, isQuote⟩
  rcases Option.bind_eq_some_iff.mp embed_eq with ⟨record, read, quoted⟩
  refine ⟨record, read, ?_⟩
  rw [roundTrips_iff_rereads Compact.treeCodec_lawful (wellFormed_of_deserializeText read)]
  intro rereads
  exact Embed.not_rereads_of_isQuote isQuote (rereads embed quoted)

end Skybase.Lexicon
