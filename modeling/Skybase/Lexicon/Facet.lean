import Skybase.Json.Serde

/-!
# Rich text facets

The facet types of the lexicon and their derived serialization.  A feature of an
unknown type is read, without its contents, and written under the name of the
catch-all variant.
-/

namespace Skybase.Lexicon

open Json Json.Serde

/-- `app.bsky.richtext.facet#byteSlice`. -/
structure ByteSlice where
  byteStart : U64
  byteEnd : U64
deriving DecidableEq

/-- `app.bsky.richtext.facet#features`. -/
inductive FacetFeature where
  | mention (did : String)
  | link (uri : String)
  | tag (tag : String)
  | unknown
deriving DecidableEq

/-- `app.bsky.richtext.facet`. -/
structure Facet where
  index : ByteSlice
  features : List FacetFeature
deriving DecidableEq

/-! ## Serialization -/

def ByteSlice.names : List String := ["byteStart", "byteEnd"]

def ByteSlice.serialize (slice : ByteSlice) : Value :=
  structTree ByteSlice.names
    [some (.number (.posInt slice.byteStart)), some (.number (.posInt slice.byteEnd))]

def ByteSlice.deserialize (tree : Value) : Option ByteSlice :=
  match structFields ByteSlice.names tree with
  | some [byteStart, byteEnd] => do
      pure { byteStart := ← required readUsize byteStart, byteEnd := ← required readUsize byteEnd }
  | _ => none

def FacetFeature.serialize : FacetFeature → Value
  | mention did =>
      variantTree "$type" "app.bsky.richtext.facet#mention"
        (structMembers ["did"] [some (.string did)])
  | link uri =>
      variantTree "$type" "app.bsky.richtext.facet#link"
        (structMembers ["uri"] [some (.string uri)])
  | .tag name =>
      variantTree "$type" "app.bsky.richtext.facet#tag"
        (structMembers ["tag"] [some (.string name)])
  | unknown => variantTree "$type" "Unknown" []

/-- The only field of a variant. -/
def FacetFeature.field (name : String) (content : Value) : Option String :=
  match structFields [name] content with
  | some [field] => required readString field
  | _ => none

def FacetFeature.ofContent (variant : String) (content : Value) : Option FacetFeature :=
  if variant = "app.bsky.richtext.facet#mention" then (field "did" content).map mention
  else if variant = "app.bsky.richtext.facet#link" then (field "uri" content).map link
  else if variant = "app.bsky.richtext.facet#tag" then (field "tag" content).map tag
  else (unitContent content).map fun _ => unknown

/-- A feature stands four levels deep in a post. -/
def FacetFeature.deserialize : Value → Option FacetFeature :=
  buffered 4 fun tree => do
    let (variant, content) ← taggedContent "$type" tree
    ofContent variant content

def Facet.names : List String := ["index", "features"]

def Facet.serialize (facet : Facet) : Value :=
  structTree Facet.names
    [some facet.index.serialize, some (writeVec FacetFeature.serialize facet.features)]

def Facet.deserialize (tree : Value) : Option Facet :=
  match structFields Facet.names tree with
  | some [index, features] => do
      pure {
        index := ← required ByteSlice.deserialize index
        features := ← required (readVec FacetFeature.deserialize) features }
  | _ => none

/-! ## Round trips -/

theorem ByteSlice.nodup_names : ByteSlice.names.Nodup := by simp [ByteSlice.names]

theorem ByteSlice.codec : Codec 1 ByteSlice.serialize ByteSlice.deserialize where
  read_write again slice := by
    rw [ByteSlice.serialize, reread_structTree, ByteSlice.deserialize,
      structFields_structTree ByteSlice.nodup_names rfl]
    simp only [List.map_cons, List.map_nil, Option.map_some, Codec.usize.required_some]
    rfl
  depth_le slice := by
    refine depth_structTree_le ?_
    simp [Value.depth]
  ne_null _ := Value.noConfusion

namespace FacetFeature

theorem ofContent_mention (content : Value) :
    ofContent "app.bsky.richtext.facet#mention" content = (field "did" content).map mention :=
  if_pos rfl

theorem ofContent_link (content : Value) :
    ofContent "app.bsky.richtext.facet#link" content = (field "uri" content).map link := by
  simp [ofContent]

theorem ofContent_tag (content : Value) :
    ofContent "app.bsky.richtext.facet#tag" content = (field "tag" content).map tag := by
  simp [ofContent]

theorem ofContent_unknown (content : Value) :
    ofContent "Unknown" content = (unitContent content).map fun _ => unknown := by
  simp [ofContent]

theorem depth_serialize (feature : FacetFeature) : feature.serialize.depth = 1 := by
  cases feature <;> rfl

theorem field_structTree (name text : String) :
    field name (structTree [name] [some (.string text)]) = some text := by
  have nodup : [name].Nodup := List.nodup_cons.mpr ⟨List.not_mem_nil, List.nodup_nil⟩
  rw [field, structFields_structTree nodup rfl]
  rfl

/-- A written variant is read as its content is. -/
theorem bind_taggedContent {variant : String} {members : List (String × Value)}
    (absent : "$type" ∉ members.map Prod.fst) :
    (do
      let (variant, content) ← taggedContent "$type" (variantTree "$type" variant members)
      ofContent variant content) = ofContent variant (.object members) := by
  rw [taggedContent_variantTree absent]
  rfl

theorem not_mem_structMembers {name : String} (named : name ≠ "$type")
    (values : List (Option Value)) :
    "$type" ∉ (structMembers [name] values).map Prod.fst := by
  intro mem
  exact named (List.mem_singleton.mp (mem_of_mem_structMembers mem)).symm

theorem codec : Codec 1 serialize deserialize where
  read_write again feature := by
    have shallow : 4 + (feature.serialize.reread again).depth ≤ 127 := by
      rw [Value.depth_reread, depth_serialize]
      decide
    rw [deserialize, buffered_of_le shallow]
    cases feature with
    | mention did =>
        have named : "did" ≠ "$type" := by simp
        rw [serialize, reread_variantTree, rereadMembers_structMembers,
          bind_taggedContent (not_mem_structMembers named _), ofContent_mention]
        exact congrArg (Option.map mention) (field_structTree "did" did)
    | link uri =>
        have named : "uri" ≠ "$type" := by simp
        rw [serialize, reread_variantTree, rereadMembers_structMembers,
          bind_taggedContent (not_mem_structMembers named _), ofContent_link]
        exact congrArg (Option.map link) (field_structTree "uri" uri)
    | tag name =>
        have named : "tag" ≠ "$type" := by simp
        rw [serialize, reread_variantTree, rereadMembers_structMembers,
          bind_taggedContent (not_mem_structMembers named _), ofContent_tag]
        exact congrArg (Option.map tag) (field_structTree "tag" name)
    | unknown =>
        rw [serialize, reread_variantTree, Value.rereadMembers,
          bind_taggedContent List.not_mem_nil, ofContent_unknown]
        rfl
  depth_le feature := (depth_serialize feature).le
  ne_null feature absurd := by
    cases feature <;> cases absurd

end FacetFeature

theorem Facet.nodup_names : Facet.names.Nodup := by simp [Facet.names]

theorem Facet.codec : Codec 3 Facet.serialize Facet.deserialize where
  read_write again facet := by
    rw [Facet.serialize, reread_structTree, Facet.deserialize,
      structFields_structTree Facet.nodup_names rfl]
    simp only [List.map_cons, List.map_nil, Option.map_some, ByteSlice.codec.required_some,
      FacetFeature.codec.vec.required_some]
    rfl
  depth_le facet := by
    have index := ByteSlice.codec.depth_le facet.index
    have features := FacetFeature.codec.vec.depth_le facet.features
    refine depth_structTree_le ?_
    intro value mem
    simp only [List.mem_cons, Option.some.injEq, List.not_mem_nil, or_false] at mem
    rcases mem with rfl | rfl
    · omega
    · exact features
  ne_null _ := Value.noConfusion

end Skybase.Lexicon
