import Skybase.Lexicon.Facet

/-!
# Post records

The post record of the lexicon with everything it carries, and the derived
serialization.  Both embeds of a quoted record have a field of their own for the
type, which is also the tag of the embed.
-/

namespace Skybase.Lexicon

open Json Json.Serde

/-- `com.atproto.repo.strongRef`. -/
structure StrongRef where
  uri : String
  cid : String
deriving DecidableEq

/-- `app.bsky.feed.post#replyRef`. -/
structure ReplyRef where
  root : StrongRef
  parent : StrongRef
deriving DecidableEq

/-- `app.bsky.embed.record`. -/
structure RecordEmbed where
  recordType : Option String
  record : StrongRef

/-- `app.bsky.embed.recordWithMedia`. -/
structure RecordWithMediaEmbed where
  recordType : Option String
  record : RecordEmbed
  media : Option Value

/-- `app.bsky.feed.post#embed`. -/
inductive Embed where
  | record (embed : RecordEmbed)
  | recordWithMedia (embed : RecordWithMediaEmbed)
  | images (payload : Value)
  | gallery (payload : Value)
  | external (payload : Value)
  | video (payload : Value)
  | unknown

/-- `com.atproto.label.defs#selfLabel`. -/
structure SelfLabel where
  val : String
deriving DecidableEq

/-- `com.atproto.label.defs#selfLabels`. -/
structure SelfLabels where
  recordType : Option String
  values : List SelfLabel
deriving DecidableEq

/-- `app.bsky.feed.post`. -/
structure PostRecord where
  recordType : Option String
  text : String
  reply : Option ReplyRef
  facets : Option (List Facet)
  embed : Option Embed
  createdAt : String
  langs : Option (List String)
  tags : Option (List String)
  labels : Option SelfLabels

/-- `Embed::is_quote`. -/
def Embed.isQuote : Embed → Bool
  | record _ => true
  | recordWithMedia _ => true
  | _ => false

/-! ## Names of fields -/

def StrongRef.names : List String := ["uri", "cid"]

def ReplyRef.names : List String := ["root", "parent"]

def RecordEmbed.names : List String := ["$type", "record"]

def RecordWithMediaEmbed.names : List String := ["$type", "record", "media"]

def SelfLabel.names : List String := ["val"]

def SelfLabels.names : List String := ["$type", "values"]

def PostRecord.names : List String :=
  ["$type", "text", "reply", "facets", "embed", "createdAt", "langs", "tags", "labels"]

/-! ## Writing -/

def StrongRef.serialize (ref : StrongRef) : Value :=
  structTree StrongRef.names [some (.string ref.uri), some (.string ref.cid)]

def ReplyRef.serialize (ref : ReplyRef) : Value :=
  structTree ReplyRef.names [some ref.root.serialize, some ref.parent.serialize]

def RecordEmbed.serialize (embed : RecordEmbed) : Value :=
  structTree RecordEmbed.names
    [some (writeOption .string embed.recordType), some embed.record.serialize]

def RecordWithMediaEmbed.serialize (embed : RecordWithMediaEmbed) : Value :=
  structTree RecordWithMediaEmbed.names
    [some (writeOption .string embed.recordType), some embed.record.serialize,
      some (writeOption id embed.media)]

def Embed.serialize : Embed → Option Value
  | record embed => taggedTree "$type" "app.bsky.embed.record" embed.serialize
  | recordWithMedia embed => taggedTree "$type" "app.bsky.embed.recordWithMedia" embed.serialize
  | images payload => taggedTree "$type" "app.bsky.embed.images" payload
  | gallery payload => taggedTree "$type" "app.bsky.embed.gallery" payload
  | external payload => taggedTree "$type" "app.bsky.embed.external" payload
  | video payload => taggedTree "$type" "app.bsky.embed.video" payload
  | unknown => some (variantTree "$type" "Unknown" [])

def SelfLabel.serialize (label : SelfLabel) : Value :=
  structTree SelfLabel.names [some (.string label.val)]

/-- An absent type is skipped. -/
def SelfLabels.serialize (labels : SelfLabels) : Value :=
  structTree SelfLabels.names
    [labels.recordType.map .string, some (writeVec SelfLabel.serialize labels.values)]

/-- The tree of a post around the tree of its embed; only absent labels are
skipped. -/
def PostRecord.treeAround (record : PostRecord) (embed : Value) : Value :=
  structTree PostRecord.names
    [some (writeOption .string record.recordType), some (.string record.text),
      some (writeOption ReplyRef.serialize record.reply),
      some (writeOption (writeVec Facet.serialize) record.facets), some embed,
      some (.string record.createdAt), some (writeOption (writeVec .string) record.langs),
      some (writeOption (writeVec .string) record.tags), record.labels.map SelfLabels.serialize]

def PostRecord.serialize (record : PostRecord) : Option Value :=
  match record.embed with
  | none => some (record.treeAround .null)
  | some embed => embed.serialize.map record.treeAround

/-! ## Reading -/

def StrongRef.deserialize (tree : Value) : Option StrongRef :=
  match structFields StrongRef.names tree with
  | some [uri, cid] => do
      pure { uri := ← required readString uri, cid := ← required readString cid }
  | _ => none

def ReplyRef.deserialize (tree : Value) : Option ReplyRef :=
  match structFields ReplyRef.names tree with
  | some [root, parent] => do
      pure {
        root := ← required StrongRef.deserialize root
        parent := ← required StrongRef.deserialize parent }
  | _ => none

def RecordEmbed.deserialize (tree : Value) : Option RecordEmbed :=
  match structFields RecordEmbed.names tree with
  | some [recordType, record] => do
      pure {
        recordType := ← defaulted none (readOption readString) recordType
        record := ← required StrongRef.deserialize record }
  | _ => none

def RecordWithMediaEmbed.deserialize (tree : Value) : Option RecordWithMediaEmbed :=
  match structFields RecordWithMediaEmbed.names tree with
  | some [recordType, record, media] => do
      pure {
        recordType := ← defaulted none (readOption readString) recordType
        record := ← required RecordEmbed.deserialize record
        media := ← defaulted none (readOption readValue) media }
  | _ => none

def Embed.ofContent (variant : String) (content : Value) : Option Embed :=
  if variant = "app.bsky.embed.record" then (RecordEmbed.deserialize content).map record
  else if variant = "app.bsky.embed.recordWithMedia" then
    (RecordWithMediaEmbed.deserialize content).map recordWithMedia
  else if variant = "app.bsky.embed.images" then (readValue content).map images
  else if variant = "app.bsky.embed.gallery" then (readValue content).map gallery
  else if variant = "app.bsky.embed.external" then (readValue content).map external
  else if variant = "app.bsky.embed.video" then (readValue content).map video
  else (unitContent content).map fun _ => unknown

/-- An embed stands one level deep in a post. -/
def Embed.deserialize : Value → Option Embed :=
  buffered 1 fun tree => do
    let (variant, content) ← taggedContent "$type" tree
    ofContent variant content

def SelfLabel.deserialize (tree : Value) : Option SelfLabel :=
  match structFields SelfLabel.names tree with
  | some [val] => do
      pure { val := ← required readString val }
  | _ => none

def SelfLabels.deserialize (tree : Value) : Option SelfLabels :=
  match structFields SelfLabels.names tree with
  | some [recordType, values] => do
      pure {
        recordType := ← defaulted none (readOption readString) recordType
        values := ← defaulted [] (readVec SelfLabel.deserialize) values }
  | _ => none

def PostRecord.deserialize (tree : Value) : Option PostRecord :=
  match structFields PostRecord.names tree with
  | some [recordType, text, reply, facets, embed, createdAt, langs, tags, labels] => do
      pure {
        recordType := ← defaulted none (readOption readString) recordType
        text := ← defaulted "" readString text
        reply := ← defaulted none (readOption ReplyRef.deserialize) reply
        facets := ← defaulted none (readOption (readVec Facet.deserialize)) facets
        embed := ← defaulted none (readOption Embed.deserialize) embed
        createdAt := ← defaulted "" readString createdAt
        langs := ← defaulted none (readOption (readVec readString)) langs
        tags := ← defaulted none (readOption (readVec readString)) tags
        labels := ← defaulted none (readOption SelfLabels.deserialize) labels }
  | _ => none

/-- The fields of a post that was read, with the readings of the embed and of the labels. -/
theorem PostRecord.exists_of_deserialize {tree : Value} {record : PostRecord}
    (read : deserialize tree = some record) :
    ∃ recordType text reply facets embed createdAt langs tags labels,
      structFields PostRecord.names tree =
          some [recordType, text, reply, facets, embed, createdAt, langs, tags, labels] ∧
        defaulted none (readOption Embed.deserialize) embed = some record.embed ∧
        defaulted none (readOption SelfLabels.deserialize) labels = some record.labels := by
  unfold deserialize at read
  split at read
  · next recordType text reply facets embed createdAt langs tags labels fields =>
      rcases Option.bind_eq_some_iff.mp read with ⟨_, _, read⟩
      rcases Option.bind_eq_some_iff.mp read with ⟨_, _, read⟩
      rcases Option.bind_eq_some_iff.mp read with ⟨_, _, read⟩
      rcases Option.bind_eq_some_iff.mp read with ⟨_, _, read⟩
      rcases Option.bind_eq_some_iff.mp read with ⟨_, embed_eq, read⟩
      rcases Option.bind_eq_some_iff.mp read with ⟨_, _, read⟩
      rcases Option.bind_eq_some_iff.mp read with ⟨_, _, read⟩
      rcases Option.bind_eq_some_iff.mp read with ⟨_, _, read⟩
      rcases Option.bind_eq_some_iff.mp read with ⟨_, labels_eq, read⟩
      cases read
      exact ⟨_, _, _, _, _, _, _, _, _, fields, embed_eq, labels_eq⟩
  · cases read

end Skybase.Lexicon
