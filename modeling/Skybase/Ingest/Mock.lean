import Skybase.Ingest.Admission
import Skybase.Json.Serde

/-!
# Frames of the mock server

The mock server writes a commit with a literal of its own, and the parser reads
the frame into an envelope whose fields may all be missing.  Whatever commit the
validators let pass is read from its frame as it was, as long as the parser of
the texts reads the frame at all.
-/

namespace Skybase.Ingest

open Json Json.Serde

/-! ## Emission -/

/-- The literal of `emit_commit_payload`. -/
def commitPayload (did : String) (timeUs : U64) (collection rkey operation : String)
    (cid : Option String) (record : Option Value) : Value :=
  Value.canonicalize (.object
    [("did", .string did), ("time_us", .number (.posInt timeUs)), ("kind", .string "commit"),
      ("commit", .object
        [("collection", .string collection), ("rkey", .string rkey),
          ("operation", .string operation), ("cid", writeOption .string cid),
          ("record", writeOption id record)])])

/-- The payload that `emit_commit` emits. -/
def JetstreamCommit.payload (commit : JetstreamCommit) : Value :=
  commitPayload commit.did commit.timeUs commit.collection commit.rkey commit.operation.asStr
    commit.cid commit.record

/-- The text that `emit_commit` sends. -/
def emitCommit (codec : TreeCodec) (commit : JetstreamCommit) : String :=
  codec.write commit.payload

/-! ## The envelope -/

def RawJetstreamCommit.names : List String :=
  ["operation", "collection", "rkey", "cid", "record", "rev"]

def RawJetstreamMessage.names : List String := ["did", "time_us", "kind", "commit"]

/-- The revision is read, and not used. -/
def RawJetstreamCommit.deserialize (tree : Value) : Option RawJetstreamCommit :=
  match structFields RawJetstreamCommit.names tree with
  | some [operation, collection, rkey, cid, record, rev] => do
      let _ ← defaulted none (readOption readString) rev
      pure {
        operation := ← defaulted "" readString operation
        collection := ← defaulted "" readString collection
        rkey := ← defaulted "" readString rkey
        cid := ← defaulted none (readOption readString) cid
        record := ← defaulted none (readOption readValue) record }
  | _ => none

/-- A `u64` is read as a `usize` is. -/
def RawJetstreamMessage.deserialize (tree : Value) : Option RawJetstreamMessage :=
  match structFields RawJetstreamMessage.names tree with
  | some [did, timeUs, kind, commit] => do
      pure {
        did := ← defaulted none (readOption readString) did
        timeUs := ← defaulted none (readOption readUsize) timeUs
        kind := ← defaulted none (readOption readString) kind
        commit := ← defaulted none (readOption RawJetstreamCommit.deserialize) commit }
  | _ => none

/-- `serde_json::from_str` into an envelope. -/
def RawJetstreamMessage.fromStr (codec : TreeCodec) (text : String) :
    Except String RawJetstreamMessage :=
  match codec.read text with
  | .error err => .error err
  | .ok tree =>
      match deserialize tree with
      | some msg => .ok msg
      | none => .error "invalid frame"

/-! ## Round trip -/

/-- What the mock server relies on in `serde_json`: the text of a value within the nesting
limit of the parser is read as the value, and the text of an object is in braces. -/
structure InvertsText (codec : TreeCodec) (limit : Nat) : Prop where
  read_write : ∀ value : Value, value.Canonical → value.depth ≤ limit →
    codec.read (codec.write value) = .ok value
  write_object : ∀ members, ∃ inner, codec.write (.object members) = "\x7b" ++ inner ++ "\x7d"

/-- The envelope of the commit. -/
def JetstreamCommit.envelope (commit : JetstreamCommit) : RawJetstreamMessage where
  did := some commit.did
  timeUs := some commit.timeUs
  kind := some "commit"
  commit := some
    { operation := commit.operation.asStr
      collection := commit.collection
      rkey := commit.rkey
      cid := commit.cid
      record := commit.record }

section Payload

variable {commit : JetstreamCommit}

theorem canonicalize_writeOption {record : Option Value}
    (canonical : ∀ value, record = some value → value.Canonical) :
    (writeOption id record).canonicalize = writeOption id record := by
  cases record with
  | none => rfl
  | some value => exact Value.canonicalize_of_canonical (canonical value rfl)

theorem canonicalize_writeString (cid : Option String) :
    (writeOption Value.string cid).canonicalize = writeOption .string cid := by
  cases cid <;> rfl

/-- The payload lists its members in the order of their keys. -/
theorem payload_eq (canonical : ∀ record, commit.record = some record → record.Canonical) :
    commit.payload = .object
      [("commit", .object
          [("cid", writeOption .string commit.cid), ("collection", .string commit.collection),
            ("operation", .string commit.operation.asStr),
            ("record", writeOption id commit.record), ("rkey", .string commit.rkey)]),
        ("did", .string commit.did), ("kind", .string "commit"),
        ("time_us", .number (.posInt commit.timeUs))] := by
  simp +decide only [JetstreamCommit.payload, commitPayload, Value.canonicalize,
    Value.insertMembers, Value.insertMember, canonicalize_writeOption canonical,
    canonicalize_writeString, if_true, if_false]

/-- A record that is a value of `serde_json` other than null is read as it was written. -/
theorem readOption_record {record : Option Value}
    (canonical : ∀ value, record = some value → value.Canonical)
    (nonnull : record ≠ some .null) :
    readOption readValue (writeOption id record) = some record := by
  cases record with
  | none => rfl
  | some value =>
      have kept := Value.canonicalize_of_canonical (canonical value rfl)
      have read : readOption readValue value = (readValue value).map some := by
        cases value with
        | null => exact absurd rfl nonnull
        | _ => rfl
      change readOption readValue value = some (some value)
      rw [read, readValue, kept, Option.map_some]

theorem readOption_string (text : Option String) :
    readOption readString (writeOption .string text) = some text := by
  cases text <;> rfl

/-- The raw commit is read from its members. -/
theorem deserialize_members (operation collection rkey : String) (cid : Option String)
    {record : Option Value} (canonical : ∀ value, record = some value → value.Canonical)
    (nonnull : record ≠ some .null) :
    RawJetstreamCommit.deserialize (.object
        [("cid", writeOption .string cid), ("collection", .string collection),
          ("operation", .string operation), ("record", writeOption id record),
          ("rkey", .string rkey)]) =
      some ⟨operation, collection, rkey, cid, record⟩ := by
  have fields : structFields RawJetstreamCommit.names (.object
      [("cid", writeOption .string cid), ("collection", .string collection),
        ("operation", .string operation), ("record", writeOption id record),
        ("rkey", .string rkey)]) =
      some [some (.string operation), some (.string collection), some (.string rkey),
        some (writeOption .string cid), some (writeOption id record), none] := rfl
  rw [RawJetstreamCommit.deserialize, fields]
  simp only [defaulted, readOption_record canonical nonnull, readOption_string]
  rfl

/-- The envelope is read from the payload. -/
theorem deserialize_payload (canonical : ∀ record, commit.record = some record → record.Canonical)
    (nonnull : commit.record ≠ some .null) :
    RawJetstreamMessage.deserialize commit.payload = some commit.envelope := by
  have raw := deserialize_members commit.operation.asStr commit.collection commit.rkey commit.cid
    canonical nonnull
  rw [payload_eq canonical]
  generalize Value.object
    [("cid", writeOption Value.string commit.cid), ("collection", .string commit.collection),
      ("operation", .string commit.operation.asStr), ("record", writeOption id commit.record),
      ("rkey", .string commit.rkey)] = members at raw ⊢
  have present : readOption RawJetstreamCommit.deserialize members =
      (RawJetstreamCommit.deserialize members).map some := by
    cases members with
    | null => cases raw
    | _ => rfl
  have fields : structFields RawJetstreamMessage.names (.object
      [("commit", members), ("did", .string commit.did), ("kind", .string "commit"),
        ("time_us", .number (.posInt commit.timeUs))]) =
      some [some (.string commit.did), some (.number (.posInt commit.timeUs)),
        some (.string "commit"), some members] := rfl
  rw [RawJetstreamMessage.deserialize, fields]
  simp only [defaulted, present, raw]
  rfl

/-- A frame adds two levels to its record. -/
theorem depth_payload (canonical : ∀ record, commit.record = some record → record.Canonical) :
    commit.payload.depth = (commit.record.elim 0 Value.depth) + 2 := by
  have record_depth : (writeOption id commit.record).depth = commit.record.elim 0 Value.depth := by
    cases commit.record <;> rfl
  have cid_depth : (writeOption Value.string commit.cid).depth = 0 := by
    cases commit.cid <;> rfl
  simp only [payload_eq canonical, Value.depth, Value.depthOfMembers, record_depth, cid_depth]
  omega

end Payload

/-- The text of an object is not blank, and has no space around it. -/
theorem InvertsText.solid {codec : TreeCodec} {limit : Nat} (inverts : InvertsText codec limit)
    {value : Value} (braced : value.isObject = true) :
    Text.trim (codec.write value) = codec.write value ∧ (codec.write value).isEmpty = false := by
  cases value with
  | object members =>
      rcases inverts.write_object members with ⟨inner, written⟩
      rw [written]
      exact ⟨Text.trim_braced inner, Text.isEmpty_braced inner⟩
  | _ => cases braced

/-- A commit that the validators let pass, and whose frame is within the nesting limit, is
parsed from the text that the mock server sends. -/
theorem parseJetstreamFrame_emitCommit {codec : TreeCodec} {limit : Nat}
    (inverts : InvertsText codec limit) (nowUs : U64) (commit : JetstreamCommit)
    (validDid : isValidDid commit.did = true)
    (validCollection : isValidCollection commit.collection = true)
    (validRkey : (Repo.validateRkey commit.rkey).isOk = true)
    (timely : isValidTimeUs nowUs commit.timeUs = true)
    (canonical : ∀ record, commit.record = some record → record.Canonical)
    (nonnull : commit.record ≠ some .null) (within : commit.payload.depth ≤ limit) :
    parseJetstreamFrame (RawJetstreamMessage.fromStr codec) nowUs (emitCommit codec commit) =
      some (.commit commit) := by
  have braced : commit.payload.isObject = true := by
    rw [payload_eq canonical]
    rfl
  obtain ⟨trimmed, nonempty⟩ : Text.trim (emitCommit codec commit) = emitCommit codec commit ∧
      (emitCommit codec commit).isEmpty = false := inverts.solid braced
  have decoded : RawJetstreamMessage.fromStr codec (emitCommit codec commit) =
      .ok commit.envelope := by
    have read := inverts.read_write commit.payload (Value.canonical_canonicalize _) within
    simp only [RawJetstreamMessage.fromStr, emitCommit, read, deserialize_payload canonical nonnull]
  have carries : commit.envelope.Carries commit.did
      ⟨commit.operation.asStr, commit.collection, commit.rkey, commit.cid, commit.record⟩
      commit.operation :=
    { kind := rfl
      hasDid := rfl
      notBlank := notBlank_of_isValidDid validDid
      hasCommit := rfl
      validDid := validDid
      validCollection := validCollection
      validRkey := validRkey
      known := fromStrLoose_asStr commit.operation }
  rw [← trimmed] at nonempty decoded
  exact parseJetstreamFrame_of_carries nonempty decoded timely carries

/-! ## Compact texts -/

theorem exists_writeMembers_eq (members : List (String × Value)) :
    ∃ inner, Compact.writeMembers members = inner ++ ['\x7d'] := by
  induction members with
  | nil => exact ⟨[], rfl⟩
  | cons member members ih =>
      rcases member with ⟨key, value⟩
      rcases ih with ⟨inner, inner_eq⟩
      refine ⟨',' :: Compact.writeString key ++ ':' :: Compact.write value ++ inner, ?_⟩
      rw [Compact.writeMembers, inner_eq]
      simp only [List.cons_append, List.append_assoc]

theorem invertsText_treeCodec : InvertsText Compact.treeCodec 127 where
  read_write value _ shallow := by
    change Compact.read (String.ofList (Compact.write value)) = _
    rw [Compact.read_write, if_pos shallow]
  write_object members := by
    cases members with
    | nil => exact ⟨"", rfl⟩
    | cons member members =>
        rcases member with ⟨key, value⟩
        rcases exists_writeMembers_eq members with ⟨inner, inner_eq⟩
        refine ⟨String.ofList (Compact.writeString key ++ ':' :: Compact.write value ++ inner), ?_⟩
        change String.ofList (Compact.write (.object ((key, value) :: members))) = _
        rw [Compact.write, inner_eq, ← String.toList_inj]
        simp only [String.toList_append, String.toList_ofList, List.append_assoc, List.cons_append]
        rfl

/-- A post through the mock server. -/
theorem parseJetstreamFrame_emitCommit_alice :
    parseJetstreamFrame (RawJetstreamMessage.fromStr Compact.treeCodec) 1700000000000000
        (emitCommit Compact.treeCodec
          (aliceCommit .update (some (.object [("text", .string "hi")])) 5)) =
      some (.commit (aliceCommit .update (some (.object [("text", .string "hi")])) 5)) := by
  have canonical : ∀ record,
      (aliceCommit .update (some (.object [("text", .string "hi")])) 5).record = some record →
        record.Canonical := by
    intro record found
    cases found
    exact ⟨List.pairwise_singleton _ _, trivial, trivial⟩
  apply parseJetstreamFrame_emitCommit invertsText_treeCodec 1700000000000000 _ (by decide)
    (by decide) (by decide) (by decide) canonical (by simp [aliceCommit])
  rw [depth_payload canonical]
  decide

end Skybase.Ingest
