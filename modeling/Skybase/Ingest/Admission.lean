import Skybase.Ingest.Identity

/-!
# Identifiers of the protocol

The syntax of DIDs, NSIDs and record keys, against the validators of the
parser.  The validators accept every DID and every NSID.  They accept a record
key unless it contains a colon, which the protocol allows and the validator
does not.
-/

namespace Skybase.Ingest

/-! ## Syntax -/

/-- A character of the identifier part of a DID. -/
def isDidChar (c : Char) : Bool :=
  c.isAlphanum || c == '.' || c == '_' || c == ':' || c == '%' || c == '-'

/-- A character that a DID may end with. -/
def isDidEnd (c : Char) : Bool := c.isAlphanum || c == '.' || c == '_' || c == '-'

/-- The syntax of DIDs, `did:[a-z]+:[a-zA-Z0-9._:%-]*[a-zA-Z0-9._-]`. -/
def IsDid (did : String) : Prop :=
  ∃ (method identifier : List Char) (final : Char), method ≠ [] ∧
    (∀ c ∈ method, c.isLower = true) ∧ (∀ c ∈ identifier, isDidChar c = true) ∧
      isDidEnd final = true ∧
        did.toList = "did:".toList ++ method ++ ':' :: (identifier ++ [final])

/-- A segment of the domain authority of an NSID. -/
structure IsAuthoritySegment (segment : List Char) : Prop where
  nonempty : segment ≠ []
  short : segment.length ≤ 63
  chars : ∀ c ∈ segment, c.isAlphanum = true ∨ c = '-'
  starts : segment.head? ≠ some '-'
  ends : segment.getLast? ≠ some '-'

/-- The name segment of an NSID. -/
structure IsNameSegment (segment : List Char) : Prop where
  nonempty : segment ≠ []
  short : segment.length ≤ 63
  chars : ∀ c ∈ segment, c.isAlphanum = true
  starts : ∀ c ∈ segment.head?, c.isDigit = false

/-- The parts of an NSID: the segments of its domain authority, of which there
are two or more, and its name. -/
structure IsNsidOf (authority : List (List Char)) (name : List Char) (nsid : String) : Prop where
  joined : nsid.toList = ['.'].intercalate (authority ++ [name])
  short : nsid.toList.length ≤ 317
  two : 2 ≤ authority.length
  authorityShort : (['.'].intercalate authority).length ≤ 253
  segments : ∀ segment ∈ authority, IsAuthoritySegment segment
  topLevel : ∀ segment ∈ authority.head?, ∀ c ∈ segment.head?, c.isDigit = false
  named : IsNameSegment name

/-- The syntax of NSIDs. -/
def IsNsid (nsid : String) : Prop := ∃ authority name, IsNsidOf authority name nsid

/-- A character of a record key. -/
def isRecordKeyChar (c : Char) : Bool :=
  c.isAlphanum || c == '.' || c == '-' || c == '_' || c == ':' || c == '~'

/-- The syntax of record keys. -/
structure IsRecordKey (rkey : String) : Prop where
  nonempty : rkey ≠ ""
  short : rkey.toList.length ≤ 512
  chars : ∀ c ∈ rkey.toList, isRecordKeyChar c = true
  notDot : rkey ≠ "."
  notDots : rkey ≠ ".."

/-! ## The validators on them -/

theorem ascii_of_isDidChar {c : Char} (valid : isDidChar c = true) : c.toNat < 128 := by
  simp only [isDidChar, Bool.or_eq_true, beq_iff_eq] at valid
  rcases valid with ((((alphanum | rfl) | rfl) | rfl) | rfl) | rfl
  · exact Text.ascii_of_isAlphanum alphanum
  all_goals decide

/-- All characters of a DID are characters of its identifier part. -/
theorem IsDid.chars {did : String} (valid : IsDid did) : ∀ c ∈ did.toList, isDidChar c = true := by
  rcases valid with ⟨method, identifier, final, _, lower, inside, ends, did_eq⟩
  have ofLower : ∀ c ∈ method, isDidChar c = true := by
    intro c mem
    simp [isDidChar, Text.isAlphanum_eq, lower c mem]
  have ofEnd : isDidChar final = true := by
    simp only [isDidEnd, Bool.or_eq_true] at ends
    simp only [isDidChar, Bool.or_eq_true]
    tauto
  intro c mem
  simp only [did_eq, List.mem_append, List.mem_cons, List.not_mem_nil, or_false] at mem
  rcases mem with (scheme | later) | rfl | later | rfl
  · exact List.all_eq_true.mp (by decide : "did:".toList.all isDidChar = true) c scheme
  · exact ofLower c later
  · decide
  · exact inside c later
  · exact ofEnd

theorem isValidDid_of_isDid {did : String} (valid : IsDid did) : isValidDid did = true := by
  have chars := valid.chars
  have ascii : ∀ c ∈ did.toList, c.toNat < 128 := fun c mem => ascii_of_isDidChar (chars c mem)
  have solid : ∀ c ∈ did.toList, Text.isWhitespace c = false := by
    intro c mem
    exact Text.of_ascii (fun c => isDidChar c = true → Text.isWhitespace c = false) (by decide)
      (ascii c mem) (chars c mem)
  rcases valid with ⟨method, identifier, final, hasMethod, lower, _, _, did_eq⟩
  have starts : Text.startsWith did "did:" = true := by
    rw [Text.startsWith, List.isPrefixOf_iff_prefix, did_eq, List.append_assoc]
    exact List.prefix_append _ _
  have long : ¬ Text.len did < 7 := by
    have methodLength := List.length_pos_iff.mpr hasMethod
    rw [Text.len_of_ascii ascii, did_eq]
    simp only [List.length_append, List.length_cons, List.length_nil]
    change ¬ 4 + method.length + (identifier.length + 1 + 1) < 7
    omega
  have parts : ¬ (Text.split did ':').length < 3 := by
    have colonFree : ':' ∉ (String.ofList method).toList := by
      rw [String.toList_ofList]
      exact fun mem => absurd (lower ':' mem) (by decide)
    have cut : did = "did" ++ String.singleton ':' ++
        (String.ofList method ++ String.singleton ':' ++
          String.ofList (identifier ++ [final])) := by
      rw [← String.toList_inj, did_eq]
      simp
    rw [cut, Text.split_append (by decide), Text.split_append colonFree]
    have rest : Text.split (String.ofList (identifier ++ [final])) ':' ≠ [] := by
      rw [Text.split, Ne, List.map_eq_nil_iff]
      exact List.splitOn_ne_nil _ _
    have := List.length_pos_iff.mpr rest
    simp only [List.length_cons]
    omega
  rw [isValidDid, Text.trim_of_solid solid, starts, decide_eq_false long, if_neg (by decide),
    if_neg parts, List.all_eq_true]
  intro c mem
  have charOk := chars c mem
  simp only [isDidChar, Bool.or_eq_true] at charOk ⊢
  tauto

/-- A character of a segment of an NSID. -/
def isNsidChar (c : Char) : Bool := c.isAlphanum || c == '-'

theorem ascii_of_isNsidChar {c : Char} (valid : isNsidChar c = true) : c.toNat < 128 := by
  simp only [isNsidChar, Bool.or_eq_true, beq_iff_eq] at valid
  rcases valid with alphanum | rfl
  · exact Text.ascii_of_isAlphanum alphanum
  · decide

/-- What the validator asks of a segment holds of all segments of an NSID. -/
theorem IsNsidOf.segment {authority : List (List Char)} {name : List Char} {nsid : String}
    (valid : IsNsidOf authority name nsid) :
    ∀ segment ∈ authority ++ [name], segment ≠ [] ∧ ∀ c ∈ segment, isNsidChar c = true := by
  intro segment mem
  rcases List.mem_append.mp mem with inAuthority | isName
  · have checked := valid.segments segment inAuthority
    refine ⟨checked.nonempty, ?_⟩
    intro c inside
    rcases checked.chars c inside with alphanum | rfl
    · simp [isNsidChar, alphanum]
    · decide
  · obtain rfl := List.mem_singleton.mp isName
    refine ⟨valid.named.nonempty, ?_⟩
    intro c inside
    simp [isNsidChar, valid.named.chars c inside]

/-- Splitting an NSID at its periods gives its segments. -/
theorem IsNsidOf.split {authority : List (List Char)} {name : List Char} {nsid : String}
    (valid : IsNsidOf authority name nsid) :
    Text.split nsid '.' = (authority ++ [name]).map String.ofList := by
  have dotFree : ∀ segment ∈ authority ++ [name], '.' ∉ segment := by
    intro segment mem inside
    exact absurd ((valid.segment segment mem).2 '.' inside) (by decide)
  rw [Text.split, valid.joined, List.splitOn_intercalate '.' dotFree (by simp)]

theorem isValidCollection_of_isNsid {coll : String} (valid : IsNsid coll) :
    isValidCollection coll = true := by
  rcases valid with ⟨authority, name, valid⟩
  have chars : ∀ c ∈ coll.toList, c = '.' ∨ isNsidChar c = true := by
    intro c mem
    rw [valid.joined] at mem
    rcases Text.mem_intercalate mem with rfl | ⟨segment, part, inside⟩
    · exact Or.inl rfl
    · exact Or.inr ((valid.segment segment part).2 c inside)
  have ascii : ∀ c ∈ coll.toList, c.toNat < 128 := by
    intro c mem
    rcases chars c mem with rfl | segmentChar
    · decide
    · exact ascii_of_isNsidChar segmentChar
  have solid : ∀ c ∈ coll.toList, Text.isWhitespace c = false := by
    intro c mem
    rcases chars c mem with rfl | segmentChar
    · decide
    · exact Text.of_ascii (fun c => isNsidChar c = true → Text.isWhitespace c = false) (by decide)
        (ascii c mem) segmentChar
  have dotted : '.' ∈ coll.toList := by
    cases two : authority with
    | nil => exact absurd valid.two (by simp [two])
    | cons first rest =>
        rw [valid.joined, two, List.cons_append, List.intercalate_cons_of_ne_nil (by simp)]
        simp
  have nonempty : coll.isEmpty = false := by
    rw [Bool.eq_false_iff]
    intro empty
    rw [String.isEmpty_iff.mp empty] at dotted
    cases dotted
  have short : ¬ Text.len coll > 317 := by
    rw [Text.len_of_ascii ascii]
    exact not_lt.mpr valid.short
  rw [isValidCollection, Text.trim_of_solid solid, nonempty, decide_eq_false short, Text.contains,
    List.contains_iff_mem.mpr dotted, if_neg (by decide), valid.split, List.all_eq_true]
  intro part mem
  rcases List.mem_map.mp mem with ⟨segment, segmentMem, rfl⟩
  have checked := valid.segment segment segmentMem
  rw [Bool.and_eq_true, String.toList_ofList]
  constructor
  · rw [Bool.not_eq_true', Bool.eq_false_iff, Ne, String.isEmpty_iff, ← String.toList_inj,
      String.toList_ofList]
    exact checked.1
  · exact List.all_eq_true.mpr checked.2

theorem ascii_of_isRecordKeyChar {c : Char} (valid : isRecordKeyChar c = true) : c.toNat < 128 := by
  simp only [isRecordKeyChar, Bool.or_eq_true, beq_iff_eq] at valid
  rcases valid with ((((alphanum | rfl) | rfl) | rfl) | rfl) | rfl
  · exact Text.ascii_of_isAlphanum alphanum
  all_goals decide

/-- The validator of record keys accepts the byte of every character of a key
but the colon. -/
theorem isRkeyByte_iff {c : Char} (valid : isRecordKeyChar c = true) :
    Repo.isRkeyByte (UInt8.ofNat c.toNat) = true ↔ c ≠ ':' :=
  Text.of_ascii
    (fun c => isRecordKeyChar c = true → (Repo.isRkeyByte (UInt8.ofNat c.toNat) = true ↔ c ≠ ':'))
    (by decide) (ascii_of_isRecordKeyChar valid) valid

/-- A record key is accepted exactly if it has no colon. -/
theorem isOk_validateRkey_iff {rkey : String} (valid : IsRecordKey rkey) :
    (Repo.validateRkey rkey).isOk = true ↔ ':' ∉ rkey.toList := by
  have ascii : ∀ c ∈ rkey.toList, c.toNat < 128 :=
    fun c mem => ascii_of_isRecordKeyChar (valid.chars c mem)
  have shaped : ¬ (rkey = "" ∨ Text.len rkey > 512 ∨ rkey = "." ∨ rkey = "..") := by
    rw [Text.len_of_ascii ascii, not_or, not_or, not_or]
    exact ⟨valid.nonempty, not_lt.mpr valid.short, valid.notDot, valid.notDots⟩
  have allBytes : (∀ b ∈ Text.bytes rkey, Repo.isRkeyByte b = true) ↔ ':' ∉ rkey.toList := by
    rw [Text.bytes_of_ascii ascii, List.forall_mem_map]
    constructor
    · intro all mem
      exact (isRkeyByte_iff (valid.chars ':' mem)).mp (all ':' mem) rfl
    · intro absent c mem
      rw [isRkeyByte_iff (valid.chars c mem)]
      rintro rfl
      exact absent mem
  rw [← allBytes, Repo.validateRkey, if_neg shaped]
  cases found : (Text.bytes rkey).find? fun b => !Repo.isRkeyByte b with
  | none =>
      constructor
      · intro _ b mem
        simpa using List.find?_eq_none.mp found b mem
      · exact fun _ => rfl
  | some b =>
      constructor
      · intro absurd
        cases absurd
      · intro all
        have bad := List.find?_some found
        rw [all b (List.mem_of_find?_eq_some found)] at bad
        cases bad

/-! ## Admission -/

theorem fromStrLoose_asStr (operation : CommitOperation) :
    CommitOperation.fromStrLoose operation.asStr = some operation := by
  cases operation <;> decide

/-- A commit frame whose record key contains a colon only advances the cursor. -/
theorem eventOf_of_colon {nowUs : U64} {msg : RawJetstreamMessage} {raw : RawJetstreamCommit}
    (kind : msg.kind = some "commit") (hasCommit : msg.commit = some raw)
    (validRkey : IsRecordKey raw.rkey) (colon : ':' ∈ raw.rkey.toList)
    (timely : isValidTimeUs nowUs msg.time = true) :
    eventOf nowUs msg = heartbeatOrNone msg.time := by
  have uncarried : msg.carried = none := by
    rw [Option.eq_none_iff_forall_ne_some]
    intro commit carries
    rcases (msg.carried_eq_some_iff commit).mp carries with ⟨_, other, _, checked, _⟩
    have same : other = raw := Option.some.inj (checked.hasCommit.symm.trans hasCommit)
    exact (isOk_validateRkey_iff validRkey).mp (same ▸ checked.validRkey) colon
  rw [eventOf_of_timely timely, uncarried]
  exact RawJetstreamMessage.advancing_of_commit kind

/-- A commit frame with identifiers of the protocol, a known operation and a
usable timestamp is parsed to the commit with its fields, unless its record key
contains a colon.  Then it only advances the cursor. -/
theorem parseJetstreamFrame_of_valid {decode : String → Except String RawJetstreamMessage}
    (json : ReadsJson decode) {nowUs : U64} {text did : String} {msg : RawJetstreamMessage}
    {raw : RawJetstreamCommit} (decoded : decode text = .ok msg)
    (kind : msg.kind = some "commit") (hasDid : msg.did = some did)
    (hasCommit : msg.commit = some raw) (validDid : IsDid did)
    (validCollection : IsNsid raw.collection) (validRkey : IsRecordKey raw.rkey)
    (operation : CommitOperation) (known : raw.operation = operation.asStr)
    (timely : isValidTimeUs nowUs msg.time = true) :
    parseJetstreamFrame decode nowUs text =
      if ':' ∈ raw.rkey.toList then heartbeatOrNone msg.time
      else some (.commit (msg.commitWith did raw operation)) := by
  have trimmed := json.ignoresSpace text msg decoded
  have nonempty := json.isEmpty_trim decoded
  have didOk := isValidDid_of_isDid validDid
  split
  · next colon =>
      rw [parseJetstreamFrame_of_decoded nonempty trimmed]
      exact eventOf_of_colon kind hasCommit validRkey colon timely
  · next noColon =>
      apply parseJetstreamFrame_of_carries nonempty trimmed timely
      exact
        { kind := kind
          hasDid := hasDid
          notBlank := notBlank_of_isValidDid didOk
          hasCommit := hasCommit
          validDid := didOk
          validCollection := isValidCollection_of_isNsid validCollection
          validRkey := (isOk_validateRkey_iff validRkey).mpr noColon
          known := by rw [known, fromStrLoose_asStr] }

/-! ## Two posts -/

theorem isDid_alice : IsDid "did:plc:alice" := by
  refine ⟨"plc".toList, "alic".toList, 'e', by decide, ?_, ?_, by decide, by decide⟩
  · exact fun c mem => List.all_eq_true.mp (by decide : "plc".toList.all Char.isLower = true) c mem
  · exact fun c mem => List.all_eq_true.mp (by decide : "alic".toList.all isDidChar = true) c mem

theorem isAuthoritySegment_of {segment : List Char} (nonempty : segment ≠ [])
    (short : segment.length ≤ 63) (chars : segment.all Char.isAlphanum = true) :
    IsAuthoritySegment segment where
  nonempty := nonempty
  short := short
  chars := fun c mem => Or.inl (List.all_eq_true.mp chars c mem)
  starts := by
    intro hyphen
    exact absurd (List.all_eq_true.mp chars '-' (List.mem_of_head? hyphen)) (by decide)
  ends := by
    intro hyphen
    exact absurd (List.all_eq_true.mp chars '-' (List.mem_of_getLast? hyphen)) (by decide)

theorem isNsid_post : IsNsid "app.bsky.feed.post" := by
  refine ⟨["app".toList, "bsky".toList, "feed".toList], "post".toList, ?_⟩
  constructor
  · decide
  · decide
  · decide
  · decide
  · intro segment mem
    simp only [List.mem_cons, List.not_mem_nil, or_false] at mem
    rcases mem with rfl | rfl | rfl
    · exact isAuthoritySegment_of (by decide) (by decide) (by decide)
    · exact isAuthoritySegment_of (by decide) (by decide) (by decide)
    · exact isAuthoritySegment_of (by decide) (by decide) (by decide)
  · rintro segment ⟨⟩ c ⟨⟩
    decide
  · have chars : "post".toList.all Char.isAlphanum = true := by decide
    constructor
    · decide
    · decide
    · exact fun c mem => List.all_eq_true.mp chars c mem
    · rintro c ⟨⟩
      decide

theorem isRecordKey_of {rkey : String} (long : 3 ≤ rkey.toList.length)
    (short : rkey.toList.length ≤ 512) (chars : rkey.toList.all isRecordKeyChar = true) :
    IsRecordKey rkey where
  nonempty := by
    rintro rfl
    exact absurd long (by decide)
  short := short
  chars := fun c mem => List.all_eq_true.mp chars c mem
  notDot := by
    rintro rfl
    exact absurd long (by decide)
  notDots := by
    rintro rfl
    exact absurd long (by decide)

/-- A create of a post is parsed to its commit. -/
theorem parseJetstreamFrame_of_valid_post :
    parseJetstreamFrame (decodeOnly (keyedFrame "3k2abc") (keyedMessage "3k2abc")) 1700000000000000
        (keyedFrame "3k2abc") =
      some (.commit ((keyedMessage "3k2abc").commitWith "did:plc:alice" (keyedCommit "3k2abc")
        .create)) :=
  parseJetstreamFrame_of_valid (readsJson_keyedFrame "3k2abc") (if_pos rfl) rfl rfl rfl isDid_alice
    isNsid_post (isRecordKey_of (by decide) (by decide) (by decide)) .create rfl (by decide)

/-- A create of a post under a key with a colon is parsed to a heartbeat, which
advances the cursor past it. -/
theorem parseJetstreamFrame_colonPost :
    let frame := keyedFrame "post:1"
    let decode := decodeOnly frame (keyedMessage "post:1")
    ReadsJson decode ∧ decode frame = .ok (keyedMessage "post:1") ∧ IsDid "did:plc:alice" ∧
      IsNsid "app.bsky.feed.post" ∧ IsRecordKey "post:1" ∧
      parseJetstreamFrame decode 1700000000000000 frame = some (.heartbeat 10) := by
  intro frame decode
  have json : ReadsJson decode := readsJson_keyedFrame "post:1"
  have decoded : decode frame = .ok (keyedMessage "post:1") := if_pos rfl
  have validRkey : IsRecordKey "post:1" := isRecordKey_of (by decide) (by decide) (by decide)
  refine ⟨json, decoded, isDid_alice, isNsid_post, validRkey, ?_⟩
  have trimmed := json.ignoresSpace _ _ decoded
  rw [parseJetstreamFrame_of_decoded (json.isEmpty_trim decoded) trimmed]
  exact eventOf_of_colon rfl rfl validRkey (by decide) (by decide)

end Skybase.Ingest
