import Skybase.Ingest.Events

/-!
# What the frame parser returns

A decoded message carries a commit if it passes every check of the commit case.
The result of the parser is a function of the commit that the message carries,
its timestamp and its kind: nothing for a poisoned timestamp, the commit if
there is one, and otherwise an event that only advances the cursor, if the
timestamp is usable.
-/

namespace Skybase.Ingest

open Skybase.Json

/-- What the parser relies on in `serde_json`: the empty text is no message,
and white space around a message is ignored. -/
structure ReadsJson (decode : String → Except String RawJetstreamMessage) : Prop where
  rejectsEmpty : ∀ msg, decode "" ≠ .ok msg
  ignoresSpace : ∀ text msg, decode text = .ok msg → decode (Text.trim text) = .ok msg

/-- A text that decodes to a message is not blank. -/
theorem ReadsJson.isEmpty_trim {decode : String → Except String RawJetstreamMessage}
    (json : ReadsJson decode) {text : String} {msg : RawJetstreamMessage}
    (decoded : decode text = .ok msg) : (Text.trim text).isEmpty = false := by
  have trimmed := json.ignoresSpace text msg decoded
  rw [Bool.eq_false_iff]
  intro empty
  rw [String.isEmpty_iff.mp empty] at trimmed
  exact json.rejectsEmpty msg trimmed

/-- The deserialization of one text. -/
def decodeOnly (text : String) (msg : RawJetstreamMessage) (other : String) :
    Except String RawJetstreamMessage :=
  if other = text then .ok msg else .error "expected value"

theorem readsJson_decodeOnly {text : String} (msg : RawJetstreamMessage) (nonempty : text ≠ "")
    (trimmed : Text.trim text = text) : ReadsJson (decodeOnly text msg) := by
  constructor
  · intro other decoded
    rw [decodeOnly, if_neg nonempty.symm] at decoded
    cases decoded
  · intro other otherMsg decoded
    by_cases same : other = text
    · rw [same, trimmed, ← same]
      rwa [same] at decoded ⊢
    · rw [decodeOnly, if_neg same] at decoded
      cases decoded

/-- The text of a frame with a post under the given record key. -/
def keyedFrame (rkey : String) : String :=
  "\x7b" ++ ("\"did\":\"did:plc:alice\",\"time_us\":10,\"kind\":\"commit\",\"commit\":" ++
    "\x7b\"operation\":\"create\",\"collection\":\"app.bsky.feed.post\",\"rkey\":\"" ++ rkey ++
    "\",\"record\":true\x7d") ++ "\x7d"

/-- The commit part of the frame. -/
def keyedCommit (rkey : String) : RawJetstreamCommit :=
  ⟨"create", "app.bsky.feed.post", rkey, none, some (.bool true)⟩

/-- The envelope of the frame. -/
def keyedMessage (rkey : String) : RawJetstreamMessage :=
  ⟨some "did:plc:alice", some 10, some "commit", some (keyedCommit rkey)⟩

theorem readsJson_keyedFrame (rkey : String) :
    ReadsJson (decodeOnly (keyedFrame rkey) (keyedMessage rkey)) := by
  apply readsJson_decodeOnly
  · intro empty
    have braced := congrArg String.isEmpty empty
    rw [keyedFrame, Text.isEmpty_braced] at braced
    cases braced
  · exact Text.trim_braced _

namespace RawJetstreamMessage

/-- The timestamp of a message, zero where it has none. -/
def time (msg : RawJetstreamMessage) : U64 := msg.timeUs.getD 0

/-- The message passes the checks of the commit case with these parts. -/
structure Carries (msg : RawJetstreamMessage) (did : String) (raw : RawJetstreamCommit)
    (operation : CommitOperation) : Prop where
  kind : msg.kind = some "commit"
  hasDid : msg.did = some did
  notBlank : (Text.trim did).isEmpty = false
  hasCommit : msg.commit = some raw
  validDid : isValidDid did = true
  validCollection : isValidCollection raw.collection = true
  validRkey : (Repo.validateRkey raw.rkey).isOk = true
  known : CommitOperation.fromStrLoose raw.operation = some operation

/-- The commit with the fields of the message. -/
def commitWith (msg : RawJetstreamMessage) (did : String) (raw : RawJetstreamCommit)
    (operation : CommitOperation) : JetstreamCommit where
  did := did
  timeUs := msg.time
  collection := raw.collection
  rkey := raw.rkey
  operation := operation
  cid := raw.cid
  record := raw.record

/-- The commit that a message carries. -/
def carried (msg : RawJetstreamMessage) : Option JetstreamCommit :=
  match msg.did, msg.commit with
  | some did, some raw =>
      if msg.kind = some "commit" ∧ (Text.trim did).isEmpty = false ∧ isValidDid did = true ∧
          isValidCollection raw.collection = true ∧ (Repo.validateRkey raw.rkey).isOk = true then
        (CommitOperation.fromStrLoose raw.operation).map (msg.commitWith did raw)
      else none
  | _, _ => none

theorem carried_eq_some_iff (msg : RawJetstreamMessage) (commit : JetstreamCommit) :
    msg.carried = some commit ↔
      ∃ did raw operation, msg.Carries did raw operation ∧
        commit = msg.commitWith did raw operation := by
  constructor
  · intro carries
    unfold carried at carries
    split at carries
    · next did raw hasDid hasCommit =>
        split at carries
        · next checks =>
            rcases checks with ⟨kind, notBlank, validDid, validCollection, validRkey⟩
            rcases Option.map_eq_some_iff.mp carries with ⟨operation, known, rfl⟩
            exact ⟨did, raw, operation,
              ⟨kind, hasDid, notBlank, hasCommit, validDid, validCollection, validRkey, known⟩, rfl⟩
        · cases carries
    · cases carries
  · rintro ⟨did, raw, operation, carries, rfl⟩
    have checks : msg.kind = some "commit" ∧ (Text.trim did).isEmpty = false ∧
        isValidDid did = true ∧ isValidCollection raw.collection = true ∧
        (Repo.validateRkey raw.rkey).isOk = true :=
      ⟨carries.kind, carries.notBlank, carries.validDid, carries.validCollection,
        carries.validRkey⟩
    simp only [carried, carries.hasDid, carries.hasCommit]
    rw [if_pos checks, carries.known, Option.map_some]

/-- The event of a message that carries no commit: it advances the cursor. -/
def advancing (msg : RawJetstreamMessage) : Option JetstreamEvent :=
  if msg.time > 0 then
    if msg.kind = some "commit" then some (.heartbeat msg.time)
    else
      match msg.kind with
      | none => some (.heartbeat msg.time)
      | some kind => some (.other kind msg.did msg.time)
  else none

theorem advancing_of_commit {msg : RawJetstreamMessage} (kind : msg.kind = some "commit") :
    msg.advancing = heartbeatOrNone msg.time := by
  unfold advancing heartbeatOrNone
  rw [if_pos kind]

/-- With a usable timestamp there is an event at that time. -/
theorem exists_advancing {msg : RawJetstreamMessage} (positive : msg.time > 0) :
    ∃ event, msg.advancing = some event ∧ event.timeUs = msg.time ∧
      ∀ commit, event ≠ .commit commit := by
  unfold advancing
  rw [if_pos positive]
  split
  · exact ⟨_, rfl, rfl, fun _ => JetstreamEvent.noConfusion⟩
  · split
    · exact ⟨_, rfl, rfl, fun _ => JetstreamEvent.noConfusion⟩
    · exact ⟨_, rfl, rfl, fun _ => JetstreamEvent.noConfusion⟩

theorem advancing_ne_commit (msg : RawJetstreamMessage) (commit : JetstreamCommit) :
    msg.advancing ≠ some (.commit commit) := by
  by_cases positive : msg.time > 0
  · rcases exists_advancing positive with ⟨event, event_eq, _, other⟩
    rw [event_eq]
    intro same
    exact other commit (Option.some.inj same)
  · rw [advancing, if_neg positive]
    intro absurd
    cases absurd

end RawJetstreamMessage

/-- What the parser makes of a decoded message. -/
def eventOf (nowUs : U64) (msg : RawJetstreamMessage) : Option JetstreamEvent :=
  if msg.time > 0 && !isValidTimeUs nowUs msg.time then none
  else
    match msg.carried with
    | some commit => some (.commit commit)
    | none => msg.advancing

/-- The parser decodes the trimmed text and returns the event of the message. -/
theorem parseJetstreamFrame_of_decoded {decode : String → Except String RawJetstreamMessage}
    {nowUs : U64} {text : String} {msg : RawJetstreamMessage}
    (nonempty : (Text.trim text).isEmpty = false) (decoded : decode (Text.trim text) = .ok msg) :
    parseJetstreamFrame decode nowUs text = eventOf nowUs msg := by
  simp only [parseJetstreamFrame, nonempty, decoded, Bool.false_eq_true, if_false]
  change (if msg.time > 0 && !isValidTimeUs nowUs msg.time then none else _) = eventOf nowUs msg
  unfold eventOf
  split
  · rfl
  · by_cases kind : msg.kind = some "commit"
    · rw [if_pos kind, RawJetstreamMessage.advancing_of_commit kind]
      cases hasDid : msg.did with
      | none => simp only [RawJetstreamMessage.carried, hasDid]; rfl
      | some did =>
          cases hasCommit : msg.commit with
          | none =>
              simp only [RawJetstreamMessage.carried, hasDid, hasCommit]
              split <;> rfl
          | some raw =>
              simp only [RawJetstreamMessage.carried, hasDid, hasCommit, kind, true_and]
              cases blank : (Text.trim did).isEmpty with
              | true => simp; rfl
              | false =>
                  cases validDid : isValidDid did with
                  | false => simp; rfl
                  | true =>
                      cases validCollection : isValidCollection raw.collection with
                      | false => simp; rfl
                      | true =>
                          cases validRkey : (Repo.validateRkey raw.rkey).isOk with
                          | false => simp; rfl
                          | true =>
                              cases CommitOperation.fromStrLoose raw.operation with
                              | none => simp; rfl
                              | some operation => simp; rfl
    · have uncarried : msg.carried = none := by
        unfold RawJetstreamMessage.carried
        split
        · exact if_neg fun checks => kind checks.1
        · rfl
      rw [if_neg kind, uncarried]
      unfold RawJetstreamMessage.advancing
      rw [if_neg kind]
      cases msg.kind with
      | none => rfl
      | some other => rfl

/-- Whatever the parser returns comes from a message that was decoded. -/
theorem exists_decoded_of_parsed {decode : String → Except String RawJetstreamMessage}
    {nowUs : U64} {text : String} {event : JetstreamEvent}
    (parsed : parseJetstreamFrame decode nowUs text = some event) :
    ∃ msg, decode (Text.trim text) = .ok msg ∧ eventOf nowUs msg = some event := by
  cases nonempty : (Text.trim text).isEmpty with
  | true =>
      simp only [parseJetstreamFrame, nonempty, if_true] at parsed
      cases parsed
  | false =>
      cases decoded : decode (Text.trim text) with
      | error err =>
          simp only [parseJetstreamFrame, nonempty, decoded, Bool.false_eq_true, if_false] at parsed
          cases parsed
      | ok msg =>
          rw [parseJetstreamFrame_of_decoded nonempty decoded] at parsed
          exact ⟨msg, rfl, parsed⟩

theorem carried_of_eventOf {nowUs : U64} {msg : RawJetstreamMessage} {commit : JetstreamCommit}
    (commits : eventOf nowUs msg = some (.commit commit)) : msg.carried = some commit := by
  unfold eventOf at commits
  split at commits
  · cases commits
  · cases carries : msg.carried with
    | none =>
        rw [carries] at commits
        exact absurd commits (msg.advancing_ne_commit commit)
    | some other =>
        rw [carries] at commits
        cases commits
        rfl

/-- A commit that the parser returns is carried by a decoded message. -/
theorem exists_carries_of_parsed {decode : String → Except String RawJetstreamMessage}
    {nowUs : U64} {text : String} {commit : JetstreamCommit}
    (parsed : parseJetstreamFrame decode nowUs text = some (.commit commit)) :
    ∃ msg did raw operation, decode (Text.trim text) = .ok msg ∧ msg.Carries did raw operation ∧
      commit = msg.commitWith did raw operation := by
  rcases exists_decoded_of_parsed parsed with ⟨msg, decoded, commits⟩
  rcases (msg.carried_eq_some_iff commit).mp (carried_of_eventOf commits) with
    ⟨did, raw, operation, carries, rfl⟩
  exact ⟨msg, did, raw, operation, decoded, carries, rfl⟩

/-! ## The parser, exactly -/

/-- With a reading of the clock, a timestamp is valid up to the future skew. -/
theorem isValidTimeUs_iff {nowUs : U64} (positive : nowUs > 0) (timeUs : U64) :
    isValidTimeUs nowUs timeUs = true ↔ timeUs ≤ nowUs.saturatingAdd maxFutureSkewUs := by
  rw [isValidTimeUs, decide_eq_true positive, Bool.true_and, Bool.not_eq_true',
    decide_eq_false_iff_not, gt_iff_lt, not_lt]

theorem eventOf_of_timely {nowUs : U64} {msg : RawJetstreamMessage}
    (timely : isValidTimeUs nowUs msg.time = true) :
    eventOf nowUs msg = msg.carried.elim msg.advancing fun commit => some (.commit commit) := by
  unfold eventOf
  rw [timely, Bool.not_true, Bool.and_false, if_neg Bool.false_ne_true]
  cases msg.carried <;> rfl

/-- A poisoned timestamp discards the message. -/
theorem eventOf_of_untimely {nowUs : U64} {msg : RawJetstreamMessage} (later : msg.time > 0)
    (untimely : isValidTimeUs nowUs msg.time = false) : eventOf nowUs msg = none := by
  rw [eventOf, untimely, Bool.not_false, Bool.and_true, decide_eq_true later, if_pos rfl]

/-- Within the limit, the messages that pass every check are the commits. -/
theorem eventOf_eq_commit_iff {nowUs : U64} {msg : RawJetstreamMessage} {commit : JetstreamCommit}
    (timely : isValidTimeUs nowUs msg.time = true) :
    eventOf nowUs msg = some (.commit commit) ↔
      ∃ did raw operation, msg.Carries did raw operation ∧
        commit = msg.commitWith did raw operation := by
  rw [← msg.carried_eq_some_iff]
  constructor
  · exact carried_of_eventOf
  · intro carries
    rw [eventOf_of_timely timely, carries, Option.elim_some]

/-- A message that passes every check is parsed to its commit. -/
theorem parseJetstreamFrame_of_carries {decode : String → Except String RawJetstreamMessage}
    {nowUs : U64} {text did : String} {msg : RawJetstreamMessage} {raw : RawJetstreamCommit}
    {operation : CommitOperation} (nonempty : (Text.trim text).isEmpty = false)
    (decoded : decode (Text.trim text) = .ok msg) (timely : isValidTimeUs nowUs msg.time = true)
    (carries : msg.Carries did raw operation) :
    parseJetstreamFrame decode nowUs text = some (.commit (msg.commitWith did raw operation)) := by
  rw [parseJetstreamFrame_of_decoded nonempty decoded]
  exact (eventOf_eq_commit_iff timely).mpr ⟨did, raw, operation, carries, rfl⟩

/-- A usable timestamp always gives an event at that time. -/
theorem exists_eventOf {nowUs : U64} {msg : RawJetstreamMessage} (later : msg.time > 0)
    (timely : isValidTimeUs nowUs msg.time = true) :
    ∃ event, eventOf nowUs msg = some event ∧ event.timeUs = msg.time := by
  rw [eventOf_of_timely timely]
  cases carries : msg.carried with
  | some commit =>
      rcases (msg.carried_eq_some_iff commit).mp carries with ⟨did, raw, operation, _, rfl⟩
      exact ⟨_, rfl, rfl⟩
  | none =>
      rcases RawJetstreamMessage.exists_advancing later with ⟨event, event_eq, time_eq, _⟩
      exact ⟨event, event_eq, time_eq⟩

/-- Without a timestamp there is no event but a commit at time zero. -/
theorem eventOf_of_untimed {nowUs : U64} {msg : RawJetstreamMessage} (untimed : msg.time = 0) :
    eventOf nowUs msg = none ∨
      ∃ commit, eventOf nowUs msg = some (.commit commit) ∧ commit.timeUs = 0 := by
  have unchecked : ¬ msg.time > 0 := by
    rw [untimed]
    exact lt_irrefl 0
  unfold eventOf
  rw [decide_eq_false unchecked, Bool.false_and, if_neg Bool.false_ne_true]
  cases carries : msg.carried with
  | some commit =>
      rcases (msg.carried_eq_some_iff commit).mp carries with ⟨did, raw, operation, _, rfl⟩
      exact Or.inr ⟨_, rfl, untimed⟩
  | none => exact Or.inl (if_neg unchecked)

/-- The specification of the parser.  On a text that decodes to a message, with
a reading of the clock: a timestamp beyond the limit gives nothing.  Within the
limit the result is a commit exactly if the message passes every check, and
then its fields are those of the message; a usable timestamp always gives an
event at that time, and without one there is nothing or a commit at time zero. -/
theorem parseJetstreamFrame_exact {decode : String → Except String RawJetstreamMessage}
    (json : ReadsJson decode) {nowUs : U64} (positive : nowUs > 0) {text : String}
    {msg : RawJetstreamMessage} (decoded : decode text = .ok msg) :
    (msg.time > nowUs.saturatingAdd maxFutureSkewUs →
        parseJetstreamFrame decode nowUs text = none) ∧
      (msg.time ≤ nowUs.saturatingAdd maxFutureSkewUs →
        ((∃ commit, parseJetstreamFrame decode nowUs text = some (.commit commit)) ↔
            ∃ did raw operation, msg.Carries did raw operation) ∧
          ∀ did raw operation, msg.Carries did raw operation →
            parseJetstreamFrame decode nowUs text =
              some (.commit (msg.commitWith did raw operation))) ∧
      (0 < msg.time → msg.time ≤ nowUs.saturatingAdd maxFutureSkewUs →
        ∃ event, parseJetstreamFrame decode nowUs text = some event ∧
          event.timeUs = msg.time) ∧
      (msg.time = 0 →
        parseJetstreamFrame decode nowUs text = none ∨
          ∃ commit, parseJetstreamFrame decode nowUs text = some (.commit commit) ∧
            commit.timeUs = 0) := by
  have trimmed := json.ignoresSpace text msg decoded
  rw [parseJetstreamFrame_of_decoded (json.isEmpty_trim decoded) trimmed,
    ← isValidTimeUs_iff positive]
  refine ⟨?_, ?_, exists_eventOf, eventOf_of_untimed⟩
  · intro poisoned
    apply eventOf_of_untimely (lt_of_le_of_lt (Fin.zero_le _) poisoned)
    rw [Bool.eq_false_iff]
    exact fun timely => absurd ((isValidTimeUs_iff positive _).mp timely) (not_le_of_gt poisoned)
  · intro timely
    have commits : ∀ commit, eventOf nowUs msg = some (.commit commit) ↔ _ :=
      fun commit => eventOf_eq_commit_iff timely
    constructor
    · simp only [commits]
      constructor
      · rintro ⟨_, did, raw, operation, carries, _⟩
        exact ⟨did, raw, operation, carries⟩
      · rintro ⟨did, raw, operation, carries⟩
        exact ⟨_, did, raw, operation, carries, rfl⟩
    · intro did raw operation carries
      exact (commits _).mpr ⟨did, raw, operation, carries, rfl⟩

theorem carries_keyedPost :
    (keyedMessage "3k2abc").Carries "did:plc:alice" (keyedCommit "3k2abc") .create where
  kind := rfl
  hasDid := rfl
  notBlank := by decide
  hasCommit := rfl
  validDid := by decide
  validCollection := by decide
  validRkey := by decide
  known := by decide

/-- A frame that creates a post is parsed to its commit, and one that carries
nothing but a timestamp advances the cursor to it. -/
theorem parseJetstreamFrame_exact_post :
    let post := keyedFrame "3k2abc"
    let beat := "\x7b\"time_us\":10\x7d"
    parseJetstreamFrame (decodeOnly post (keyedMessage "3k2abc")) 1700000000000000 post =
        some (.commit ⟨"did:plc:alice", 10, "app.bsky.feed.post", "3k2abc", .create, none,
          some (.bool true)⟩) ∧
      ∃ event, parseJetstreamFrame (decodeOnly beat ⟨none, some 10, none, none⟩) 1700000000000000
          beat = some event ∧ event.timeUs = 10 := by
  intro post beat
  constructor
  · have decoded : decodeOnly post (keyedMessage "3k2abc") post = .ok (keyedMessage "3k2abc") :=
      if_pos rfl
    exact ((parseJetstreamFrame_exact (readsJson_keyedFrame "3k2abc") (by decide) decoded).2.1
      (by decide)).2 _ _ _ carries_keyedPost
  · have decoded : decodeOnly beat ⟨none, some 10, none, none⟩ beat =
        .ok ⟨none, some 10, none, none⟩ := if_pos rfl
    have json := readsJson_decodeOnly ⟨none, some 10, none, none⟩
      (by decide : beat ≠ "") (by decide : Text.trim beat = beat)
    exact (parseJetstreamFrame_exact json (by decide) decoded).2.2.1 (by decide) (by decide)

end Skybase.Ingest
