import Skybase.Ingest.Consumer
import Skybase.Ingest.Identity
import Skybase.Ingest.Subscription
import Mathlib.Data.Set.Finite.Basic
import Mathlib.Data.Set.Prod

/-!
# The edge filter and the subscription

The reader compares a commit with the configured lists as they are, while the
URL of its subscription has their trimmed entries without the blank ones.  The
two filters pass the same commits exactly if both lists are in order, or one of
them asks for nothing that a frame can carry.
-/

namespace Skybase.Ingest

/-! ## Filters -/

/-- A list of decoded filter values matches a text; an empty list matches all. -/
def MatchesValues (values : List (List UInt8)) (text : String) : Prop :=
  values = [] ∨ Text.bytes text ∈ values

/-- The commit matches the filters that a subscription URL asks for. -/
structure MatchesUrl (url : String) (commit : JetstreamCommit) : Prop where
  collection :
    MatchesValues (Form.valuesOf (Text.bytes "wantedCollections") url.toList) commit.collection
  did : MatchesValues (Form.valuesOf (Text.bytes "wantedDids") url.toList) commit.did

/-- A list of entries in order, for a check on their values: it is empty, or
the URL shows its filter, some entry is not blank, and the entries that pass
the check are trimmed. -/
def Orderly (valid : String → Bool) (hidden : Prop) (entries : List String) : Prop :=
  entries = [] ∨
    ¬ hidden ∧ (∃ entry ∈ entries, (Text.trim entry).isEmpty = false) ∧
      ∀ entry ∈ entries, valid entry = true → Text.trim entry = entry

/-- A list of entries that the URL shows, and of which none passes the check. -/
def Vacuous (valid : String → Bool) (hidden : Prop) (entries : List String) : Prop :=
  ¬ hidden ∧ (∃ entry ∈ entries, (Text.trim entry).isEmpty = false) ∧
    ∀ entry ∈ entries, valid entry = false

/-! ## The checks of the parser -/

/-- What the two filters rely on in a check of the parser. -/
structure ChecksTrimmed (valid : String → Bool) : Prop where
  trim : ∀ text, valid (Text.trim text) = valid text
  notBlank : ∀ text, valid text = true → (Text.trim text).isEmpty = false
  /-- No list has all values that pass. -/
  exists_not_mem : ∀ texts : List String, ∃ text, text ∉ texts ∧ valid text = true

/-- A text behind a number of spaces. -/
def padded (width : Nat) (text : String) : String :=
  String.ofList (List.replicate width ' ' ++ text.toList)

theorem trim_padded (width : Nat) (text : String) :
    Text.trim (padded width text) = Text.trim text := by
  rw [Text.trim, Text.trim, padded, String.toList_ofList, List.dropWhile_append_of_pos]
  intro c mem
  rw [List.eq_of_mem_replicate mem]
  decide

theorem padded_injective (text : String) : Function.Injective fun width => padded width text := by
  intro first second same
  have lengths := congrArg (fun result => result.toList.length) same
  simpa [padded] using lengths

/-- Padding gives values that pass without end. -/
theorem exists_valid_not_mem {valid : String → Bool}
    (trim : ∀ text, valid (Text.trim text) = valid text) {text : String}
    (passes : valid text = true) (texts : List String) :
    ∃ fresh, fresh ∉ texts ∧ valid fresh = true := by
  rcases (Set.infinite_range_of_injective (padded_injective text)).exists_notMem_finset
    texts.toFinset with ⟨fresh, ⟨width, rfl⟩, outside⟩
  refine ⟨_, fun mem => outside (List.mem_toFinset.mpr mem), ?_⟩
  rw [← trim, trim_padded, trim, passes]

theorem checksTrimmed_isValidCollection : ChecksTrimmed isValidCollection := by
  have trim : ∀ text, isValidCollection (Text.trim text) = isValidCollection text := by
    intro text
    unfold isValidCollection
    rw [Text.trim_trim]
  exact ⟨trim, fun _ => notBlank_of_isValidCollection,
    exists_valid_not_mem trim (by decide : isValidCollection "a.b" = true)⟩

theorem checksTrimmed_isValidDid : ChecksTrimmed isValidDid := by
  have trim : ∀ text, isValidDid (Text.trim text) = isValidDid text := by
    intro text
    unfold isValidDid
    rw [Text.trim_trim]
  exact ⟨trim, fun _ => notBlank_of_isValidDid,
    exists_valid_not_mem trim (by decide : isValidDid "did:a:b" = true)⟩

/-! ## One list -/

theorem mem_requested_iff {value : String} {entries : List String} :
    value ∈ requested entries ↔
      ∃ entry ∈ entries, Text.trim entry = value ∧ (Text.trim entry).isEmpty = false := by
  rw [requested, List.mem_filter, List.mem_map]
  constructor
  · rintro ⟨⟨entry, mem, rfl⟩, solid⟩
    exact ⟨entry, mem, rfl, by simpa using solid⟩
  · rintro ⟨entry, mem, rfl, solid⟩
    exact ⟨⟨entry, mem, rfl⟩, by simpa using solid⟩

theorem requested_ne_nil_iff {entries : List String} :
    requested entries ≠ [] ↔ ∃ entry ∈ entries, (Text.trim entry).isEmpty = false := by
  constructor
  · intro nonempty
    rcases List.exists_mem_of_ne_nil _ nonempty with ⟨value, mem⟩
    rcases mem_requested_iff.mp mem with ⟨entry, entryMem, _, solid⟩
    exact ⟨entry, entryMem, solid⟩
  · rintro ⟨entry, mem, solid⟩
    exact List.ne_nil_of_mem (mem_requested_iff.mpr ⟨entry, mem, rfl, solid⟩)

section Lists

variable {valid : String → Bool} {hidden : Prop} [Decidable hidden] {entries : List String}

/-- The valid values that the reader lets through. -/
def accepted (valid : String → Bool) (entries : List String) : Set String :=
  {value | valid value = true ∧ (entries = [] ∨ value ∈ entries)}

/-- The valid values that the URL asks for. -/
def asked (valid : String → Bool) (hidden : Prop) [Decidable hidden] (entries : List String) :
    Set String :=
  {value | valid value = true ∧
    MatchesValues (if hidden then [] else (requested entries).map Text.bytes) value}

theorem mem_asked_of_shown (shown : ¬ hidden)
    (solid : ∃ entry ∈ entries, (Text.trim entry).isEmpty = false) (value : String) :
    value ∈ asked valid hidden entries ↔ valid value = true ∧ value ∈ requested entries := by
  have nonempty : (requested entries).map Text.bytes ≠ [] := by
    simpa using requested_ne_nil_iff.mpr solid
  rw [asked, Set.mem_ofPred_eq, if_neg shown, MatchesValues, or_iff_right nonempty,
    List.mem_map_of_injective Text.bytes_injective]

/-- Without a filter in the URL every valid value is asked for. -/
theorem mem_asked_of_unfiltered
    (unfiltered : hidden ∨ ¬ ∃ entry ∈ entries, (Text.trim entry).isEmpty = false)
    (value : String) : value ∈ asked valid hidden entries ↔ valid value = true := by
  have empty : (if hidden then [] else (requested entries).map Text.bytes) = [] := by
    split
    · rfl
    · next shown =>
        rcases unfiltered with isHidden | blank
        · exact absurd isHidden shown
        · rw [← requested_ne_nil_iff, not_ne_iff] at blank
          rw [blank, List.map_nil]
  rw [asked, Set.mem_ofPred_eq, empty]
  exact and_iff_left (Or.inl rfl)

/-- The URL asks for what the reader lets through if the list is in order. -/
theorem accepted_eq_asked_iff (checks : ChecksTrimmed valid) :
    accepted valid entries = asked valid hidden entries ↔ Orderly valid hidden entries := by
  constructor
  · intro same
    by_cases empty : entries = []
    · exact Or.inl empty
    · right
      by_cases unfiltered : hidden ∨ ¬ ∃ entry ∈ entries, (Text.trim entry).isEmpty = false
      · rcases checks.exists_not_mem entries with ⟨value, outside, passes⟩
        have isAsked : value ∈ asked valid hidden entries :=
          (mem_asked_of_unfiltered unfiltered value).mpr passes
        rw [← same] at isAsked
        rcases isAsked.2 with none | inside
        · exact absurd none empty
        · exact absurd inside outside
      · rw [not_or, not_not] at unfiltered
        refine ⟨unfiltered.1, unfiltered.2, ?_⟩
        intro entry mem passes
        have isAsked : entry ∈ asked valid hidden entries := same ▸ ⟨passes, Or.inr mem⟩
        rw [mem_asked_of_shown unfiltered.1 unfiltered.2] at isAsked
        rcases mem_requested_iff.mp isAsked.2 with ⟨source, _, rfl, _⟩
        exact Text.trim_trim source
  · rintro (rfl | ⟨shown, solid, trimmed⟩)
    · ext value
      rw [mem_asked_of_unfiltered (Or.inr (by simp))]
      exact and_iff_left (Or.inl rfl)
    · ext value
      rw [mem_asked_of_shown shown solid]
      constructor
      · rintro ⟨passes, none | mem⟩
        · rcases solid with ⟨entry, mem, _⟩
          exact absurd mem (by rw [none]; exact List.not_mem_nil)
        · have same := trimmed value mem passes
          exact ⟨passes, mem_requested_iff.mpr ⟨value, mem, same, checks.notBlank value passes⟩⟩
      · rintro ⟨passes, mem⟩
        rcases mem_requested_iff.mp mem with ⟨entry, entryMem, rfl, _⟩
        rw [checks.trim] at passes
        have same := trimmed entry entryMem passes
        exact ⟨by rwa [checks.trim], Or.inr (same.symm ▸ entryMem)⟩

/-- The URL asks for nothing valid if the list is vacuous. -/
theorem asked_eq_empty_iff (checks : ChecksTrimmed valid) :
    asked valid hidden entries = ∅ ↔ Vacuous valid hidden entries := by
  constructor
  · intro empty
    have none : ∀ value, value ∉ asked valid hidden entries :=
      Set.eq_empty_iff_forall_notMem.mp empty
    by_cases unfiltered : hidden ∨ ¬ ∃ entry ∈ entries, (Text.trim entry).isEmpty = false
    · rcases checks.exists_not_mem [] with ⟨value, _, passes⟩
      exact absurd ((mem_asked_of_unfiltered unfiltered value).mpr passes) (none value)
    · rw [not_or, not_not] at unfiltered
      refine ⟨unfiltered.1, unfiltered.2, ?_⟩
      intro entry mem
      rw [Bool.eq_false_iff]
      intro passes
      apply none (Text.trim entry)
      rw [mem_asked_of_shown unfiltered.1 unfiltered.2, checks.trim]
      exact ⟨passes, mem_requested_iff.mpr ⟨entry, mem, rfl, checks.notBlank entry passes⟩⟩
  · rintro ⟨shown, solid, invalid⟩
    rw [Set.eq_empty_iff_forall_notMem]
    intro value isAsked
    rw [mem_asked_of_shown shown solid] at isAsked
    rcases isAsked with ⟨passes, mem⟩
    rcases mem_requested_iff.mp mem with ⟨entry, entryMem, rfl, _⟩
    rw [checks.trim, invalid entry entryMem] at passes
    cases passes

end Lists

theorem accepted_of_vacuous {valid : String → Bool} {hidden : Prop} {entries : List String}
    (vacuous : Vacuous valid hidden entries) :
    accepted valid entries = ∅ := by
  rcases vacuous with ⟨_, ⟨entry, mem, _⟩, invalid⟩
  rw [Set.eq_empty_iff_forall_notMem]
  rintro value ⟨passes, none | inside⟩
  · rw [none] at mem
    cases mem
  · rw [invalid value inside] at passes
    cases passes

/-! ## Both lists -/

theorem wants_iff (config : IngesterConfig) (commit : JetstreamCommit) :
    config.wants commit = true ↔
      (config.wantedCollections = [] ∨ commit.collection ∈ config.wantedCollections) ∧
        (config.wantedDids = [] ∨ commit.did ∈ config.wantedDids) := by
  simp [IngesterConfig.wants]

/-- Some frame carries a commit with the given valid keys. -/
theorem exists_carried {collection did : String}
    (validCollection : isValidCollection collection = true) (validDid : isValidDid did = true) :
    ∃ (msg : RawJetstreamMessage) (commit : JetstreamCommit), msg.carried = some commit ∧
      commit.collection = collection ∧ commit.did = did := by
  let raw : RawJetstreamCommit := ⟨"create", collection, "r1", none, none⟩
  let msg : RawJetstreamMessage := ⟨some did, some 5, some "commit", some raw⟩
  have carries : msg.Carries did raw .create :=
    { kind := rfl
      hasDid := rfl
      notBlank := notBlank_of_isValidDid validDid
      hasCommit := rfl
      validDid := validDid
      validCollection := validCollection
      validRkey := (by decide : (Repo.validateRkey "r1").isOk = true)
      known := (by decide : CommitOperation.fromStrLoose "create" = some .create) }
  exact ⟨msg, _, (msg.carried_eq_some_iff _).mpr ⟨did, raw, .create, carries, rfl⟩, rfl, rfl⟩

theorem valid_of_carried {msg : RawJetstreamMessage} {commit : JetstreamCommit}
    (carried : msg.carried = some commit) :
    isValidCollection commit.collection = true ∧ isValidDid commit.did = true := by
  rcases (msg.carried_eq_some_iff commit).mp carried with ⟨did, raw, operation, carries, rfl⟩
  exact ⟨carries.validCollection, carries.validDid⟩

section Subscription

variable (form : Form.Encoder) (config : IngesterConfig) {endpoint : String}
  (noQuery : Form.queryOf endpoint.toList = none) (cursor : Option U64)
include noQuery

/-- The two filters agree if they let the same pairs of valid keys through. -/
theorem agrees_iff_prod_eq :
    (∀ (msg : RawJetstreamMessage) (commit : JetstreamCommit), msg.carried = some commit →
        (config.wants commit = true ↔
          MatchesUrl
            (buildSubscriptionUrlFull form endpoint config.wantedCollections config.wantedDids
              cursor) commit)) ↔
      accepted isValidCollection config.wantedCollections ×ˢ
          accepted isValidDid config.wantedDids =
        asked isValidCollection (Hides endpoint "wantedCollections") config.wantedCollections ×ˢ
          asked isValidDid (Hides endpoint "wantedDids") config.wantedDids := by
  have matches_iff : ∀ commit,
      MatchesUrl (buildSubscriptionUrlFull form endpoint config.wantedCollections
          config.wantedDids cursor) commit ↔
        MatchesValues (if Hides endpoint "wantedCollections" then []
            else (requested config.wantedCollections).map Text.bytes) commit.collection ∧
          MatchesValues (if Hides endpoint "wantedDids" then []
            else (requested config.wantedDids).map Text.bytes) commit.did := by
    intro commit
    rw [← valuesOf_collections form noQuery config.wantedCollections config.wantedDids cursor,
      ← valuesOf_dids form noQuery config.wantedCollections config.wantedDids cursor]
    exact ⟨fun both => ⟨both.collection, both.did⟩, fun both => ⟨both.1, both.2⟩⟩
  constructor
  · intro agrees
    ext ⟨collection, did⟩
    by_cases valid : isValidCollection collection = true ∧ isValidDid did = true
    · rcases exists_carried valid.1 valid.2 with ⟨msg, commit, carried, rfl, rfl⟩
      have same := agrees msg commit carried
      rw [wants_iff, matches_iff] at same
      simp only [Set.mem_prod, accepted, asked, Set.mem_ofPred_eq, valid, true_and]
      exact same
    · constructor
      · rintro ⟨inCollections, inDids⟩
        exact absurd ⟨inCollections.1, inDids.1⟩ valid
      · rintro ⟨inCollections, inDids⟩
        exact absurd ⟨inCollections.1, inDids.1⟩ valid
  · intro same msg commit carried
    have valid := valid_of_carried carried
    have member := Set.ext_iff.mp same (commit.collection, commit.did)
    simp only [Set.mem_prod, accepted, asked, Set.mem_ofPred_eq, valid, true_and] at member
    rw [wants_iff, matches_iff]
    exact member

/-- The edge filter agrees with the subscription, exactly.  For an endpoint
without a query, the commits that frames carry pass the reader if and only if
they match the filters of the URL, just in case both lists are in order or one
of them is vacuous. -/
theorem wants_iff_matchesUrl_iff :
    (∀ (msg : RawJetstreamMessage) (commit : JetstreamCommit), msg.carried = some commit →
        (config.wants commit = true ↔
          MatchesUrl
            (buildSubscriptionUrlFull form endpoint config.wantedCollections config.wantedDids
              cursor) commit)) ↔
      (Orderly isValidCollection (Hides endpoint "wantedCollections") config.wantedCollections ∧
          Orderly isValidDid (Hides endpoint "wantedDids") config.wantedDids) ∨
        Vacuous isValidCollection (Hides endpoint "wantedCollections") config.wantedCollections ∨
          Vacuous isValidDid (Hides endpoint "wantedDids") config.wantedDids := by
  rw [agrees_iff_prod_eq form config noQuery cursor, Set.prod_eq_prod_iff,
    accepted_eq_asked_iff checksTrimmed_isValidCollection,
    accepted_eq_asked_iff checksTrimmed_isValidDid,
    asked_eq_empty_iff checksTrimmed_isValidCollection,
    asked_eq_empty_iff checksTrimmed_isValidDid]
  constructor
  · rintro (both | ⟨_, vacuous⟩)
    · exact Or.inl both
    · exact Or.inr vacuous
  · rintro (both | vacuous)
    · exact Or.inl both
    · exact Or.inr ⟨vacuous.imp accepted_of_vacuous accepted_of_vacuous, vacuous⟩

end Subscription

/-! ## Runs of the two filters -/

/-- A configuration that asks for the given collections of all DIDs. -/
def collectionsConfig (wantedCollections : List String) : IngesterConfig :=
  ⟨wantedCollections, [], none, 16, 1⟩

/-- A list of trimmed collections is in order. -/
theorem wants_iff_matchesUrl_posts :
    let config := collectionsConfig ["app.bsky.feed.post", ""]
    let url := buildSubscriptionUrlFull Form.standard "wss://jetstream.example.com/subscribe"
      config.wantedCollections config.wantedDids none
    ∀ (msg : RawJetstreamMessage) (commit : JetstreamCommit), msg.carried = some commit →
      (config.wants commit = true ↔ MatchesUrl url commit) := by
  intro config url
  apply (wants_iff_matchesUrl_iff Form.standard config (by decide) none).mpr
  left
  exact ⟨Or.inr (by decide), Or.inl rfl⟩

/-- The server sends the posts that a padded entry asks for, and the reader
drops them. -/
theorem wants_ne_matchesUrl_paddedEntry :
    let config := collectionsConfig [" app.bsky.feed.post"]
    let endpoint := "wss://jetstream.example.com/subscribe"
    let url := buildSubscriptionUrlFull Form.standard endpoint config.wantedCollections
      config.wantedDids none
    Form.queryOf endpoint.toList = none ∧
      ∃ (msg : RawJetstreamMessage) (commit : JetstreamCommit), msg.carried = some commit ∧
        MatchesUrl url commit ∧ config.wants commit = false := by
  intro config endpoint url
  have noQuery : Form.queryOf endpoint.toList = none := by decide
  rcases exists_carried (by decide : isValidCollection "app.bsky.feed.post" = true)
    (by decide : isValidDid "did:plc:alice" = true) with ⟨msg, commit, carried, isPost, _⟩
  have asksPosts : Form.valuesOf (Text.bytes "wantedCollections") url.toList =
      [Text.bytes "app.bsky.feed.post"] := by
    rw [valuesOf_collections Form.standard noQuery, if_neg (by decide)]
    rfl
  have asksDids : Form.valuesOf (Text.bytes "wantedDids") url.toList = [] := by
    rw [valuesOf_dids Form.standard noQuery, if_neg (by decide)]
    rfl
  refine ⟨noQuery, msg, commit, carried, ⟨Or.inr ?_, Or.inl asksDids⟩, ?_⟩
  · rw [asksPosts, isPost]
    exact List.mem_singleton_self _
  · rw [Bool.eq_false_iff, Ne, wants_iff, isPost]
    exact fun wanted => absurd wanted.1 (by decide)

end Skybase.Ingest
