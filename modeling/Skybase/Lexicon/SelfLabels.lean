import Skybase.Lexicon.Records
import Skybase.Text

/-!
# Self-labels

The two classifiers of adult posts: one on the JSON of a record, the other on
the labels that were read from it.  The first knows two words more, and sees
only what has names: the derived reader also takes arrays for records, for their
labels and for single labels.
-/

namespace Skybase.Json.Value

/-- `Value::as_array`. -/
def asArray : Value → Option (List Value)
  | array elements => some elements
  | _ => none

end Skybase.Json.Value

namespace Skybase.Lexicon

open Json Json.Serde

/-! ## The classifiers -/

/-- `NSFW_SELF_LABEL_VALUES`. -/
def nsfwSelfLabelValues : List String :=
  ["porn", "sexual", "nudity", "graphic-media", "graphic", "adult", "nsfw", "suggestive"]

/-- `SelfLabels::NSFW_LABELS`. -/
def SelfLabels.nsfwLabels : List String :=
  ["porn", "sexual", "nudity", "nsfw", "graphic-media", "gore", "corpse", "adult"]

/-- Whether a label is in a vocabulary, up to the case of its letters and the space around it. -/
def isOneOf (vocabulary : List String) (val : String) : Bool :=
  let trimmed := Text.trim val
  vocabulary.any fun nsfw => Text.eqIgnoreAsciiCase trimmed nsfw

/-- `has_nsfw_self_label`. -/
def hasNsfwSelfLabel (record : Value) : Bool :=
  match ((record.get "labels").bind fun labels => labels.get "values").bind Value.asArray with
  | none => false
  | some values =>
      values.any fun entry =>
        let raw := ((entry.get "val").bind Value.asStr).or entry.asStr
        raw.any fun val => isOneOf nsfwSelfLabelValues val || isOneOf SelfLabels.nsfwLabels val

/-- `SelfLabels::has_nsfw`. -/
def SelfLabels.hasNsfw (labels : SelfLabels) : Bool :=
  labels.values.any fun l => isOneOf nsfwLabels l.val

/-! ## Where labels stand -/

/-- The words that only the first classifier knows. -/
def onlySelfLabelValues : List String := ["graphic", "suggestive"]

/-- The labels in a record that are written with names throughout. -/
def namedVals (record : Value) : List String :=
  match ((record.get "labels").bind fun labels => labels.get "values").bind Value.asArray with
  | none => []
  | some values => values.filterMap fun entry => (entry.get "val").bind Value.asStr

/-- All labels that were read from a record. -/
def PostRecord.vals (record : PostRecord) : List String :=
  match record.labels with
  | none => []
  | some labels => labels.values.map SelfLabel.val

/-! ## Reading labels -/

namespace SelfLabel

/-- A label that was read is no bare string, and has its value by name if it has names. -/
theorem get_val_of_deserialize {entry : Value} {label : SelfLabel}
    (read : deserialize entry = some label) :
    (∀ val ∈ (entry.get "val").bind Value.asStr, val = label.val) ∧ entry.asStr = none := by
  unfold deserialize at read
  split at read
  · next val fields =>
      obtain ⟨text, text_eq, read⟩ := Option.bind_eq_some_iff.mp read
      cases read
      constructor
      · obtain named | unnamed := get_of_structFields fields
        · have val_eq : entry.get "val" = val := (List.cons.inj named).1.symm
          rw [val_eq]
          obtain ⟨value, rfl, value_eq⟩ := Option.bind_eq_some_iff.mp text_eq
          intro found found_eq
          cases value <;> cases value_eq
          exact (Option.some.inj found_eq).symm
        · rw [unnamed]
          exact fun _ mem => nomatch mem
      · cases entry <;> first | rfl | cases fields
  · cases read

end SelfLabel

/-- The list of the labels that were read, if it is found by its name. -/
theorem SelfLabels.get_values_of_deserialize {tree : Value} {labels : SelfLabels}
    (read : deserialize tree = some labels) :
    tree.get "values" = none ∨ ∃ entries, tree.get "values" = some (.array entries) ∧
      readElements SelfLabel.deserialize entries = some labels.values := by
  unfold deserialize at read
  split at read
  · next recordType values fields =>
      obtain ⟨_, _, read⟩ := Option.bind_eq_some_iff.mp read
      obtain ⟨found, found_eq, read⟩ := Option.bind_eq_some_iff.mp read
      cases read
      obtain named | unnamed := get_of_structFields fields
      · have values_eq : tree.get "values" = values :=
          (List.cons.inj (List.cons.inj named).2).1.symm
        rw [values_eq]
        cases values with
        | none => exact .inl rfl
        | some value =>
            cases value with
            | array entries => exact .inr ⟨entries, rfl, found_eq⟩
            | _ => cases found_eq
      · exact .inl (unnamed "values")
  · cases read

/-- The labels of the post that was read, if they are found by their names. -/
theorem PostRecord.get_values_of_deserialize {json : Value} {record : PostRecord}
    (read : deserialize json = some record) :
    ((json.get "labels").bind fun labels => labels.get "values") = none ∨
      ∃ labels entries, record.labels = some labels ∧
        ((json.get "labels").bind fun labels => labels.get "values") = some (.array entries) ∧
        readElements SelfLabel.deserialize entries = some labels.values := by
  obtain ⟨_, _, _, _, _, _, _, _, labels, fields, -, found_eq⟩ := exists_of_deserialize read
  obtain named | unnamed := get_of_structFields fields
  · have labels_eq : json.get "labels" = labels := by
      have last := congrArg List.getLast? named
      exact (Option.some.inj last).symm
    rw [labels_eq]
    cases found : record.labels with
    | none =>
        rw [found] at found_eq
        refine .inl ?_
        cases labels with
        | none => rfl
        | some tree =>
            cases tree with
            | object members =>
                obtain ⟨_, _, absurd⟩ := Option.map_eq_some_iff.mp found_eq
                cases absurd
            | _ => rfl
    | some given =>
        rw [found] at found_eq
        obtain ⟨tree, rfl, tree_eq⟩ := exists_of_readOption found_eq
        obtain absent | ⟨entries, entries_eq, all⟩ := SelfLabels.get_values_of_deserialize tree_eq
        · exact .inl absent
        · exact .inr ⟨given, entries, rfl, entries_eq, all⟩
  · rw [unnamed]
    exact .inl rfl

/-! ## Agreement -/

theorem isOneOf_iff (vocabulary : List String) (val : String) :
    isOneOf vocabulary val = true ↔
      ∃ word ∈ vocabulary, Text.eqIgnoreAsciiCase (Text.trim val) word = true :=
  List.any_eq_true

/-- The first classifier knows the words of the second and two more. -/
theorem isOneOf_selfLabelValues (val : String) :
    (isOneOf nsfwSelfLabelValues val || isOneOf SelfLabels.nsfwLabels val) =
      (isOneOf SelfLabels.nsfwLabels val || isOneOf onlySelfLabelValues val) := by
  have words : ∀ word, word ∈ nsfwSelfLabelValues ∨ word ∈ SelfLabels.nsfwLabels ↔
      word ∈ SelfLabels.nsfwLabels ∨ word ∈ onlySelfLabelValues := by
    intro word
    simp only [nsfwSelfLabelValues, SelfLabels.nsfwLabels, onlySelfLabelValues, List.mem_cons,
      List.not_mem_nil, or_false]
    tauto
  rw [Bool.eq_iff_iff, Bool.or_eq_true, Bool.or_eq_true, isOneOf_iff, isOneOf_iff, isOneOf_iff,
    ← exists_or, ← exists_or]
  refine exists_congr fun word => ?_
  rw [← or_and_right, ← or_and_right, words]

/-- The first classifier looks at the labels that are written with names. -/
theorem hasNsfwSelfLabel_iff {json : Value} {record : PostRecord}
    (read : PostRecord.deserialize json = some record) :
    hasNsfwSelfLabel json = true ↔
      ∃ val ∈ namedVals json, isOneOf SelfLabels.nsfwLabels val = true ∨
        isOneOf onlySelfLabelValues val = true := by
  unfold hasNsfwSelfLabel namedVals
  obtain absent | ⟨labels, entries, -, entries_eq, all⟩ :=
    PostRecord.get_values_of_deserialize read
  · rw [absent]
    simp
  · have raw : ∀ entry ∈ entries, ((entry.get "val").bind Value.asStr).or entry.asStr =
        (entry.get "val").bind Value.asStr := by
      intro entry mem
      obtain ⟨label, -, label_eq⟩ := exists_of_readElements all mem
      rw [(SelfLabel.get_val_of_deserialize label_eq).2, Option.or_none]
    rw [entries_eq]
    simp only [Option.bind_some, Value.asArray, List.any_eq_true, List.mem_filterMap,
      isOneOf_selfLabelValues, Option.any_eq_true, Bool.or_eq_true]
    constructor
    · rintro ⟨entry, mem, val, val_eq, matches'⟩
      rw [raw entry mem] at val_eq
      exact ⟨val, ⟨entry, mem, val_eq⟩, matches'⟩
    · rintro ⟨val, ⟨entry, mem, val_eq⟩, matches'⟩
      refine ⟨entry, mem, val, ?_, matches'⟩
      rwa [raw entry mem]

/-- Labels that are written with names are among those that were read. -/
theorem namedVals_subset {json : Value} {record : PostRecord}
    (read : PostRecord.deserialize json = some record) : namedVals json ⊆ record.vals := by
  unfold namedVals PostRecord.vals
  obtain absent | ⟨labels, entries, labels_eq, entries_eq, all⟩ :=
    PostRecord.get_values_of_deserialize read
  · rw [absent]
    exact List.nil_subset _
  · rw [labels_eq, entries_eq]
    intro val mem
    obtain ⟨entry, entryMem, val_eq⟩ := List.mem_filterMap.mp mem
    obtain ⟨label, labelMem, label_eq⟩ := exists_of_readElements all entryMem
    have same := (SelfLabel.get_val_of_deserialize label_eq).1 val val_eq
    exact List.mem_map.mpr ⟨label, labelMem, same.symm⟩

theorem SelfLabels.hasNsfw_iff (labels : SelfLabels) :
    labels.hasNsfw = true ↔
      ∃ val ∈ labels.values.map SelfLabel.val, isOneOf nsfwLabels val = true := by
  simp [hasNsfw]

/-- The second classifier looks at all labels. -/
theorem eq_hasNsfw_iff (record : PostRecord) (raw : Bool) :
    (∀ labels, record.labels = some labels → raw = labels.hasNsfw) ∧
        (record.labels = none → raw = false) ↔
      (raw = true ↔ ∃ val ∈ record.vals, isOneOf SelfLabels.nsfwLabels val = true) := by
  unfold PostRecord.vals
  cases record.labels with
  | none => simp
  | some labels =>
      rw [← labels.hasNsfw_iff, ← Bool.eq_iff_iff]
      refine ⟨fun same => same.1 labels rfl, fun same => ⟨?_, fun absent => nomatch absent⟩⟩
      rintro _ ⟨⟩
      exact same

/-- The classifiers agree exactly if a label with names is in the vocabulary of both, or if, where
one of the two further words is written with names, a label is in that vocabulary, and else none
is. -/
theorem hasNsfwSelfLabel_eq_hasNsfw_iff {json : Value} {record : PostRecord}
    (read : PostRecord.deserialize json = some record) :
    (∀ labels, record.labels = some labels → hasNsfwSelfLabel json = labels.hasNsfw) ∧
        (record.labels = none → hasNsfwSelfLabel json = false) ↔
      (∃ val ∈ namedVals json, isOneOf SelfLabels.nsfwLabels val = true) ∨
        ((∃ val ∈ namedVals json, isOneOf onlySelfLabelValues val = true) ↔
          ∃ val ∈ record.vals, isOneOf SelfLabels.nsfwLabels val = true) := by
  rw [eq_hasNsfw_iff, hasNsfwSelfLabel_iff read]
  have among : (∃ val ∈ namedVals json, isOneOf SelfLabels.nsfwLabels val = true) →
      ∃ val ∈ record.vals, isOneOf SelfLabels.nsfwLabels val = true := by
    rintro ⟨val, mem, known⟩
    exact ⟨val, namedVals_subset read mem, known⟩
  simp only [and_or_left, exists_or]
  by_cases known : ∃ val ∈ namedVals json, isOneOf SelfLabels.nsfwLabels val = true
  · exact iff_of_true (iff_of_true (.inl known) (among known)) (.inl known)
  · rw [or_iff_right known, or_iff_right known]

/-- A post with a label that both classifiers know. -/
theorem hasNsfwSelfLabel_eq_hasNsfw_porn :
    hasNsfwSelfLabel
        (.object [("labels", .object [("values", .array [.object [("val", .string " Porn")]])])]) =
      SelfLabels.hasNsfw ⟨none, [⟨" Porn"⟩]⟩ := by
  have read : PostRecord.deserialize
      (.object [("labels", .object [("values", .array [.object [("val", .string " Porn")]])])]) =
        some ⟨none, "", none, none, none, "", none, none, some ⟨none, [⟨" Porn"⟩]⟩⟩ := rfl
  have known := (hasNsfwSelfLabel_eq_hasNsfw_iff read).mpr
    (.inl ⟨" Porn", by decide +kernel, by decide +kernel⟩)
  exact known.1 _ rfl

/-- The classifiers disagree about a graphic post. -/
theorem hasNsfwSelfLabel_ne_hasNsfw_graphic : ∃ json record labels,
    PostRecord.deserialize json = some record ∧ record.labels = some labels ∧
      hasNsfwSelfLabel json ≠ labels.hasNsfw :=
  ⟨.object [("labels", .object [("values", .array [.object [("val", .string "graphic")]])])],
    _, _, rfl, rfl, by decide +kernel⟩

end Skybase.Lexicon
