import Skybase.Json.Trees

/-!
# Derived implementations

What the derive macros of `serde` make of structs, optional fields, vectors and
internally tagged enums, on JSON trees.  A derived struct is read from an object
by the names of its fields, each at most once, or from an array by their
positions; other members are ignored.  An internally tagged enum is buffered, up
to the recursion limit of the parser; it takes its tag out of the object or off
the array and reads the variant from the rest.  A tree that cannot be read has
no value.

A type whose values survive any reading of the written doubles is a `Codec`;
codecs compose along the combinators.
-/

namespace Skybase.Json.Serde

variable {α β : Type}

/-! ## Reading -/

/-- The value for a field among the members of an object, if there is one; a
field that occurs twice is an error. -/
def fieldOf (name : String) (members : List (String × Value)) : Option (Option Value) :=
  match members.filter fun member => member.1 = name with
  | [] => some none
  | [(_, value)] => some (some value)
  | _ => none

/-- The values for the fields of a struct. -/
def structFields (names : List String) : Value → Option (List (Option Value))
  | .object members => names.mapM fun name => fieldOf name members
  | .array elements =>
      if elements.length ≤ names.length then
        some (elements.map some ++ List.replicate (names.length - elements.length) none)
      else none
  | _ => none

/-- A field that must be there. -/
def required (read : Value → Option α) (field : Option Value) : Option α := field.bind read

/-- A field with `#[serde(default)]`. -/
def defaulted (default : α) (read : Value → Option α) : Option Value → Option α
  | none => some default
  | some value => read value

/-- An `Option`. -/
def readOption (read : Value → Option α) : Value → Option (Option α)
  | .null => some none
  | value => (read value).map some

/-- A `String`. -/
def readString : Value → Option String
  | .string text => some text
  | _ => none

/-- A `usize`, on a platform of 64 bits. -/
def readUsize : Value → Option U64
  | .number (.posInt value) => some value
  | _ => none

/-- A value of `serde_json`. -/
def readValue (value : Value) : Option Value := some value.canonicalize

/-- The elements of a `Vec`. -/
def readElements (read : Value → Option α) : List Value → Option (List α)
  | [] => some []
  | element :: elements => do
      let first ← read element
      let rest ← readElements read elements
      pure (first :: rest)

/-- A `Vec`. -/
def readVec (read : Value → Option α) : Value → Option (List α)
  | .array elements => readElements read elements
  | _ => none

/-- What is buffered at a level of the text meets the recursion limit. -/
def buffered (level : Nat) (read : Value → Option α) (value : Value) : Option α :=
  if level + value.depth ≤ 127 then read value else none

/-- The tag of an internally tagged enum, and the rest. -/
def taggedContent (tag : String) : Value → Option (String × Value)
  | .object members =>
      match fieldOf tag members with
      | some (some (.string variant)) =>
          some (variant, .object (members.filter fun member => member.1 ≠ tag))
      | _ => none
  | .array (.string variant :: elements) => some (variant, .array elements)
  | _ => none

/-- The content of a unit variant of an internally tagged enum. -/
def unitContent : Value → Option Unit
  | .object _ => some ()
  | .array [] => some ()
  | _ => none

/-! ## Writing -/

/-- The members of a struct; a field that is skipped has no value. -/
def structMembers : List String → List (Option Value) → List (String × Value)
  | name :: names, some value :: values => (name, value) :: structMembers names values
  | _ :: names, none :: values => structMembers names values
  | _, _ => []

/-- A struct. -/
def structTree (names : List String) (values : List (Option Value)) : Value :=
  .object (structMembers names values)

/-- An `Option`. -/
def writeOption (write : α → Value) : Option α → Value
  | none => .null
  | some value => write value

/-- A `Vec`. -/
def writeVec (write : α → Value) (values : List α) : Value := .array (values.map write)

/-- A variant of an internally tagged enum: the tag in front of the members. -/
def variantTree (tag variant : String) (members : List (String × Value)) : Value :=
  .object ((tag, .string variant) :: members)

/-- A newtype variant of an internally tagged enum, whose content must be written
as an object or as the unit. -/
def taggedTree (tag variant : String) : Value → Option Value
  | .object members => some (variantTree tag variant members)
  | .null => some (variantTree tag variant [])
  | _ => none

/-! ## Fields of objects -/

theorem fieldOf_cons_of_ne {name key : String} (differs : key ≠ name) (value : Value)
    (members : List (String × Value)) :
    fieldOf name ((key, value) :: members) = fieldOf name members := by
  have dropped : ¬ decide (key = name) = true := by rwa [decide_eq_true_iff]
  rw [fieldOf, List.filter_cons, if_neg dropped]
  rfl

theorem filter_of_not_mem {name : String} {members : List (String × Value)}
    (absent : name ∉ members.map Prod.fst) :
    members.filter (fun member => member.1 = name) = [] := by
  rw [List.filter_eq_nil_iff]
  intro member mem
  rw [decide_eq_true_iff]
  rintro rfl
  exact absent (List.mem_map_of_mem mem)

theorem fieldOf_cons_self {name : String} {members : List (String × Value)}
    (absent : name ∉ members.map Prod.fst) (value : Value) :
    fieldOf name ((name, value) :: members) = some (some value) := by
  rw [fieldOf, List.filter_cons, if_pos (decide_eq_true rfl), filter_of_not_mem absent]

theorem fieldOf_of_not_mem {name : String} {members : List (String × Value)}
    (absent : name ∉ members.map Prod.fst) : fieldOf name members = some none := by
  rw [fieldOf, filter_of_not_mem absent]

/-- A repeated field is an error. -/
theorem fieldOf_cons_of_mem {name : String} {members : List (String × Value)}
    (mem : name ∈ members.map Prod.fst) (value : Value) :
    fieldOf name ((name, value) :: members) = none := by
  rcases List.mem_map.mp mem with ⟨member, memberMem, rfl⟩
  have found : member ∈ members.filter fun other => other.1 = member.1 :=
    List.mem_filter.mpr ⟨memberMem, decide_eq_true rfl⟩
  rw [fieldOf, List.filter_cons, if_pos (decide_eq_true rfl)]
  cases again : members.filter fun other => other.1 = member.1 with
  | nil =>
      rw [again] at found
      cases found
  | cons first rest => rfl

theorem mem_of_mem_structMembers {name : String} {names : List String}
    {values : List (Option Value)} (mem : name ∈ (structMembers names values).map Prod.fst) :
    name ∈ names := by
  induction names generalizing values with
  | nil => cases mem
  | cons first names ih =>
      cases values with
      | nil => cases mem
      | cons value values =>
          cases value with
          | none => exact List.mem_cons_of_mem first (ih mem)
          | some value =>
              rcases List.mem_cons.mp mem with rfl | later
              · exact List.mem_cons_self
              · exact List.mem_cons_of_mem first (ih later)

/-- The fields of a struct are read from any members that agree with the written
ones on their names. -/
theorem mapM_fieldOf {names : List String} {values : List (Option Value)}
    {members : List (String × Value)} (nodup : names.Nodup)
    (aligned : names.length = values.length)
    (agree : ∀ name ∈ names, fieldOf name members = fieldOf name (structMembers names values)) :
    names.mapM (fun name => fieldOf name members) = some values := by
  induction names generalizing values with
  | nil =>
      rw [List.length_eq_zero_iff.mp aligned.symm]
      rfl
  | cons name names ih =>
      rw [List.nodup_cons] at nodup
      rw [List.forall_mem_cons] at agree
      cases values with
      | nil => cases aligned
      | cons value values =>
          have absent : name ∉ (structMembers names values).map Prod.fst :=
            fun mem => nodup.1 (mem_of_mem_structMembers mem)
          cases value with
          | none =>
              have rest := ih nodup.2 (Nat.succ.inj aligned) agree.2
              rw [List.mapM_cons, agree.1, structMembers, fieldOf_of_not_mem absent, rest]
              rfl
          | some value =>
              have others : ∀ other ∈ names, fieldOf other members =
                  fieldOf other (structMembers names values) := by
                intro other mem
                have differs : name ≠ other := by
                  rintro rfl
                  exact nodup.1 mem
                rw [agree.2 other mem, structMembers, fieldOf_cons_of_ne differs]
              have rest := ih nodup.2 (Nat.succ.inj aligned) others
              rw [List.mapM_cons, agree.1, structMembers, fieldOf_cons_self absent, rest]
              rfl

/-- A struct is read as it was written. -/
theorem structFields_structTree {names : List String} {values : List (Option Value)}
    (nodup : names.Nodup) (aligned : names.length = values.length) :
    structFields names (structTree names values) = some values :=
  mapM_fieldOf nodup aligned fun _ _ => rfl

theorem mem_of_fieldOf {name : String} {members : List (String × Value)} {value : Value}
    (found : fieldOf name members = some (some value)) : (name, value) ∈ members := by
  unfold fieldOf at found
  split at found
  · cases found
  · next key other only =>
      cases found
      have mem : (key, value) ∈ members.filter fun member => member.1 = name := by
        rw [only]
        exact List.mem_singleton_self _
      rw [List.mem_filter, decide_eq_true_iff] at mem
      exact mem.2 ▸ mem.1
  · cases found

theorem mem_of_mapM_fieldOf {names : List String} {members : List (String × Value)}
    {fields : List (Option Value)}
    (mapped : names.mapM (fun name => fieldOf name members) = some fields) {value : Value}
    (mem : some value ∈ fields) : ∃ name, (name, value) ∈ members := by
  induction names generalizing fields with
  | nil =>
      cases mapped
      cases mem
  | cons name names ih =>
      rw [List.mapM_cons] at mapped
      rcases Option.bind_eq_some_iff.mp mapped with ⟨first, first_eq, mapped⟩
      rcases Option.bind_eq_some_iff.mp mapped with ⟨rest, rest_eq, mapped⟩
      cases mapped
      rcases List.mem_cons.mp mem with rfl | later
      · exact ⟨name, mem_of_fieldOf first_eq⟩
      · exact ih rest_eq later

/-- The values for the fields of a struct lie below it. -/
theorem depth_lt_of_structFields {names : List String} {tree : Value}
    {fields : List (Option Value)} (read : structFields names tree = some fields) {value : Value}
    (mem : some value ∈ fields) : value.depth < tree.depth := by
  unfold structFields at read
  split at read
  · rcases mem_of_mapM_fieldOf read mem with ⟨name, memberMem⟩
    exact Nat.lt_succ_of_le (Value.depthOfMembers_le_iff.mp le_rfl _ memberMem)
  · next elements =>
      split at read
      · cases read
        rcases List.mem_append.mp mem with given | missing
        · rcases List.mem_map.mp given with ⟨element, elementMem, same⟩
          cases same
          exact Nat.lt_succ_of_le (Value.depthOfElements_le_iff.mp le_rfl _ elementMem)
        · cases List.eq_of_mem_replicate missing
      · cases read
  · cases read

/-! ## Values of structs -/

section Reread

variable {again : U64 → U64}

theorem rereadMembers_structMembers (names : List String) (values : List (Option Value)) :
    Value.rereadMembers again (structMembers names values) =
      structMembers names (values.map (Option.map (Value.reread again))) := by
  induction names generalizing values with
  | nil => rfl
  | cons name names ih =>
      cases values with
      | nil => rfl
      | cons value values =>
          cases value with
          | none => exact ih values
          | some value =>
              rw [structMembers, Value.rereadMembers, ih, List.map_cons, Option.map_some,
                structMembers]

theorem reread_structTree (names : List String) (values : List (Option Value)) :
    (structTree names values).reread again =
      structTree names (values.map (Option.map (Value.reread again))) := by
  rw [structTree, Value.reread, rereadMembers_structMembers, structTree]

end Reread

theorem depthOfMembers_structMembers_le {names : List String} {values : List (Option Value)}
    {bound : Nat} (shallow : ∀ value, some value ∈ values → value.depth ≤ bound) :
    Value.depthOfMembers (structMembers names values) ≤ bound := by
  induction names generalizing values with
  | nil => exact Nat.zero_le bound
  | cons name names ih =>
      cases values with
      | nil => exact Nat.zero_le bound
      | cons value values =>
          have rest := ih fun later mem => shallow later (List.mem_cons_of_mem value mem)
          cases value with
          | none => exact rest
          | some value => exact max_le (shallow value List.mem_cons_self) rest

theorem depth_structTree_le {names : List String} {values : List (Option Value)} {bound : Nat}
    (shallow : ∀ value, some value ∈ values → value.depth ≤ bound) :
    (structTree names values).depth ≤ bound + 1 :=
  Nat.succ_le_succ (depthOfMembers_structMembers_le shallow)

/-! ## Tagged values -/

theorem buffered_eq_some_iff {level : Nat} {read : Value → Option α} {value : Value} {result : α} :
    buffered level read value = some result ↔
      level + value.depth ≤ 127 ∧ read value = some result := by
  rw [buffered, Option.ite_none_right_eq_some]

theorem buffered_of_le {level : Nat} {value : Value} (shallow : level + value.depth ≤ 127)
    (read : Value → Option α) : buffered level read value = read value :=
  if_pos shallow

theorem reread_variantTree (again : U64 → U64) (tag variant : String)
    (members : List (String × Value)) :
    (variantTree tag variant members).reread again =
      variantTree tag variant (Value.rereadMembers again members) := by
  rw [variantTree, Value.reread, Value.rereadMembers, Value.reread, variantTree]

theorem depth_variantTree (tag variant : String) (members : List (String × Value)) :
    (variantTree tag variant members).depth = (Value.object members).depth := by
  rw [variantTree, Value.depth, Value.depthOfMembers, Value.depth, Value.depth, Nat.zero_max]

/-- The tag of a written variant is found, and the rest is its content. -/
theorem taggedContent_variantTree {tag variant : String} {members : List (String × Value)}
    (absent : tag ∉ members.map Prod.fst) :
    taggedContent tag (variantTree tag variant members) = some (variant, .object members) := by
  have kept : members.filter (fun member => member.1 ≠ tag) = members := by
    rw [List.filter_eq_self]
    intro member mem
    rw [decide_eq_true_iff]
    rintro rfl
    exact absent (List.mem_map_of_mem mem)
  have dropped : ¬ decide (tag ≠ tag) = true := by rw [decide_eq_true_iff, not_not]
  rw [variantTree, taggedContent, fieldOf_cons_self absent]
  change some (variant, Value.object (List.filter _ (_ :: _))) = _
  rw [List.filter_cons, if_neg dropped, kept]

/-- A variant whose content has a field of the name of the tag cannot be read. -/
theorem taggedContent_variantTree_of_mem {tag variant : String}
    {members : List (String × Value)} (mem : tag ∈ members.map Prod.fst) :
    taggedContent tag (variantTree tag variant members) = none := by
  rw [variantTree, taggedContent, fieldOf_cons_of_mem mem]

/-- What a tagged value leaves: an object without the tag, or the rest of an
array; it is no deeper than the value. -/
theorem taggedContent_eq_some {tag variant : String} {value content : Value}
    (tagged : taggedContent tag value = some (variant, content)) :
    content.depth ≤ value.depth ∧
      ((∃ members, content = .object members ∧ tag ∉ members.map Prod.fst) ∨
        ∃ elements, content = .array elements) := by
  unfold taggedContent at tagged
  split at tagged
  · next members =>
      split at tagged
      · obtain ⟨rfl, rfl⟩ := Prod.mk.inj (Option.some.inj tagged)
        refine ⟨Nat.succ_le_succ ?_, .inl ⟨_, rfl, ?_⟩⟩
        · rw [Value.depthOfMembers_le_iff]
          intro member mem
          exact Value.depthOfMembers_le_iff.mp le_rfl member (List.mem_filter.mp mem).1
        · intro mem
          rcases List.mem_map.mp mem with ⟨member, memberMem, rfl⟩
          have differs := (List.mem_filter.mp memberMem).2
          rw [decide_eq_true_iff] at differs
          exact differs rfl
      · cases tagged
  · next elements =>
      obtain ⟨rfl, rfl⟩ := Prod.mk.inj (Option.some.inj tagged)
      exact ⟨Nat.succ_le_succ (le_max_right _ _), .inr ⟨elements, rfl⟩⟩
  · cases tagged

/-- A content is deepened to at least the object that carries the tag. -/
theorem depth_taggedTree_le {tag variant : String} {content tree : Value}
    (tagged : taggedTree tag variant content = some tree) : tree.depth ≤ max 1 content.depth := by
  unfold taggedTree at tagged
  split at tagged
  · cases tagged
    rw [depth_variantTree]
    exact le_max_right _ _
  · cases tagged
    exact le_max_left _ _
  · cases tagged

/-- An optional field that has a value was read. -/
theorem exists_of_readOption {read : Value → Option α} {field : Option Value} {value : α}
    (found : defaulted none (readOption read) field = some (some value)) :
    ∃ given, field = some given ∧ read given = some value := by
  cases field with
  | none => cases found
  | some given =>
      refine ⟨given, rfl, ?_⟩
      change readOption read given = some (some value) at found
      unfold readOption at found
      split at found
      · cases found
      · rcases Option.map_eq_some_iff.mp found with ⟨_, read_eq, same⟩
        cases same
        exact read_eq

/-! ## Codecs -/

/-- The values survive any reading of the written doubles, to a depth, and are
never written as null. -/
structure Codec (depth : Nat) (write : α → Value) (read : Value → Option α) : Prop where
  read_write : ∀ (again : U64 → U64) (value : α), read ((write value).reread again) = some value
  depth_le : ∀ value, (write value).depth ≤ depth
  ne_null : ∀ value, write value ≠ .null

namespace Codec

variable {depth : Nat} {write : α → Value} {read : Value → Option α}

theorem string : Codec 0 Value.string readString where
  read_write _ _ := rfl
  depth_le _ := le_rfl
  ne_null _ := Value.noConfusion

theorem usize : Codec 0 (fun value => Value.number (.posInt value)) readUsize where
  read_write _ _ := rfl
  depth_le _ := le_rfl
  ne_null _ := Value.noConfusion

theorem readElements_map (codec : Codec depth write read) (again : U64 → U64) (values : List α) :
    readElements read (Value.rereadElements again (values.map write)) = some values := by
  induction values with
  | nil => rfl
  | cons value values ih =>
      rw [List.map_cons, Value.rereadElements, readElements, codec.read_write, ih]
      rfl

theorem vec (codec : Codec depth write read) :
    Codec (depth + 1) (writeVec write) (readVec read) where
  read_write again values := codec.readElements_map again values
  depth_le values := by
    refine Nat.succ_le_succ (Value.depthOfElements_le_iff.mpr ?_)
    intro element mem
    rcases List.mem_map.mp mem with ⟨value, _, rfl⟩
    exact codec.depth_le value
  ne_null _ := Value.noConfusion

theorem reread_ne_null (codec : Codec depth write read) (again : U64 → U64) (value : α) :
    (write value).reread again ≠ .null := by
  have written := codec.ne_null value
  cases tree : write value with
  | null => exact absurd tree written
  | _ => exact Value.noConfusion

theorem required_some (codec : Codec depth write read) (again : U64 → U64) (value : α) :
    required read (some ((write value).reread again)) = some value :=
  codec.read_write again value

theorem defaulted_some (codec : Codec depth write read) (again : U64 → U64) (default value : α) :
    defaulted default read (some ((write value).reread again)) = some value :=
  codec.read_write again value

/-- An optional value that is written as null is read again. -/
theorem readOption_writeOption (codec : Codec depth write read) (again : U64 → U64)
    (value : Option α) :
    readOption read ((writeOption write value).reread again) = some value := by
  cases value with
  | none => rfl
  | some value =>
      have present := codec.reread_ne_null again value
      rw [writeOption, readOption, codec.read_write, Option.map_some]
      exact present

theorem defaulted_writeOption (codec : Codec depth write read) (again : U64 → U64)
    (value : Option α) :
    defaulted none (readOption read) (some ((writeOption write value).reread again)) =
      some value :=
  codec.readOption_writeOption again value

theorem depth_writeOption_le (codec : Codec depth write read) (value : Option α) :
    (writeOption write value).depth ≤ depth := by
  cases value with
  | none => exact Nat.zero_le depth
  | some value => exact codec.depth_le value

/-- An optional value that is skipped when absent is read again. -/
theorem defaulted_skipped (codec : Codec depth write read) (again : U64 → U64)
    (value : Option α) :
    defaulted none (readOption read) ((value.map write).map (Value.reread again)) =
      some value := by
  cases value with
  | none => rfl
  | some value => exact codec.readOption_writeOption again (some value)

end Codec

/-! ## Fields by name -/

/-- A field that was read is the member of that name. -/
theorem lookup_of_fieldOf {name : String} {members : List (String × Value)} {field : Option Value}
    (found : fieldOf name members = some field) : members.lookup name = field := by
  induction members with
  | nil =>
      cases found
      rfl
  | cons member members ih =>
      obtain ⟨key, value⟩ := member
      by_cases same : key = name
      · subst same
        rw [List.lookup_cons_self]
        by_cases again : key ∈ members.map Prod.fst
        · rw [fieldOf_cons_of_mem again] at found
          cases found
        · rw [fieldOf_cons_self again] at found
          exact Option.some.inj found
      · rw [fieldOf_cons_of_ne same] at found
        have other : (name == key) = false := beq_eq_false_iff_ne.mpr (Ne.symm same)
        rw [List.lookup_cons, other]
        exact ih found

/-- The fields of a struct that is written with names. -/
theorem map_lookup_of_structFields {names : List String} {members : List (String × Value)}
    {fields : List (Option Value)} (read : structFields names (.object members) = some fields) :
    fields = names.map fun name => members.lookup name := by
  change names.mapM (fun name => fieldOf name members) = some fields at read
  induction names generalizing fields with
  | nil =>
      cases read
      rfl
  | cons name names ih =>
      rw [List.mapM_cons] at read
      obtain ⟨first, first_eq, read⟩ := Option.bind_eq_some_iff.mp read
      obtain ⟨rest, rest_eq, read⟩ := Option.bind_eq_some_iff.mp read
      cases read
      rw [List.map_cons, lookup_of_fieldOf first_eq, ih rest_eq]

/-- A struct is written with names or has no members. -/
theorem get_of_structFields {names : List String} {tree : Value} {fields : List (Option Value)}
    (read : structFields names tree = some fields) :
    (fields = names.map fun name => tree.get name) ∨ ∀ name, tree.get name = none := by
  cases tree with
  | object members => exact .inl (map_lookup_of_structFields read)
  | _ => exact .inr fun _ => rfl

/-- Every element of a vector is read. -/
theorem exists_of_readElements {read : Value → Option α} {elements : List Value}
    {values : List α} (found : readElements read elements = some values) {element : Value}
    (mem : element ∈ elements) : ∃ value ∈ values, read element = some value := by
  induction elements generalizing values with
  | nil => cases mem
  | cons first elements ih =>
      rw [readElements] at found
      obtain ⟨value, value_eq, found⟩ := Option.bind_eq_some_iff.mp found
      obtain ⟨rest, rest_eq, found⟩ := Option.bind_eq_some_iff.mp found
      cases found
      obtain rfl | later := List.mem_cons.mp mem
      · exact ⟨value, List.mem_cons_self, value_eq⟩
      · obtain ⟨other, otherMem, other_eq⟩ := ih rest_eq later
        exact ⟨other, List.mem_cons_of_mem value otherMem, other_eq⟩

end Skybase.Json.Serde
