import Skybase.Json.Serde

/-!
# Reading from values

A derived implementation also reads from a value that was parsed before, whose
objects list their members in the order of the keys.  What was written as a
struct, a vector or a tagged variant is found there again: only the order of the
members has changed.  A codec is `Rebuilt` if its values are read from the
canonical tree, too; this composes along the same combinators.
-/

namespace Skybase.Json

namespace Value

/-! ## Members that are inserted -/

theorem mem_insertMember_iff {key : String} {value : Value} {members : List (String × Value)}
    (absent : key ∉ members.map Prod.fst) {member : String × Value} :
    member ∈ insertMember key value members ↔ member = (key, value) ∨ member ∈ members := by
  induction members with
  | nil => simp [insertMember]
  | cons first rest ih =>
      rw [List.map_cons, List.mem_cons, not_or] at absent
      rw [insertMember]
      split
      · rw [List.mem_cons]
      · rw [if_neg absent.1, List.mem_cons, ih absent.2, List.mem_cons, or_left_comm]

theorem mem_keys_insertMember {key : String} {value : Value} {members : List (String × Value)}
    {name : String} (mem : name ∈ (insertMember key value members).map Prod.fst) :
    name = key ∨ name ∈ members.map Prod.fst := by
  rcases List.mem_map.mp mem with ⟨member, inserted, rfl⟩
  exact (mem_insertMember inserted).imp (congrArg Prod.fst) List.mem_map_of_mem

/-- With distinct keys, every member is in the map with its value rebuilt. -/
theorem mem_insertMembers_iff {members : List (String × Value)} :
    ∀ {map : List (String × Value)}, (members.map Prod.fst).Nodup →
      (∀ key ∈ members.map Prod.fst, key ∉ map.map Prod.fst) → ∀ {member : String × Value},
        member ∈ insertMembers map members ↔
          member ∈ map ∨ member ∈ members.map fun given => (given.1, given.2.canonicalize) := by
  induction members with
  | nil =>
      intro map _ _ member
      rw [insertMembers, List.map_nil, or_iff_left List.not_mem_nil]
  | cons first rest ih =>
      rcases first with ⟨key, value⟩
      intro map nodup fresh member
      rw [List.map_cons, List.nodup_cons] at nodup
      rw [List.map_cons, List.forall_mem_cons] at fresh
      have freshRest : ∀ other ∈ rest.map Prod.fst,
          other ∉ (insertMember key value.canonicalize map).map Prod.fst := by
        intro other mem inserted
        rcases mem_keys_insertMember inserted with rfl | old
        · exact nodup.1 mem
        · exact fresh.2 other mem old
      rw [insertMembers, ih nodup.2 freshRest, mem_insertMember_iff fresh.1, List.map_cons,
        List.mem_cons, or_assoc, or_left_comm]

theorem rereadMembers_insertMember (again : U64 → U64) (key : String) (value : Value)
    (members : List (String × Value)) :
    rereadMembers again (insertMember key value members) =
      insertMember key (value.reread again) (rereadMembers again members) := by
  induction members with
  | nil => rfl
  | cons first rest ih =>
      rcases first with ⟨name, old⟩
      rw [insertMember, rereadMembers, insertMember]
      split
      · rw [rereadMembers, rereadMembers]
      · split
        · rw [rereadMembers]
        · rw [rereadMembers, ih]

mutual
/-- Doubles may be read before or after the members are sorted. -/
theorem canonicalize_reread (again : U64 → U64) :
    ∀ value : Value, (value.reread again).canonicalize = value.canonicalize.reread again
  | null => rfl
  | bool _ => rfl
  | number _ => rfl
  | string _ => rfl
  | array elements => congrArg array (canonicalizeElements_reread again elements)
  | object members => congrArg object (insertMembers_reread again members [])

theorem canonicalizeElements_reread (again : U64 → U64) :
    ∀ elements : List Value, canonicalizeElements (rereadElements again elements) =
      rereadElements again (canonicalizeElements elements)
  | [] => rfl
  | element :: elements => by
      rw [rereadElements, canonicalizeElements, canonicalize_reread again element,
        canonicalizeElements_reread again elements, canonicalizeElements, rereadElements]

theorem insertMembers_reread (again : U64 → U64) :
    ∀ members map : List (String × Value),
      insertMembers (rereadMembers again map) (rereadMembers again members) =
        rereadMembers again (insertMembers map members)
  | [], _ => rfl
  | (key, value) :: members, map => by
      rw [rereadMembers, insertMembers, canonicalize_reread again value,
        ← rereadMembers_insertMember, insertMembers_reread again members, insertMembers]
end

theorem lookup_rereadMembers (again : U64 → U64) (key : String)
    (members : List (String × Value)) :
    (rereadMembers again members).lookup key = (members.lookup key).map (reread again) := by
  induction members with
  | nil => rfl
  | cons first rest ih =>
      rcases first with ⟨name, value⟩
      rw [rereadMembers, List.lookup_cons, List.lookup_cons]
      cases key == name with
      | true => rfl
      | false => exact ih

theorem get_reread (again : U64 → U64) (value : Value) (key : String) :
    (value.reread again).get key = (value.get key).map (reread again) := by
  cases value with
  | object members => exact lookup_rereadMembers again key members
  | _ => rfl

/-- A text is read as it was written. -/
theorem asStr_reread (again : U64 → U64) (value : Value) :
    (value.reread again).asStr = value.asStr := by
  cases value <;> rfl

theorem insertMember_of_forall_lt {key : String} {value : Value} {members : List (String × Value)}
    (first : ∀ member ∈ members, key < member.1) :
    insertMember key value members = (key, value) :: members := by
  cases members with
  | nil => rfl
  | cons member rest => rw [insertMember, if_pos (first member List.mem_cons_self)]

/-- Inserting under another key commutes with dropping a key. -/
theorem filter_insertMember {key tag : String} (other : key ≠ tag) (value : Value)
    {members : List (String × Value)} (sorted : (members.map Prod.fst).Pairwise (· < ·)) :
    (insertMember key value members).filter (fun member => member.1 ≠ tag) =
      insertMember key value (members.filter fun member => member.1 ≠ tag) := by
  have kept : decide ((key, value).1 ≠ tag) = true := decide_eq_true other
  induction members with
  | nil => rw [insertMember, List.filter_cons, if_pos kept, List.filter_nil, insertMember]
  | cons first rest ih =>
      rcases first with ⟨name, old⟩
      rw [List.map_cons, List.pairwise_cons] at sorted
      have rest_eq := ih sorted.2
      rw [insertMember]
      split
      · next before =>
          have first : ∀ member ∈ ((name, old) :: rest).filter fun member => member.1 ≠ tag,
              key < member.1 := by
            intro member mem
            rcases List.mem_cons.mp (List.mem_filter.mp mem).1 with rfl | later
            · exact before
            · exact before.trans (sorted.1 member.1 (List.mem_map_of_mem later))
          rw [List.filter_cons, if_pos kept, insertMember_of_forall_lt first]
      · next notBefore =>
          split
          · next same =>
              subst same
              have keptOld : decide ((key, old).1 ≠ tag) = true := kept
              rw [List.filter_cons, if_pos kept, List.filter_cons, if_pos keptOld, insertMember,
                if_neg notBefore, if_pos rfl]
          · next differs =>
              by_cases dropped : name = tag
              · have gone : ¬ decide ((name, old).1 ≠ tag) = true := by
                  rw [decide_eq_true_iff, not_not]
                  exact dropped
                rw [List.filter_cons, if_neg gone, List.filter_cons, if_neg gone, rest_eq]
              · have stays : decide ((name, old).1 ≠ tag) = true := decide_eq_true dropped
                rw [List.filter_cons, if_pos stays, List.filter_cons, if_pos stays, rest_eq,
                  insertMember, if_neg notBefore, if_neg differs]

theorem filter_insertMembers {tag : String} {members : List (String × Value)}
    (absent : tag ∉ members.map Prod.fst) :
    ∀ {map : List (String × Value)}, (map.map Prod.fst).Pairwise (· < ·) →
      (insertMembers map members).filter (fun member => member.1 ≠ tag) =
        insertMembers (map.filter fun member => member.1 ≠ tag) members := by
  induction members with
  | nil =>
      intro map _
      rfl
  | cons first rest ih =>
      rcases first with ⟨key, value⟩
      rw [List.map_cons, List.mem_cons, not_or] at absent
      intro map sorted
      rw [insertMembers, insertMembers, ih absent.2 (sorted_insertMember sorted),
        filter_insertMember (Ne.symm absent.1) _ sorted]

end Value

namespace Serde

open Value

variable {α : Type}

/-! ## Fields and tags of canonical objects -/

/-- The members with their values rebuilt, in the order in which they were written. -/
def rebuiltMembers (members : List (String × Value)) : List (String × Value) :=
  members.map fun member => (member.1, member.2.canonicalize)

theorem keys_rebuiltMembers (members : List (String × Value)) :
    (rebuiltMembers members).map Prod.fst = members.map Prod.fst := by
  rw [rebuiltMembers, List.map_map]
  rfl

theorem fieldOf_eq_some_some_iff {name : String} {members : List (String × Value)} {value : Value}
    (nodup : (members.map Prod.fst).Nodup) :
    fieldOf name members = some (some value) ↔ (name, value) ∈ members := by
  constructor
  · exact mem_of_fieldOf
  · intro mem
    induction members with
    | nil => cases mem
    | cons first rest ih =>
        rcases first with ⟨key, other⟩
        rw [List.map_cons, List.nodup_cons] at nodup
        rcases List.mem_cons.mp mem with same | later
        · cases same
          exact fieldOf_cons_self nodup.1 value
        · have differs : key ≠ name := by
            rintro rfl
            exact nodup.1 (List.mem_map.mpr ⟨_, later, rfl⟩)
          rw [fieldOf_cons_of_ne differs]
          exact ih nodup.2 later

/-- Fields are found by their names in whatever order they stand. -/
theorem fieldOf_congr {name : String} {members others : List (String × Value)}
    (nodup : (members.map Prod.fst).Nodup) (othersNodup : (others.map Prod.fst).Nodup)
    (same : ∀ member, member ∈ members ↔ member ∈ others) :
    fieldOf name members = fieldOf name others := by
  by_cases mem : name ∈ members.map Prod.fst
  · rcases List.mem_map.mp mem with ⟨⟨key, value⟩, found, rfl⟩
    rw [(fieldOf_eq_some_some_iff nodup).mpr found,
      (fieldOf_eq_some_some_iff othersNodup).mpr ((same _).mp found)]
  · have otherAbsent : name ∉ others.map Prod.fst := by
      intro otherMem
      rcases List.mem_map.mp otherMem with ⟨member, found, rfl⟩
      exact mem (List.mem_map_of_mem ((same member).mpr found))
    rw [fieldOf_of_not_mem mem, fieldOf_of_not_mem otherAbsent]

/-- A field of a canonical object is the field that was written, rebuilt. -/
theorem fieldOf_insertMembers {members : List (String × Value)}
    (nodup : (members.map Prod.fst).Nodup) (name : String) :
    fieldOf name (insertMembers [] members) = fieldOf name (rebuiltMembers members) := by
  apply fieldOf_congr
  · have sorted := (canonicalMembers_insertMembers members [] List.Pairwise.nil trivial).1
    exact sorted.imp fun before => ne_of_lt before
  · rw [keys_rebuiltMembers]
    exact nodup
  · intro member
    rw [mem_insertMembers_iff nodup (fun _ _ => List.not_mem_nil),
      or_iff_right List.not_mem_nil]
    rfl

theorem nodup_structMembers {names : List String} (nodup : names.Nodup)
    (values : List (Option Value)) : ((structMembers names values).map Prod.fst).Nodup := by
  induction names generalizing values with
  | nil => exact List.nodup_nil
  | cons name names ih =>
      rw [List.nodup_cons] at nodup
      cases values with
      | nil => exact List.nodup_nil
      | cons value values =>
          cases value with
          | none => exact ih nodup.2 values
          | some value =>
              rw [structMembers, List.map_cons, List.nodup_cons]
              exact ⟨fun mem => nodup.1 (mem_of_mem_structMembers mem), ih nodup.2 values⟩

theorem rebuiltMembers_structMembers (names : List String) (values : List (Option Value)) :
    rebuiltMembers (structMembers names values) =
      structMembers names (values.map (Option.map canonicalize)) := by
  induction names generalizing values with
  | nil => rfl
  | cons name names ih =>
      cases values with
      | nil => rfl
      | cons value values =>
          cases value with
          | none => exact ih values
          | some value =>
              rw [structMembers, rebuiltMembers, List.map_cons, ← rebuiltMembers, ih,
                List.map_cons, Option.map_some, structMembers]

/-- A struct is read from the canonical tree as it was written. -/
theorem structFields_canonicalize {names : List String} {values : List (Option Value)}
    (nodup : names.Nodup) (aligned : names.length = values.length) :
    structFields names (structTree names values).canonicalize =
      some (values.map (Option.map canonicalize)) := by
  rw [structTree, canonicalize, structFields]
  apply mapM_fieldOf nodup
  · rw [List.length_map]
    exact aligned
  · intro name _
    rw [fieldOf_insertMembers (nodup_structMembers nodup values), rebuiltMembers_structMembers]

/-- The tag of a variant is found in the canonical tree. -/
theorem fieldOf_tag_canonicalize {tag : String} {members : List (String × Value)}
    (nodup : (members.map Prod.fst).Nodup) (absent : tag ∉ members.map Prod.fst)
    (variant : String) :
    fieldOf tag (insertMembers [] ((tag, .string variant) :: members)) =
      some (some (.string variant)) := by
  have distinct : (((tag, Value.string variant) :: members).map Prod.fst).Nodup :=
    List.nodup_cons.mpr ⟨absent, nodup⟩
  rw [fieldOf_insertMembers distinct, rebuiltMembers, List.map_cons, fieldOf_cons_self]
  · rfl
  · change tag ∉ (rebuiltMembers members).map Prod.fst
    rw [keys_rebuiltMembers]
    exact absent

/-- The tag of a variant is found in the canonical tree, and the rest is its
content. -/
theorem taggedContent_canonicalize {tag variant : String} {members : List (String × Value)}
    (nodup : (members.map Prod.fst).Nodup) (absent : tag ∉ members.map Prod.fst) :
    taggedContent tag (variantTree tag variant members).canonicalize =
      some (variant, (object members).canonicalize) := by
  have dropped : ¬ decide (tag ≠ tag) = true := by rw [decide_eq_true_iff, not_not]
  rw [variantTree, canonicalize, taggedContent, fieldOf_tag_canonicalize nodup absent]
  change some (variant, object (List.filter _ _)) = _
  rw [insertMembers, insertMember, filter_insertMembers absent (List.pairwise_singleton _ _),
    List.filter_cons, if_neg dropped, List.filter_nil, canonicalize]

/-- A struct that is tagged from outside is read past the tag. -/
theorem structFields_canonicalize_variantTree {tag variant : String} {names : List String}
    {values : List (Option Value)} (absent : tag ∉ names) (nodup : names.Nodup)
    (aligned : names.length = values.length) :
    structFields names (variantTree tag variant (structMembers names values)).canonicalize =
      some (values.map (Option.map canonicalize)) := by
  have noTag : tag ∉ (structMembers names values).map Prod.fst :=
    fun mem => absent (mem_of_mem_structMembers mem)
  have distinct :
      (((tag, Value.string variant) :: structMembers names values).map Prod.fst).Nodup :=
    List.nodup_cons.mpr ⟨noTag, nodup_structMembers nodup values⟩
  rw [variantTree, canonicalize, structFields]
  apply mapM_fieldOf nodup
  · rw [List.length_map]
    exact aligned
  · intro name mem
    have differs : tag ≠ name := by
      rintro rfl
      exact absent mem
    rw [fieldOf_insertMembers distinct, rebuiltMembers, List.map_cons, fieldOf_cons_of_ne differs,
      ← rebuiltMembers, rebuiltMembers_structMembers]

/-! ## Codecs -/

/-- The values are also read from the canonical tree. -/
structure Rebuilt (write : α → Value) (read : Value → Option α) : Prop where
  read_canonicalize : ∀ (again : U64 → U64) (value : α),
    read ((write value).reread again).canonicalize = some value
  ne_null : ∀ value, write value ≠ .null

namespace Rebuilt

variable {write : α → Value} {read : Value → Option α}

theorem string : Rebuilt Value.string readString where
  read_canonicalize _ _ := rfl
  ne_null _ := Value.noConfusion

theorem usize : Rebuilt (fun value => Value.number (.posInt value)) readUsize where
  read_canonicalize _ _ := rfl
  ne_null _ := Value.noConfusion

theorem readElements_canonicalize (rebuilt : Rebuilt write read) (again : U64 → U64)
    (values : List α) :
    readElements read (canonicalizeElements (rereadElements again (values.map write))) =
      some values := by
  induction values with
  | nil => rfl
  | cons value values ih =>
      rw [List.map_cons, rereadElements, canonicalizeElements, readElements,
        rebuilt.read_canonicalize, ih]
      rfl

theorem vec (rebuilt : Rebuilt write read) : Rebuilt (writeVec write) (readVec read) where
  read_canonicalize again values := rebuilt.readElements_canonicalize again values
  ne_null _ := Value.noConfusion

theorem canonicalize_ne_null {value : Value} (present : value ≠ .null) :
    value.canonicalize ≠ .null := by
  cases value with
  | null => exact absurd rfl present
  | _ => exact Value.noConfusion

theorem reread_ne_null {value : Value} (present : value ≠ .null) (again : U64 → U64) :
    value.reread again ≠ .null := by
  cases value with
  | null => exact absurd rfl present
  | _ => exact Value.noConfusion

theorem readOption_writeOption (rebuilt : Rebuilt write read) (again : U64 → U64)
    (value : Option α) :
    readOption read ((writeOption write value).reread again).canonicalize = some value := by
  cases value with
  | none => rfl
  | some value =>
      have present := canonicalize_ne_null (reread_ne_null (rebuilt.ne_null value) again)
      rw [writeOption, readOption, rebuilt.read_canonicalize, Option.map_some]
      exact present

theorem required_some (rebuilt : Rebuilt write read) (again : U64 → U64) (value : α) :
    required read (some ((write value).reread again).canonicalize) = some value :=
  rebuilt.read_canonicalize again value

theorem defaulted_some (rebuilt : Rebuilt write read) (again : U64 → U64) (default value : α) :
    defaulted default read (some ((write value).reread again).canonicalize) = some value :=
  rebuilt.read_canonicalize again value

theorem defaulted_skipped (rebuilt : Rebuilt write read) (again : U64 → U64) (value : Option α) :
    defaulted none (readOption read)
        (((value.map write).map (reread again)).map canonicalize) = some value := by
  cases value with
  | none => rfl
  | some value => exact rebuilt.readOption_writeOption again (some value)

end Rebuilt

end Serde

end Skybase.Json
