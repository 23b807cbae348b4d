import Skybase.Json.Compact

/-!
# The syntax of JSON texts

The text codec of `serde_json` on trees, as the derived implementations drive
it: a text is read into a tree that keeps the members of its objects as they
stand, and a tree is written as it stands.  The numbers need care: a double is
printed exactly, but the reader, in its default configuration, is not accurate
to the last bit for all decimals.
-/

namespace Skybase.Json

/-- The number that a printed number is read as, if printed doubles are read as
`reread` says. -/
def Number.reread (reread : U64 → U64) : Number → Number
  | .float bits => .float (reread bits)
  | .posInt value => .posInt value
  | .negInt magnitude => .negInt magnitude

namespace Value

/-- `Value::is_object`. -/
def isObject : Value → Bool
  | object _ => true
  | _ => false

mutual
/-- The tree with all doubles read again. -/
def reread (again : U64 → U64) : Value → Value
  | number value => number (value.reread again)
  | array elements => array (rereadElements again elements)
  | object members => object (rereadMembers again members)
  | null => null
  | bool b => bool b
  | string text => string text

def rereadElements (again : U64 → U64) : List Value → List Value
  | [] => []
  | element :: elements => element.reread again :: rereadElements again elements

def rereadMembers (again : U64 → U64) : List (String × Value) → List (String × Value)
  | [] => []
  | (key, value) :: members => (key, value.reread again) :: rereadMembers again members
end

variable {again : U64 → U64}

theorem keys_rereadMembers (members : List (String × Value)) :
    (rereadMembers again members).map Prod.fst = members.map Prod.fst := by
  induction members with
  | nil => rfl
  | cons member members ih => rw [rereadMembers, List.map_cons, ih, List.map_cons]

mutual
theorem depth_reread : ∀ value : Value, (value.reread again).depth = value.depth
  | null => rfl
  | bool _ => rfl
  | number _ => rfl
  | string _ => rfl
  | array elements => by rw [reread, depth, depth, depthOfElements_reread elements]
  | object members => by rw [reread, depth, depth, depthOfMembers_reread members]

theorem depthOfElements_reread :
    ∀ elements : List Value,
      depthOfElements (rereadElements again elements) = depthOfElements elements
  | [] => rfl
  | element :: elements => by
      rw [rereadElements, depthOfElements, depthOfElements, depth_reread element,
        depthOfElements_reread elements]

theorem depthOfMembers_reread :
    ∀ members : List (String × Value),
      depthOfMembers (rereadMembers again members) = depthOfMembers members
  | [] => rfl
  | (key, value) :: members => by
      rw [rereadMembers, depthOfMembers, depthOfMembers, depth_reread value,
        depthOfMembers_reread members]
end

mutual
theorem reread_id : ∀ value : Value, value.reread id = value
  | null => rfl
  | bool _ => rfl
  | number (.posInt _) => rfl
  | number (.negInt _) => rfl
  | number (.float _) => rfl
  | string _ => rfl
  | array elements => by rw [reread, rereadElements_id elements]
  | object members => by rw [reread, rereadMembers_id members]

theorem rereadElements_id : ∀ elements : List Value, rereadElements id elements = elements
  | [] => rfl
  | element :: elements => by rw [rereadElements, reread_id element, rereadElements_id elements]

theorem rereadMembers_id :
    ∀ members : List (String × Value), rereadMembers id members = members
  | [] => rfl
  | (key, value) :: members => by rw [rereadMembers, reread_id value, rereadMembers_id members]
end

mutual
/-- A tree is read as it was written exactly if all its numbers are. -/
theorem reread_eq_self_iff :
    ∀ value : Value, value.reread again = value ↔
      value.AllNumbers fun number => number.reread again = number
  | null => by simp only [reread, AllNumbers]
  | bool _ => by simp only [reread, AllNumbers]
  | number value => by simp only [reread, AllNumbers, number.injEq]
  | string _ => by simp only [reread, AllNumbers]
  | array elements => by
      rw [reread, AllNumbers, array.injEq, rereadElements_eq_self_iff elements]
  | object members => by
      rw [reread, AllNumbers, object.injEq, rereadMembers_eq_self_iff members]

theorem rereadElements_eq_self_iff :
    ∀ elements : List Value, rereadElements again elements = elements ↔
      AllNumbersOfElements (fun number => number.reread again = number) elements
  | [] => by simp only [rereadElements, AllNumbersOfElements]
  | element :: elements => by
      rw [rereadElements, AllNumbersOfElements, List.cons.injEq, reread_eq_self_iff element,
        rereadElements_eq_self_iff elements]

theorem rereadMembers_eq_self_iff :
    ∀ members : List (String × Value), rereadMembers again members = members ↔
      AllNumbersOfMembers (fun number => number.reread again = number) members
  | [] => by simp only [rereadMembers, AllNumbersOfMembers]
  | (key, value) :: members => by
      rw [rereadMembers, AllNumbersOfMembers, List.cons.injEq, Prod.mk.injEq, eq_self, true_and,
        reread_eq_self_iff value, rereadMembers_eq_self_iff members]
end

mutual
theorem canonical_reread : ∀ {value : Value}, value.Canonical → (value.reread again).Canonical
  | null, _ => trivial
  | bool _, _ => trivial
  | number _, _ => trivial
  | string _, _ => trivial
  | array _, canonical => canonicalElements_reread canonical
  | object members, canonical => by
      rw [reread, Canonical, keys_rereadMembers]
      exact ⟨canonical.1, canonicalMembers_reread canonical.2⟩

theorem canonicalElements_reread :
    ∀ {elements : List Value}, CanonicalElements elements →
      CanonicalElements (rereadElements again elements)
  | [], _ => trivial
  | _ :: _, canonical => ⟨canonical_reread canonical.1, canonicalElements_reread canonical.2⟩

theorem canonicalMembers_reread :
    ∀ {members : List (String × Value)}, CanonicalMembers members →
      CanonicalMembers (rereadMembers again members)
  | [], _ => trivial
  | _ :: _, canonical => ⟨canonical_reread canonical.1, canonicalMembers_reread canonical.2⟩
end

/-! ## Canonicalizing -/

theorem mem_insertMember {key : String} {value : Value} {members : List (String × Value)}
    {member : String × Value} (mem : member ∈ insertMember key value members) :
    member = (key, value) ∨ member ∈ members := by
  induction members with
  | nil => exact .inl (List.mem_singleton.mp mem)
  | cons first rest ih =>
      rw [insertMember] at mem
      split at mem
      · exact List.mem_cons.mp mem
      · split at mem
        · exact (List.mem_cons.mp mem).imp_right (List.mem_cons_of_mem first)
        · rcases List.mem_cons.mp mem with rfl | later
          · exact .inr List.mem_cons_self
          · exact (ih later).imp_right (List.mem_cons_of_mem first)

theorem sorted_insertMember {key : String} {value : Value} {members : List (String × Value)}
    (sorted : (members.map Prod.fst).Pairwise (· < ·)) :
    ((insertMember key value members).map Prod.fst).Pairwise (· < ·) := by
  induction members with
  | nil => exact List.pairwise_singleton _ _
  | cons first rest ih =>
      rcases first with ⟨other, old⟩
      have sortedRest := sorted
      rw [List.map_cons, List.pairwise_cons] at sortedRest
      rw [insertMember]
      split
      · next before =>
          rw [List.map_cons, List.pairwise_cons]
          refine ⟨?_, sorted⟩
          intro later mem
          rcases List.mem_cons.mp mem with rfl | mem
          · exact before
          · exact before.trans (sortedRest.1 later mem)
      · next notBefore =>
          split
          · next same =>
              subst same
              exact sorted
          · next differs =>
              have after : other < key := lt_of_le_of_ne (not_lt.mp notBefore) (Ne.symm differs)
              rw [List.map_cons, List.pairwise_cons]
              refine ⟨?_, ih sortedRest.2⟩
              intro later mem
              rcases List.mem_map.mp mem with ⟨member, memberMem, rfl⟩
              rcases mem_insertMember memberMem with rfl | memberMem
              · exact after
              · exact sortedRest.1 member.1 (List.mem_map_of_mem memberMem)

theorem canonicalMembers_iff {members : List (String × Value)} :
    CanonicalMembers members ↔ ∀ member ∈ members, member.2.Canonical := by
  induction members with
  | nil => simp [CanonicalMembers]
  | cons member members ih => rw [CanonicalMembers, List.forall_mem_cons, ih]

/-- The keys of a map that members are inserted into. -/
theorem mem_keys_insertMembers {members : List (String × Value)} :
    ∀ {map : List (String × Value)} {key : String},
      key ∈ (insertMembers map members).map Prod.fst →
        key ∈ map.map Prod.fst ∨ key ∈ members.map Prod.fst := by
  induction members with
  | nil =>
      intro map key mem
      exact .inl mem
  | cons member members ih =>
      intro map key mem
      rw [insertMembers] at mem
      rcases ih mem with inserted | later
      · rcases List.mem_map.mp inserted with ⟨found, foundMem, rfl⟩
        rcases mem_insertMember foundMem with rfl | old
        · exact .inr List.mem_cons_self
        · exact .inl (List.mem_map_of_mem old)
      · exact .inr (List.mem_cons_of_mem _ later)

mutual
/-- What `serde_json` builds is canonical. -/
theorem canonical_canonicalize : ∀ value : Value, value.canonicalize.Canonical
  | null => trivial
  | bool _ => trivial
  | number _ => trivial
  | string _ => trivial
  | array elements => canonicalElements_canonicalize elements
  | object members => canonicalMembers_insertMembers members [] List.Pairwise.nil trivial

theorem canonicalElements_canonicalize :
    ∀ elements : List Value, CanonicalElements (canonicalizeElements elements)
  | [] => trivial
  | element :: elements =>
      ⟨canonical_canonicalize element, canonicalElements_canonicalize elements⟩

theorem canonicalMembers_insertMembers :
    ∀ members map : List (String × Value), (map.map Prod.fst).Pairwise (· < ·) →
      CanonicalMembers map →
        ((insertMembers map members).map Prod.fst).Pairwise (· < ·) ∧
          CanonicalMembers (insertMembers map members)
  | [], _, sorted, canonical => ⟨sorted, canonical⟩
  | (key, value) :: members, map, sorted, canonical => by
      have inserted : CanonicalMembers (insertMember key value.canonicalize map) := by
        rw [canonicalMembers_iff] at canonical ⊢
        intro member mem
        rcases mem_insertMember mem with rfl | old
        · exact canonical_canonicalize value
        · exact canonical member old
      exact canonicalMembers_insertMembers members _ (sorted_insertMember sorted) inserted
end

mutual
/-- Canonicalizing does not deepen a tree. -/
theorem depth_canonicalize_le : ∀ value : Value, value.canonicalize.depth ≤ value.depth
  | null => le_rfl
  | bool _ => le_rfl
  | number _ => le_rfl
  | string _ => le_rfl
  | array elements => Nat.succ_le_succ (depthOfElements_canonicalize_le elements)
  | object members =>
      Nat.succ_le_succ ((depthOfMembers_insertMembers_le members []).trans_eq (Nat.zero_max _))

theorem depthOfElements_canonicalize_le :
    ∀ elements : List Value,
      depthOfElements (canonicalizeElements elements) ≤ depthOfElements elements
  | [] => le_rfl
  | element :: elements =>
      max_le_max (depth_canonicalize_le element) (depthOfElements_canonicalize_le elements)

theorem depthOfMembers_insertMembers_le :
    ∀ members map : List (String × Value),
      depthOfMembers (insertMembers map members) ≤ max (depthOfMembers map) (depthOfMembers members)
  | [], map => le_max_left _ _
  | (key, value) :: members, map => by
      have inserted : depthOfMembers (insertMember key value.canonicalize map) ≤
          max (depthOfMembers map) value.depth := by
        rw [depthOfMembers_le_iff]
        intro member mem
        rcases mem_insertMember mem with rfl | old
        · exact (depth_canonicalize_le value).trans (le_max_right _ _)
        · exact (depthOfMembers_le_iff.mp le_rfl member old).trans (le_max_left _ _)
      rw [insertMembers, depthOfMembers, ← max_assoc]
      exact (depthOfMembers_insertMembers_le members _).trans (max_le_max_right _ inserted)
end

end Value

/-! ## Texts -/

/-- The text codec of `serde_json` on trees. -/
structure TreeCodec where
  /-- The tree of a text, or the error of a text that does not parse. -/
  read : String → Except String Value
  /-- The text of a tree. -/
  write : Value → String
  /-- The double that a printed double is read as.  It is the printed one for
  most doubles, and for all of them in the accurate configuration. -/
  reread : U64 → U64

/-- What the development relies on: a written tree within the recursion limit is
read as it was written but for its doubles. -/
structure TreeCodec.Lawful (codec : TreeCodec) : Prop where
  read_write : ∀ tree : Value, tree.depth ≤ 127 →
    codec.read (codec.write tree) = .ok (tree.reread codec.reread)

namespace Compact

/-- Compact texts as a codec on trees. -/
def treeCodec : TreeCodec where
  read := read
  write tree := String.ofList (write tree)
  reread := id

theorem treeCodec_lawful : treeCodec.Lawful where
  read_write tree shallow := by
    change read (String.ofList (write tree)) = .ok (tree.reread id)
    rw [read_write, if_pos shallow, Value.reread_id]

end Compact

end Skybase.Json
