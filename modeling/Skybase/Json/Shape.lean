import Mathlib.Data.String.Basic
import Skybase.Json.Value

/-!
# The shape of JSON trees

A tree of the type `Value` is the syntax of a JSON text: its objects list their
members as the text does, in any order and with repetitions.  The values of
`serde_json` are the canonical trees, whose members stand in the order of their
keys, each key once.
-/

namespace Skybase.Json

/-- A number that is not a double. -/
def Number.IsInteger : Number → Prop
  | .float _ => False
  | _ => True

namespace Value

/-! ## Depth -/

mutual
/-- How deep arrays and objects are nested. -/
def depth : Value → Nat
  | array elements => depthOfElements elements + 1
  | object members => depthOfMembers members + 1
  | null => 0
  | bool _ => 0
  | number _ => 0
  | string _ => 0

def depthOfElements : List Value → Nat
  | [] => 0
  | element :: elements => max element.depth (depthOfElements elements)

def depthOfMembers : List (String × Value) → Nat
  | [] => 0
  | (_, value) :: members => max value.depth (depthOfMembers members)
end

theorem depthOfElements_le_iff {elements : List Value} {bound : Nat} :
    depthOfElements elements ≤ bound ↔ ∀ element ∈ elements, element.depth ≤ bound := by
  induction elements with
  | nil => simp [depthOfElements]
  | cons element elements ih =>
      rw [depthOfElements, max_le_iff, List.forall_mem_cons, ih]

theorem depthOfMembers_le_iff {members : List (String × Value)} {bound : Nat} :
    depthOfMembers members ≤ bound ↔ ∀ member ∈ members, member.2.depth ≤ bound := by
  induction members with
  | nil => simp [depthOfMembers]
  | cons member members ih =>
      rw [depthOfMembers, max_le_iff, List.forall_mem_cons, ih]

/-! ## Numbers -/

mutual
/-- All numbers of the tree have a property. -/
def AllNumbers (property : Number → Prop) : Value → Prop
  | number value => property value
  | array elements => AllNumbersOfElements property elements
  | object members => AllNumbersOfMembers property members
  | _ => True

def AllNumbersOfElements (property : Number → Prop) : List Value → Prop
  | [] => True
  | element :: elements =>
      element.AllNumbers property ∧ AllNumbersOfElements property elements

def AllNumbersOfMembers (property : Number → Prop) : List (String × Value) → Prop
  | [] => True
  | (_, value) :: members =>
      value.AllNumbers property ∧ AllNumbersOfMembers property members
end

/-- No number of the tree is a double. -/
def FloatFree (value : Value) : Prop := value.AllNumbers Number.IsInteger

/-! ## Canonical trees -/

mutual
/-- The members of every object stand in the order of their keys, each key
once. -/
def Canonical : Value → Prop
  | array elements => CanonicalElements elements
  | object members => (members.map Prod.fst).Pairwise (· < ·) ∧ CanonicalMembers members
  | _ => True

def CanonicalElements : List Value → Prop
  | [] => True
  | element :: elements => element.Canonical ∧ CanonicalElements elements

def CanonicalMembers : List (String × Value) → Prop
  | [] => True
  | (_, value) :: members => value.Canonical ∧ CanonicalMembers members
end

/-- `Map::insert` on the members of an object. -/
def insertMember (key : String) (value : Value) : List (String × Value) → List (String × Value)
  | [] => [(key, value)]
  | (other, old) :: members =>
      if key < other then (key, value) :: (other, old) :: members
      else if key = other then (key, value) :: members
      else (other, old) :: insertMember key value members

mutual
/-- The value that `serde_json` builds from a tree: the members of an object
are inserted into a map one by one. -/
def canonicalize : Value → Value
  | array elements => array (canonicalizeElements elements)
  | object members => object (insertMembers [] members)
  | value => value

def canonicalizeElements : List Value → List Value
  | [] => []
  | element :: elements => element.canonicalize :: canonicalizeElements elements

def insertMembers (map : List (String × Value)) :
    List (String × Value) → List (String × Value)
  | [] => map
  | (key, value) :: members => insertMembers (insertMember key value.canonicalize map) members
end

/-- Inserting behind all keys appends. -/
theorem insertMember_of_lt {key : String} {value : Value} {members : List (String × Value)}
    (behind : ∀ member ∈ members, member.1 < key) :
    insertMember key value members = members ++ [(key, value)] := by
  induction members with
  | nil => rfl
  | cons member members ih =>
      rw [List.forall_mem_cons] at behind
      rw [insertMember, if_neg (lt_asymm behind.1), if_neg (ne_of_gt behind.1), ih behind.2,
        List.cons_append]

mutual
/-- Canonical trees are kept. -/
theorem canonicalize_of_canonical :
    ∀ {value : Value}, value.Canonical → value.canonicalize = value
  | null, _ => rfl
  | bool _, _ => rfl
  | number _, _ => rfl
  | string _, _ => rfl
  | array _, canonical => by
      rw [canonicalize, canonicalizeElements_of_canonical canonical]
  | object members, canonical => by
      rw [canonicalize, insertMembers_of_canonical canonical.2 [] (by simpa using canonical.1),
        List.nil_append]

theorem canonicalizeElements_of_canonical :
    ∀ {elements : List Value}, CanonicalElements elements →
      canonicalizeElements elements = elements
  | [], _ => rfl
  | element :: elements, canonical => by
      rw [canonicalizeElements, canonicalize_of_canonical canonical.1,
        canonicalizeElements_of_canonical canonical.2]

theorem insertMembers_of_canonical :
    ∀ {members : List (String × Value)}, CanonicalMembers members →
      ∀ map : List (String × Value), ((map ++ members).map Prod.fst).Pairwise (· < ·) →
        insertMembers map members = map ++ members
  | [], _, map, _ => by rw [insertMembers, List.append_nil]
  | (key, value) :: members, canonical, map, sorted => by
      have behind : ∀ member ∈ map, member.1 < key := by
        rw [List.map_append, List.pairwise_append] at sorted
        exact fun member mem => sorted.2.2 member.1 (List.mem_map_of_mem mem) key List.mem_cons_self
      have appended : map ++ (key, value) :: members = (map ++ [(key, value)]) ++ members := by
        rw [List.append_assoc, List.singleton_append]
      rw [insertMembers, canonicalize_of_canonical canonical.1, insertMember_of_lt behind,
        insertMembers_of_canonical canonical.2 _ (appended ▸ sorted), ← appended]
end

end Value

/-- The recursion limit of `serde_json` on its own values: a value up to 127
levels deep reads back, and exactly so if it has no double; a deeper one is
written and cannot be read. -/
structure SerdeJson.Limited (serde : SerdeJson) : Prop where
  readsBack : ∀ value : Value, value.Canonical → value.FloatFree → value.depth ≤ 127 →
    serde.ReadsBack value
  reads : ∀ value : Value, value.depth ≤ 127 →
    ∃ read, serde.fromStr (serde.text value) = .ok read
  rejects : ∀ value : Value, 127 < value.depth →
    ∃ err, serde.fromStr (serde.text value) = .error err

end Skybase.Json
