import Skybase.Integer

/-!
# JSON values and their text

The value type follows `serde_json::Value`: numbers keep the three internal
representations of that library, and objects list their members in key order,
as its default map does.  The text codec is not part of the repository, so the
development takes it as a parameter; of its behaviour it relies on nothing but
the fact that serializing a value, whose keys are strings, does not fail.
-/

namespace Skybase.Json

/-- `serde_json::Number`: a `u64`, a negative `i64` or a finite `f64`. -/
inductive Number where
  | posInt (value : U64)
  /-- The negative integer `-(magnitude + 1)`. -/
  | negInt (magnitude : Fin (2 ^ 63))
  /-- A finite double, by its bits. -/
  | float (bits : U64)
deriving DecidableEq

/-- `serde_json::Value`. -/
inductive Value where
  | null
  | bool (value : Bool)
  | number (value : Number)
  | string (value : String)
  | array (elements : List Value)
  | object (members : List (String × Value))

namespace Value

/-- `Value::is_null`. -/
def isNull : Value → Bool
  | null => true
  | _ => false

/-- `Value::get` on a key. -/
def get (value : Value) (key : String) : Option Value :=
  match value with
  | object members => members.lookup key
  | _ => none

/-- `Value::as_str`. -/
def asStr : Value → Option String
  | string text => some text
  | _ => none

end Value

/-- The text codec of `serde_json`. -/
structure SerdeJson where
  /-- `serde_json::to_string` on a value. -/
  toString : Value → Except String String
  /-- `serde_json::from_str` into a value. -/
  fromStr : String → Except String Value
  /-- Values have string keys only, so serialization succeeds. -/
  toString_ok : ∀ value, ∃ text, toString value = .ok text

namespace SerdeJson

/-- The text of a value. -/
def text (serde : SerdeJson) (value : Value) : String :=
  match serde.toString value with
  | .ok text => text
  | .error _ => ""

theorem toString_eq_text (serde : SerdeJson) (value : Value) :
    serde.toString value = .ok (serde.text value) := by
  rcases serde.toString_ok value with ⟨text, serialized⟩
  rw [SerdeJson.text, serialized]

/-- The parser accepts the text of the value and returns the value.  Values
beyond the recursion limit of the parser do not read back. -/
def ReadsBack (serde : SerdeJson) (value : Value) : Prop :=
  serde.fromStr (serde.text value) = .ok value

/-- The codec on `null` and the booleans; the concrete runs of the development
carry no other payloads. -/
def scalars : SerdeJson where
  toString
    | .bool true => .ok "true"
    | .bool false => .ok "false"
    | _ => .ok "null"
  fromStr
    | "true" => .ok (.bool true)
    | "false" => .ok (.bool false)
    | "null" => .ok .null
    | _ => .error "expected value"
  toString_ok value := by
    split <;> exact ⟨_, rfl⟩

end SerdeJson

end Skybase.Json
