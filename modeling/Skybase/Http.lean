import Skybase.Text

/-!
# HTTP responses

What the clients look at in the status and in the headers of a response.
-/

namespace Skybase

/-- `reqwest::StatusCode`: the number, and the text that it is displayed with. -/
structure StatusCode where
  code : Nat
  display : String

namespace StatusCode

/-- `StatusCode::is_success`. -/
def isSuccess (status : StatusCode) : Bool := 200 ≤ status.code && status.code < 300

/-- Whether the status is `StatusCode::UNAUTHORIZED`. -/
def isUnauthorized (status : StatusCode) : Bool := status.code == 401

/-- Whether the status is `StatusCode::BAD_REQUEST`. -/
def isBadRequest (status : StatusCode) : Bool := status.code == 400

/-- A success is none of the two statuses. -/
theorem not_isSuccess {status : StatusCode}
    (refused : status.isUnauthorized = true ∨ status.isBadRequest = true) :
    ¬ status.isSuccess = true := by
  rw [isSuccess, Bool.and_eq_true, decide_eq_true_eq, decide_eq_true_eq]
  rw [isUnauthorized, isBadRequest, beq_iff_eq, beq_iff_eq] at refused
  omega

end StatusCode

/-- The bytes of a header value. -/
abbrev HeaderValue := List UInt8

/-- `HeaderValue::to_str`: the text of a value that consists of visible ASCII
characters and tabs. -/
def HeaderValue.toStr (value : HeaderValue) : Option String :=
  if value.all fun byte => (32 ≤ byte && byte < 127) || byte == 9 then
    some (String.ofList (value.map fun byte => Char.ofNat byte.toNat))
  else none

/-- `HeaderMap`, as the list of its entries; names do not depend on case. -/
abbrev HeaderMap := List (String × HeaderValue)

namespace HeaderMap

/-- `HeaderMap::get`. -/
def get (headers : HeaderMap) (name : String) : Option HeaderValue :=
  (headers.find? fun entry => Text.eqIgnoreAsciiCase entry.1 name).map Prod.snd

/-- `HeaderMap::get_all`. -/
def getAll (headers : HeaderMap) (name : String) : List HeaderValue :=
  (headers.filter fun entry => Text.eqIgnoreAsciiCase entry.1 name).map Prod.snd

end HeaderMap

end Skybase
