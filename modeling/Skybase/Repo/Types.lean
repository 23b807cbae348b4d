import Skybase.Error
import Skybase.Text

/-!
# Record keys

The validation of the record keys of a repository.
-/

namespace Skybase.Repo

/-- A byte that a record key may contain. -/
def isRkeyByte (b : UInt8) : Bool :=
  (0x61 ≤ b && b ≤ 0x7A) || (0x41 ≤ b && b ≤ 0x5A) || (0x30 ≤ b && b ≤ 0x39) ||
    b == 0x2E || b == 0x5F || b == 0x7E || b == 0x2D

/-- `b as char`. -/
def byteAsChar (b : UInt8) : Char := Char.ofNat b.toNat

/-- `validate_rkey`. -/
def validateRkey (rkey : String) : Except SkybaseError Unit :=
  if rkey = "" ∨ Text.len rkey > 512 ∨ rkey = "." ∨ rkey = ".." then
    .error (.repo s!"Invalid rkey '{rkey}': length must be 1..=512 and not '.' or '..'")
  else
    match (Text.bytes rkey).find? fun b => !isRkeyByte b with
    | some b => .error (.repo s!"Invalid rkey '{rkey}': illegal character '{byteAsChar b}'")
    | none => .ok ()

end Skybase.Repo
