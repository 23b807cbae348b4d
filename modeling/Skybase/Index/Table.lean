import Mathlib.Data.Finmap

/-!
# The SQLite tables

`records` is a finite map from its primary key `uri` to the other columns, and
`_skybase_meta` one from keys to values.  Each SQL statement of the store is a
function on the table that also returns what the source reads off the
statement: the number of rows affected, or the columns of `RETURNING`.
-/

namespace Skybase.Index

/-- The columns of `records` other than its primary key. -/
structure Row where
  cid : String
  did : String
  collection : String
  rkey : String
  recordJson : String
  indexedAt : Int
  isDeleted : Bool
deriving DecidableEq

/-- The table `records`. -/
abbrev Records := Finmap fun _ : String => Row

/-- The table `_skybase_meta`. -/
abbrev MetaTable := Finmap fun _ : String => String

/-- The columns `did, collection, rkey` of a `RETURNING` clause. -/
abbrev DeletedMeta := String × String × String

/-- The `RETURNING did, collection, rkey` of a row. -/
def Row.deletedMeta (row : Row) : DeletedMeta := (row.did, row.collection, row.rkey)

namespace Records

/-- `INSERT INTO records … VALUES …, 0) ON CONFLICT(uri) DO UPDATE SET …
WHERE excluded.indexed_at >= records.indexed_at`, with the number of rows
affected. -/
def upsert (records : Records) (uri : String) (excluded : Row) : Nat × Records :=
  match records.lookup uri with
  | none => (1, records.insert uri excluded)
  | some stored =>
      if excluded.indexedAt ≥ stored.indexedAt then (1, records.insert uri excluded)
      else (0, records)

/-- `UPDATE records SET is_deleted = 1, indexed_at = ?2 WHERE uri = ?1 AND
?2 >= indexed_at AND is_deleted = 0 RETURNING did, collection, rkey`. -/
def softDelete (records : Records) (uri : String) (indexedAt : Int) :
    Option DeletedMeta × Records :=
  match records.lookup uri with
  | none => (none, records)
  | some stored =>
      if indexedAt ≥ stored.indexedAt ∧ stored.isDeleted = false then
        (some stored.deletedMeta,
          records.insert uri { stored with isDeleted := true, indexedAt := indexedAt })
      else (none, records)

/-- `UPDATE records SET is_deleted = 1 WHERE uri = ?1 AND is_deleted = 0
RETURNING did, collection, rkey`. -/
def softDeleteUnversioned (records : Records) (uri : String) : Option DeletedMeta × Records :=
  match records.lookup uri with
  | none => (none, records)
  | some stored =>
      if stored.isDeleted = false then
        (some stored.deletedMeta, records.insert uri { stored with isDeleted := true })
      else (none, records)

/-- `DELETE FROM records WHERE uri = ?1 RETURNING did, collection, rkey`. -/
def hardDelete (records : Records) (uri : String) : Option DeletedMeta × Records :=
  match records.lookup uri with
  | none => (none, records)
  | some stored => (some stored.deletedMeta, records.erase uri)

/-- `SELECT … FROM records WHERE uri = ?1 AND is_deleted = 0`. -/
def selectActive (records : Records) (uri : String) : Option Row :=
  (records.lookup uri).filter fun row => !row.isDeleted

end Records

end Skybase.Index
