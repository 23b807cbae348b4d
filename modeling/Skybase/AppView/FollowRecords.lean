import Mathlib.Data.List.DropRight
import Skybase.Paging.Cursors

/-!
# The follow records of an actor

`AppViewClient::paginate` with the extractor of `fetch_follow_records`.  The loop
takes a page whose records are all dropped for an empty one, so that the records
on the pages after it are missing.
-/

namespace Skybase.AppView

open Skybase.Paging (followed followed_ok flatMap_followed_eq_iff)

universe u v w

/-! ## The paginator -/

/-- `DEFAULT_MAX_PAGES`. -/
def defaultMaxPages : Nat := 100

/-- The parameters of a request. -/
abbrev Query := List (String × String)

/-- `AppViewClient::get`, with the number of the call. -/
abbrev Get (ε : Type u) (τ : Type v) := Nat → String → Query → Except ε τ

section Paginate

variable {ε : Type u} {τ : Type v} {ι : Type w} (get : Get ε τ) (endpoint : String)
  (baseQuery : Query) (extract : τ → List ι × Option String)

/-- The parameters of the request for a page. -/
def pageQuery (pageLimit : String) (cursor : Option String) : Query :=
  baseQuery ++ [("limit", pageLimit)] ++ cursor.toList.map fun c => ("cursor", c)

/-- The loop of `paginate`, from the call with the given number on. -/
def paginateLoop (pageLimit : String) : Nat → Nat → List ι → Option String → List ι
  | 0, _, items, _ => items
  | remaining + 1, call, items, cursor =>
      match get call endpoint (pageQuery baseQuery pageLimit cursor) with
      | .error _ => items
      | .ok body =>
          let (page, nextCursor) := extract body
          let count := page.length
          let items := items ++ page
          if count == 0 || nextCursor.isNone then items
          else paginateLoop pageLimit remaining (call + 1) items nextCursor

/-- `u8::clamp` to a page limit, as a text. -/
def clampLimit (pageLimit : UInt8) : String := Nat.repr (max 1 (min pageLimit.toNat 100))

/-- `AppViewClient::paginate`. -/
def paginate (pageLimit : UInt8) : List ι :=
  paginateLoop get endpoint baseQuery extract (clampLimit pageLimit) defaultMaxPages 0 [] none

/-! ## The answers that the loop meets -/

/-- The cursor of the page before the call with the given number. -/
def cursorBefore (pageLimit : String) : Nat → Option String
  | 0 => none
  | call + 1 =>
      match get call endpoint (pageQuery baseQuery pageLimit (cursorBefore pageLimit call)) with
      | .error _ => none
      | .ok body => (extract body).2

/-- The answer to the call with the given number, which follows the cursor of the page before. -/
def answerTo (pageLimit : String) (call : Nat) : Except ε τ :=
  get call endpoint
    (pageQuery baseQuery pageLimit (cursorBefore get endpoint baseQuery extract pageLimit call))

/-- The answers to the calls that are allowed. -/
def answers (pageLimit : UInt8) : List (Except ε τ) :=
  (List.range defaultMaxPages).map
    (answerTo get endpoint baseQuery extract (clampLimit pageLimit))

/-- Whether the loop stops at a page. -/
def stopsAt (body : τ) : Bool := (extract body).1.isEmpty || (extract body).2.isNone

/-- The loop collects the items of the pages up to the one that it stops at. -/
theorem paginateLoop_eq (pageLimit : String) (remaining call : Nat) (items : List ι) :
    paginateLoop get endpoint baseQuery extract pageLimit remaining call items
        (cursorBefore get endpoint baseQuery extract pageLimit call) =
      items ++ (followed (stopsAt extract) ((List.range' call remaining).map
        (answerTo get endpoint baseQuery extract pageLimit))).flatMap
          fun body => (extract body).1 := by
  induction remaining generalizing call items with
  | zero => simp [paginateLoop]
  | succ remaining ih =>
      have asked : get call endpoint (pageQuery baseQuery pageLimit
          (cursorBefore get endpoint baseQuery extract pageLimit call)) =
            answerTo get endpoint baseQuery extract pageLimit call := rfl
      rw [List.range'_succ, List.map_cons, paginateLoop, asked]
      cases answered : answerTo get endpoint baseQuery extract pageLimit call with
      | error err => simp
      | ok body =>
          have next : cursorBefore get endpoint baseQuery extract pageLimit (call + 1) =
              (extract body).2 := by
            rw [cursorBefore, asked, answered]
          have stops : ((extract body).1.length == 0 || (extract body).2.isNone) =
              stopsAt extract body := by
            rw [stopsAt]
            cases (extract body).1 <;> rfl
          dsimp only
          rw [stops, followed_ok, List.flatMap_cons, ← List.append_assoc]
          cases stopsAt extract body with
          | true => simp
          | false =>
              rw [if_neg Bool.false_ne_true, if_neg Bool.false_ne_true, ← next, ih]

theorem paginate_eq (pageLimit : UInt8) :
    paginate get endpoint baseQuery extract pageLimit =
      (followed (stopsAt extract) (answers get endpoint baseQuery extract pageLimit)).flatMap
        fun body => (extract body).1 := by
  have loop := paginateLoop_eq get endpoint baseQuery extract (clampLimit pageLimit)
    defaultMaxPages 0 []
  rw [List.nil_append, ← List.range_eq_range'] at loop
  exact loop

end Paginate

/-! ## The follow records -/

/-- `FollowValue`. -/
structure FollowValue where
  subject : Option String

/-- `RecordItem`. -/
structure RecordItem where
  uri : String
  value : FollowValue

/-- `ListRecordsResp`. -/
structure ListRecordsResp where
  records : List RecordItem
  cursor : Option String

/-- `rsplit('/').next()`: what follows the last slash. -/
def lastSegment (uri : String) : String := String.ofList (uri.toList.rtakeWhile (· ≠ '/'))

/-- The record key and the subject of a record, if both are there. -/
def followOf (rec : RecordItem) : Option (String × String) :=
  match rec.value.subject with
  | some subject =>
      let rkey := lastSegment rec.uri
      if !rkey.isEmpty && !subject.isEmpty then some (rkey, subject) else none
  | none => none

/-- The valid entries of a page. -/
def followsOf (body : ListRecordsResp) : List (String × String) := body.records.filterMap followOf

/-- The extractor of `fetch_follow_records`. -/
def extractFollows (body : ListRecordsResp) : List (String × String) × Option String :=
  (followsOf body, body.cursor)

/-- The parameters of `fetch_follow_records`. -/
def followQuery (actor : String) : Query :=
  [("repo", actor), ("collection", "app.bsky.graph.follow")]

variable {ε : Type u}

/-- `AppViewClient::fetch_follow_records`. -/
def fetchFollowRecords (get : Get ε ListRecordsResp) (actor : String) (limit : UInt8) :
    List (String × String) :=
  paginate get "com.atproto.repo.listRecords" (followQuery actor) extractFollows limit

/-- The pages that the server lists: up to the first one without records or without a cursor, to
the first error, or to as many as are allowed. -/
def listedPages (get : Get ε ListRecordsResp) (actor : String) (limit : UInt8) :
    List ListRecordsResp :=
  followed (fun body => body.records.isEmpty || body.cursor.isNone)
    (answers get "com.atproto.repo.listRecords" (followQuery actor) extractFollows limit)

/-- The records of all pages are fetched exactly if no page without a valid entry is listed before
one with a valid entry. -/
theorem fetchFollowRecords_eq_iff (get : Get ε ListRecordsResp) (actor : String) (limit : UInt8) :
    fetchFollowRecords get actor limit = (listedPages get actor limit).flatMap followsOf ↔
      (listedPages get actor limit).Pairwise fun first later =>
        followsOf first = [] → followsOf later = [] := by
  rw [fetchFollowRecords, paginate_eq]
  refine flatMap_followed_eq_iff (fun body => ?_) _
  have dropped : body.records.isEmpty = true → (followsOf body).isEmpty = true := by
    rw [List.isEmpty_iff, List.isEmpty_iff, followsOf]
    rintro none
    rw [none, List.filterMap_nil]
  rw [stopsAt, extractFollows]
  cases records : body.records.isEmpty with
  | true => simp [dropped records]
  | false => simp

/-- A page whose only record has no subject ends the listing. -/
theorem fetchFollowRecords_filtered_page : ∃ pages : Nat → Except Unit ListRecordsResp,
    fetchFollowRecords (fun call _ _ => pages call) "did:plc:alice" 100 ≠
      (listedPages (fun call _ _ => pages call) "did:plc:alice" 100).flatMap followsOf := by
  refine ⟨fun call =>
    if call = 0 then
      .ok ⟨[⟨"at://did:plc:alice/app.bsky.graph.follow/1", ⟨some ""⟩⟩], some "next"⟩
    else .ok ⟨[⟨"at://did:plc:alice/app.bsky.graph.follow/2", ⟨some "did:plc:bob"⟩⟩], none⟩, ?_⟩
  decide +kernel

end Skybase.AppView
