import Mathlib.Order.Fin.Basic
import Mathlib.Data.String.Basic
import Skybase.AppView.FollowRecords
import Skybase.Paging.Keyset

/-!
# Follows and followers

`fetch_follows` and `fetch_followers` page through lists that may change while
they are fetched.  The service pages them by keys: a page starts after the key
that its cursor names.  What is fetched names nobody twice and misses nobody who
is listed all the time, unless a request fails or a hundred pages do not suffice.
-/

namespace Skybase.AppView

open Skybase.Paging (collect keysetPage requests)

universe u v

/-- `FollowProfile` and `FollowerProfile`. -/
structure Profile where
  did : String
deriving DecidableEq

/-- `GetFollowsResponse`. -/
structure GetFollowsResponse where
  follows : List Profile
  cursor : Option String

/-- `GetFollowersResponse`. -/
structure GetFollowersResponse where
  followers : List Profile
  cursor : Option String

/-- The extractor of a list of profiles. -/
def extractDids {τ : Type v} (profiles : τ → List Profile) (cursor : τ → Option String)
    (body : τ) : List String × Option String :=
  ((profiles body).map Profile.did, cursor body)

variable {ε : Type u} {τ : Type v}

/-- `AppViewClient::fetch_follows`. -/
def fetchFollows (get : Get ε GetFollowsResponse) (actor : String) (limit : UInt8) : List String :=
  paginate get "app.bsky.graph.getFollows" [("actor", actor)]
    (extractDids GetFollowsResponse.follows GetFollowsResponse.cursor) limit

/-- `AppViewClient::fetch_followers`. -/
def fetchFollowers (get : Get ε GetFollowersResponse) (actor : String) (limit : UInt8) :
    List String :=
  paginate get "app.bsky.graph.getFollowers" [("actor", actor)]
    (extractDids GetFollowersResponse.followers GetFollowersResponse.cursor) limit

/-! ## A service that pages by keys -/

/-- The size of the pages. -/
def pageSize (limit : UInt8) : Nat := max 1 (min limit.toNat 100)

theorem clampLimit_eq (limit : UInt8) : clampLimit limit = Nat.repr (pageSize limit) := rfl

theorem pageSize_pos (limit : UInt8) : 0 < pageSize limit := le_max_left 1 _

section Service

variable {κ : Type} [LinearOrder κ]

/-- The requests of a fetch from a service that pages by keys. -/
def requestsOf (limit : UInt8) (listing : Nat → Option (List (κ × String))) :
    List (Nat × Option κ) :=
  requests (pageSize limit) listing defaultMaxPages 0 none

/-- To these requests, the service answers with the pages of a list by keys,
which it writes as cursors.  A page is full and has a cursor exactly where more
rows follow.  A call on which there is no list fails. -/
def PagesByKeys (get : Get ε τ) (endpoint : String) (actor : String) (limit : UInt8)
    (extract : τ → List String × Option String) (cursorText : κ → String)
    (listing : Nat → Option (List (κ × String))) (made : List (Nat × Option κ)) : Prop :=
  ∀ request ∈ made,
    match listing request.1 with
    | none => ∃ err, get request.1 endpoint
        (pageQuery [("actor", actor)] (clampLimit limit) (request.2.map cursorText)) = .error err
    | some rows => ∃ body, get request.1 endpoint
        (pageQuery [("actor", actor)] (clampLimit limit) (request.2.map cursorText)) = .ok body ∧
          extract body = ((keysetPage (pageSize limit) rows request.2).1.map Prod.snd,
            (keysetPage (pageSize limit) rows request.2).2.map cursorText)

variable {get : Get ε τ} {endpoint actor : String} {limit : UInt8}
  {extract : τ → List String × Option String} {cursorText : κ → String}
  {listing : Nat → Option (List (κ × String))}

/-- The loop collects the pages of the service. -/
theorem paginateLoop_eq_collect (remaining call : Nat) (items : List String) (key : Option κ)
    (pages : PagesByKeys get endpoint actor limit extract cursorText listing
      (requests (pageSize limit) listing remaining call key)) :
    paginateLoop get endpoint [("actor", actor)] extract (clampLimit limit) remaining call items
        (key.map cursorText) =
      items ++ (collect (pageSize limit) listing remaining call key).map Prod.snd := by
  induction remaining generalizing call items key with
  | zero => rw [paginateLoop, collect, List.map_nil, List.append_nil]
  | succ remaining ih =>
      have answer := pages _ (Paging.mem_requests remaining call key)
      rw [paginateLoop]
      cases answered : listing call with
      | none =>
          dsimp only at answer
          rw [answered] at answer
          rcases answer with ⟨err, failed⟩
          rw [failed, Paging.collect_none answered, List.map_nil, List.append_nil]
      | some rows =>
          dsimp only at answer
          rw [answered] at answer
          rcases answer with ⟨body, given, extracted⟩
          rw [given]
          dsimp only
          rw [extracted]
          rcases Paging.keysetPage_cases (pageSize_pos limit) rows key with
            ⟨_, page_eq⟩ | ⟨front, last, more, taken, page_eq⟩
          · rw [Paging.collect_last answered page_eq, page_eq]
            simp
          · rw [Paging.requests_more answered page_eq] at pages
            have goesOn := ih (call + 1) (items ++ (front ++ [last]).map Prod.snd) (some last.1)
              fun request made => pages request (List.mem_cons_of_mem _ made)
            have notLast : (((front ++ [last]).map Prod.snd).length == 0 ||
                (Option.map cursorText (some last.1)).isNone) = false := by simp
            rw [Paging.collect_more answered page_eq, page_eq, taken]
            dsimp only
            rw [notLast, if_neg Bool.false_ne_true, goesOn, List.append_assoc, ← List.map_append]

theorem paginate_eq_collect
    (pages : PagesByKeys get endpoint actor limit extract cursorText listing
      (requestsOf limit listing)) :
    paginate get endpoint [("actor", actor)] extract limit =
      (collect (pageSize limit) listing defaultMaxPages 0 none).map Prod.snd :=
  paginateLoop_eq_collect defaultMaxPages 0 [] none pages

/-- What a fetch of a list that may change returns. -/
structure Fetched (limit : UInt8) (listing : Nat → Option (List (κ × String)))
    (dids : List String) (rows : List (κ × String)) : Prop where
  dids_eq : dids = rows.map Prod.snd
  distinct : rows.Pairwise fun first later => first.1 < later.1
  listed : ∀ row ∈ rows, ∃ request ∈ requestsOf limit listing, ∃ listedRows,
    listing request.1 = some listedRows ∧ row ∈ listedRows
  complete : rows.length = defaultMaxPages * pageSize limit ∨
    (∃ request ∈ requestsOf limit listing, listing request.1 = none) ∨
      ∀ row : κ × String, (∀ request ∈ requestsOf limit listing, ∀ listedRows,
        listing request.1 = some listedRows → row ∈ listedRows) → row ∈ rows

theorem fetched_collect (limit : UInt8)
    (ordered : Paging.Ordered listing (requestsOf limit listing)) :
    Fetched limit listing ((collect (pageSize limit) listing defaultMaxPages 0 none).map Prod.snd)
      (collect (pageSize limit) listing defaultMaxPages 0 none) where
  dids_eq := rfl
  distinct := Paging.pairwise_collect (pageSize_pos limit) ordered
  listed row mem := (Paging.exists_of_mem_collect (pageSize_pos limit) mem).2
  complete := by
    rcases Paging.collect_complete (pageSize_pos limit) ordered with full | failed | complete
    · exact .inl full
    · exact .inr (.inl failed)
    · exact .inr (.inr fun row => complete row fun bound absurd => by cases absurd)

end Service

/-- Lists may change while they are fetched.  From a service that answers the
requests of a fetch with pages by keys, in the order of the keys, both fetches
return the list of rows whose keys are distinct and each of which was listed on
one of the calls; and every row that all these calls list is among them, unless
one fails or a hundred full pages were fetched. -/
theorem fetched_of_pagesByKeys {κ : Type} [LinearOrder κ] {ε : Type u} (actor : String)
    (limit : UInt8) (cursorText : κ → String) (listing : Nat → Option (List (κ × String)))
    (ordered : Paging.Ordered listing (requestsOf limit listing)) :
    (∀ get : Get ε GetFollowsResponse,
      PagesByKeys get "app.bsky.graph.getFollows" actor limit
          (extractDids GetFollowsResponse.follows GetFollowsResponse.cursor) cursorText listing
          (requestsOf limit listing) →
        ∃ rows, Fetched limit listing (fetchFollows get actor limit) rows) ∧
    ∀ get : Get ε GetFollowersResponse,
      PagesByKeys get "app.bsky.graph.getFollowers" actor limit
          (extractDids GetFollowersResponse.followers GetFollowersResponse.cursor) cursorText
          listing (requestsOf limit listing) →
        ∃ rows, Fetched limit listing (fetchFollowers get actor limit) rows := by
  constructor
  · intro get pages
    refine ⟨collect (pageSize limit) listing defaultMaxPages 0 none, ?_⟩
    rw [fetchFollows, paginate_eq_collect pages]
    exact fetched_collect limit ordered
  · intro get pages
    refine ⟨collect (pageSize limit) listing defaultMaxPages 0 none, ?_⟩
    rw [fetchFollowers, paginate_eq_collect pages]
    exact fetched_collect limit ordered

/-- A list of follows from which one is taken away after the first call. -/
def shrinking (call : Nat) : List (String × String) :=
  if call = 0 then [("1", "did:plc:a"), ("2", "did:plc:b"), ("3", "did:plc:c")]
  else [("1", "did:plc:a"), ("3", "did:plc:c")]

/-- A service that lists them, two at a time. -/
def shrinkingService : Get Unit GetFollowsResponse := fun call _ query =>
  let page := keysetPage (pageSize 2) (shrinking call) (query.lookup "cursor")
  .ok ⟨page.1.map fun row => ⟨row.2⟩, page.2⟩

theorem ordered_shrinking (made : List (Nat × Option String)) :
    Paging.Ordered (fun call => some (shrinking call)) made := by
  intro request _ rows mem
  cases mem
  rw [shrinking]
  split
  · decide
  · decide

theorem fetched_of_pagesByKeys_shrinking :
    ∃ rows, Fetched 2 (fun call => some (shrinking call))
      (fetchFollows shrinkingService "did:plc:alice" 2) rows := by
  have pages : PagesByKeys shrinkingService "app.bsky.graph.getFollows" "did:plc:alice" 2
      (extractDids GetFollowsResponse.follows GetFollowsResponse.cursor) id
        (fun call => some (shrinking call))
        (requestsOf 2 fun call => some (shrinking call)) := by
    intro request _
    have cursor : (pageQuery [("actor", "did:plc:alice")] (clampLimit 2)
        (request.2.map id)).lookup "cursor" = request.2 := by
      cases request.2 <;> rfl
    refine ⟨_, rfl, ?_⟩
    rw [extractDids, cursor, List.map_map, Option.map_id]
    rfl
  exact (fetched_of_pagesByKeys "did:plc:alice" 2 id _ (ordered_shrinking _)).1 shrinkingService
    pages

end Skybase.AppView
