import Skybase.Feed.Selection

/-!
# Channels that forget

A channel keeps the last messages that were sent on it.  A receiver that falls
behind is told how many messages it has missed and goes on with the oldest one
that is kept.  Messages that set or clear keys may be received again: a view
that already stands after them does not change.
-/

namespace Skybase.Feed

universe u v w

/-- What a receiver is given. -/
inductive Received (α : Type u) where
  | message (message : α)
  | lagged (skipped : Nat)
  | empty

section Receiver

variable {α : Type u}

/-- The position of the oldest message that is kept. -/
def oldest (retained : Nat) (sent : List α) : Nat := sent.length - retained

/-- What the receiver at a position is given, and its position afterwards. -/
def recv (retained : Nat) (sent : List α) (next : Nat) : Received α × Nat :=
  if next < oldest retained sent then
    (.lagged (oldest retained sent - next), oldest retained sent)
  else
    match sent[next]? with
    | some message => (.message message, next + 1)
    | none => (.empty, next)

variable {retained : Nat} {sent : List α} {next : Nat}

theorem oldest_le (retained : Nat) (sent : List α) : oldest retained sent ≤ sent.length :=
  Nat.sub_le _ _

/-- A receiver lags, takes the next message, or has received everything. -/
theorem recv_cases (retained : Nat) {sent : List α} {next : Nat} (within : next ≤ sent.length) :
    (next < oldest retained sent ∧
        recv retained sent next = (.lagged (oldest retained sent - next), oldest retained sent)) ∨
      (∃ message, oldest retained sent ≤ next ∧ next < sent.length ∧
        sent.drop next = message :: sent.drop (next + 1) ∧
        recv retained sent next = (.message message, next + 1)) ∨
      next = sent.length ∧ recv retained sent next = (.empty, next) := by
  by_cases lags : next < oldest retained sent
  · exact .inl ⟨lags, if_pos lags⟩
  · rcases Nat.lt_or_eq_of_le within with before | caught
    · refine .inr (.inl ⟨sent[next], Nat.le_of_not_lt lags, before,
        List.drop_eq_getElem_cons before, ?_⟩)
      rw [recv, if_neg lags, List.getElem?_eq_getElem before]
    · refine .inr (.inr ⟨caught, ?_⟩)
      rw [recv, if_neg lags, List.getElem?_eq_none (Nat.le_of_eq caught.symm)]

end Receiver

section Views

variable {κ : Type u} {ν : Type v} {α : Type w} [DecidableEq κ]

/-- A view that stands after messages is not changed by them. -/
theorem receive_again (read : α → Change κ ν) (view : κ → Option ν) (messages : List α) :
    receive read (receive read view messages) messages = receive read view messages := by
  funext key
  rw [receive, replay_apply]
  cases last : (on key (messages.map read)).getLast? with
  | none => rfl
  | some change => rw [receive, replay_apply, last, Option.elim_some, Option.elim_some]

/-- A view that stands after messages may receive the last of them again. -/
theorem receive_suffix (read : α → Change κ ν) (view : κ → Option ν) (first second : List α) :
    receive read (receive read view (first ++ second)) second =
      receive read view (first ++ second) := by
  rw [receive_append, receive_again]

end Views

end Skybase.Feed
