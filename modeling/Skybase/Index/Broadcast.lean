import Skybase.Feed.Core
import Skybase.Index.Record

/-!
# The broadcast bus

Notifications are modelled by the sequence in which they are sent: a
subscriber that does not lag receives exactly the notifications published
after its subscription, in that order.
-/

namespace Skybase.Index

open Skybase.Feed

/-- `ChangeNotification`. -/
inductive ChangeNotification where
  | upsert (row : RecordRow)
  | delete (uri did collection rkey : String)

namespace ChangeNotification

/-- The URI a notification is about. -/
def uri : ChangeNotification → String
  | .upsert row => row.uri
  | .delete uri _ _ _ => uri

/-- `ChangeNotification::did`. -/
def did : ChangeNotification → String
  | .upsert row => row.did
  | .delete _ did _ _ => did

/-- `ChangeNotification::collection`. -/
def collection : ChangeNotification → String
  | .upsert row => row.collection
  | .delete _ _ collection _ => collection

/-- `ChangeNotification::matches_collection`. -/
def matchesCollection (notification : ChangeNotification) (collection : String) : Bool :=
  notification.collection == collection

/-- `ChangeNotification::matches_did`. -/
def matchesDid (notification : ChangeNotification) (did : String) : Bool :=
  notification.did == did

/-- How a subscriber that mirrors the store reads a notification: `Upsert`
sets the URI to the row, `Delete` removes the URI. -/
def change : ChangeNotification → Change String RecordRow
  | .upsert row => .set row.uri row
  | .delete uri _ _ _ => .clear uri

@[simp]
theorem key_change (notification : ChangeNotification) :
    notification.change.key = notification.uri := by
  cases notification <;> rfl

end ChangeNotification

/-- `BroadcastBus`, by the notifications sent on it, oldest first. -/
structure BroadcastBus where
  published : List ChangeNotification

namespace BroadcastBus

/-- A bus nothing has been sent on. -/
def empty : BroadcastBus := ⟨[]⟩

/-- `BroadcastBus::publish`. -/
def publish (bus : BroadcastBus) (notification : ChangeNotification) : BroadcastBus :=
  ⟨bus.published ++ [notification]⟩

/-- `BroadcastBus::publish_upsert`. -/
def publishUpsert (bus : BroadcastBus) (row : RecordRow) : BroadcastBus :=
  bus.publish (.upsert row)

/-- `BroadcastBus::publish_delete`. -/
def publishDelete (bus : BroadcastBus) (uri did collection rkey : String) : BroadcastBus :=
  bus.publish (.delete uri did collection rkey)

/-- Publish in order. -/
def publishAll (bus : BroadcastBus) (notifications : List ChangeNotification) : BroadcastBus :=
  notifications.foldl publish bus

@[simp]
theorem published_publish (bus : BroadcastBus) (notification : ChangeNotification) :
    (bus.publish notification).published = bus.published ++ [notification] :=
  rfl

@[simp]
theorem published_publishAll (bus : BroadcastBus) (notifications : List ChangeNotification) :
    (bus.publishAll notifications).published = bus.published ++ notifications := by
  induction notifications generalizing bus with
  | nil => simp [publishAll]
  | cons notification notifications ih =>
      change (publishAll (bus.publish notification) notifications).published = _
      rw [ih, published_publish, List.append_assoc, List.singleton_append]

end BroadcastBus

/-- A subscriber's copy of the live rows. -/
abbrev Mirror := String → Option RecordRow

/-- The copy after the received notifications, folded in order. -/
def Mirror.receive (mirror : Mirror) (notifications : List ChangeNotification) : Mirror :=
  replay mirror (notifications.map ChangeNotification.change)

end Skybase.Index
