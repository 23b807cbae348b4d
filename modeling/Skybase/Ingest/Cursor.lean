import Skybase.Integer

/-!
# The cursor tracker

The in-memory high watermark of the timestamps that the consumer has seen.
-/

namespace Skybase.Ingest

/-- `CursorTracker`. -/
@[ext]
structure CursorTracker where
  watermark : U64
deriving DecidableEq

namespace CursorTracker

/-- `CursorTracker::new`. -/
def new (initial : U64) : CursorTracker := ⟨initial⟩

/-- `CursorTracker::from_option`. -/
def fromOption (initial : Option U64) : CursorTracker := new (initial.getD 0)

/-- `CursorTracker::update`. -/
def update (tracker : CursorTracker) (timeUs : U64) : Bool × CursorTracker :=
  if timeUs = 0 then (false, tracker)
  else (decide (timeUs > tracker.watermark), ⟨max tracker.watermark timeUs⟩)

/-- `CursorTracker::get`. -/
def get (tracker : CursorTracker) : U64 := tracker.watermark

/-- `CursorTracker::get_opt`. -/
def getOpt (tracker : CursorTracker) : Option U64 :=
  if tracker.get = 0 then none else some tracker.get

/-- `CursorTracker::force_rewind`. -/
def forceRewind (_ : CursorTracker) (val : U64) : CursorTracker := ⟨val⟩

/-- The tracker after an update whose answer is ignored. -/
def advance (tracker : CursorTracker) (timeUs : U64) : CursorTracker := (tracker.update timeUs).2

/-- An update takes the maximum; zero changes nothing either way. -/
@[simp]
theorem watermark_advance (tracker : CursorTracker) (timeUs : U64) :
    (tracker.advance timeUs).watermark = max tracker.watermark timeUs := by
  unfold advance update
  split
  · next zero => rw [zero, max_eq_left (Fin.zero_le _)]
  · rfl

end CursorTracker

end Skybase.Ingest
