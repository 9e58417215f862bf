import FeedClient.Time.Moment
import FeedClient.Time.Stamp

/-!
# The time of a timestamp

A timestamp tells a moment, which is shown to people to the second, as the clocks of their time zone
show it. A text that is no timestamp, or whose moment the calendar does not reach, is shown as an
invalid date.
-/

namespace FeedClient

/-- A time zone. -/
structure Zone where
  /-- How many milliseconds its clocks are ahead of Coordinated Universal Time, at a time that is
  given in milliseconds since the epoch. -/
  ahead : Int → Int

/-- The zone in which Coordinated Universal Time is kept. -/
def Zone.utc : Zone :=
  ⟨fun _ => 0⟩

namespace Stamp

/-- The moment that many nanoseconds after the epoch, or before it, to the millisecond, in
Coordinated Universal Time. -/
def moment? (nanos : Int64) : Option Moment :=
  Moment.ofMillis? (millis nanos)

/-- What the clocks of a zone show at that moment. -/
def localMoment? (zone : Zone) (nanos : Int64) : Option Moment :=
  (moment? nanos).map fun _ => Moment.ofMillis (millis nanos + zone.ahead (millis nanos))

/-- The time of a post as people in a zone read it. -/
def clockIn (zone : Zone) (posted : String) : String :=
  match (parse posted).toOption.bind (localMoment? zone) with
  | some m => m.text
  | none => "Invalid Date"

/-- The time of a post in Coordinated Universal Time. -/
def clock (posted : String) : String :=
  clockIn .utc posted

theorem localMoment?_utc (nanos : Int64) : localMoment? .utc nanos = moment? nanos := by
  simp only [localMoment?, moment?, Moment.ofMillis?, Zone.utc, Int.add_zero]
  split <;> rfl

end Stamp

end FeedClient
