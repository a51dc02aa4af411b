import TxIndex.Time.Calendar

/-! # Instants

A point in time, to the nanosecond, as seconds since the start of 1970 in UTC. A leap second belongs
to the second before it: its nanoseconds run from `nanosPerSecond`. -/
namespace TxIndex

/-- A point in time. -/
structure Instant where
  seconds : Int
  nanos : Nat
deriving DecidableEq

namespace Instant

/-- Nanoseconds of a second. -/
def nanosPerSecond : Nat := 1000000000

/-- Seconds of a day. -/
def secondsPerDay : Int := 86400

/-- The first year that can be written. -/
def firstYear : Int := -262143

/-- The last year that can be written. -/
def lastYear : Int := 262142

/-- The day of an instant, in UTC. -/
def date (t : Instant) : Date := Date.ofDayNumber (t.seconds / secondsPerDay)

/-- The second of its day, in UTC. -/
def secondOfDay (t : Instant) : Nat := (t.seconds % secondsPerDay).toNat

/-- The instant lies in a year that can be written. -/
def isInRange (t : Instant) : Bool := firstYear ≤ t.date.year && t.date.year ≤ lastYear

end Instant
end TxIndex
