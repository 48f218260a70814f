import Mathlib.Algebra.Order.Group.Unbundled.Abs
import Mathlib.Algebra.Order.Ring.Int

/- Python's `datetime`, to the microsecond and within the years 1 to 9999. -/
namespace Py

/-- An aware `datetime`, as the microseconds since the epoch: the years 1 to 9999. -/
structure Datetime where
  us : Int
  lower : -62135596800000000 ≤ us
  upper : us < 253402300800000000

def Datetime.epoch : Datetime := ⟨0, by decide, by decide⟩

/-- A `datetime` as it is read from text: what its fields read, as if that were UTC, and
    how far ahead of UTC they are, where the text says so. -/
structure ReadDatetime where
  reading : Datetime
  offset : Option Int
  within : ∀ o ∈ offset, |o| < 86400000000

theorem utc_within : ∀ o ∈ (some 0 : Option Int), |o| < 86400000000 := by decide

theorem local_within : ∀ o ∈ (none : Option Int), |o| < 86400000000 := by decide

/-- A text that reads as a time in UTC. -/
def ReadDatetime.ofUtc (d : Datetime) : ReadDatetime := ⟨d, some 0, utc_within⟩

end Py
