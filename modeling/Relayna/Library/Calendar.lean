import Mathlib.Algebra.Order.Ring.Int
import Mathlib.Data.Int.Notation

/-!
# Calendar times

A calendar has times from the beginning of a first second to the end of a last one. A number of
seconds gives a time if it is in that range, and a time can be shifted by seconds as long as the
result is. The lemmas say when these are defined and compare the results in unbounded arithmetic.
-/

set_option autoImplicit false
set_option relaxedAutoImplicit false

namespace Relayna.Library

/-- A range of seconds within the 64-bit integers. -/
structure Calendar where
  first : ℤ
  last : ℤ
  above : -2 ^ 63 < first
  below : last < 2 ^ 63

namespace Calendar

variable {calendar : Calendar}

/-- The calendar has a second. -/
def Supports (calendar : Calendar) (seconds : ℤ) : Prop :=
  calendar.first ≤ seconds ∧ seconds ≤ calendar.last

instance (seconds : ℤ) : Decidable (calendar.Supports seconds) :=
  inferInstanceAs (Decidable (_ ∧ _))

def nanosecondsPerSecond : ℤ := 1000000000

/-- A time: a number of nanoseconds whose second the calendar has. -/
structure DateTime (calendar : Calendar) where
  instant : ℤ
  supported : calendar.Supports (instant / nanosecondsPerSecond)

def DateTime.timestamp (time : DateTime calendar) : ℤ :=
  time.instant / nanosecondsPerSecond

theorem second_ediv (seconds : ℤ) :
    seconds * nanosecondsPerSecond / nanosecondsPerSecond = seconds :=
  Int.mul_ediv_cancel seconds (by decide)

/-- The time at the beginning of a second. -/
def fromTimestamp (calendar : Calendar) (seconds : ℤ) : Option (DateTime calendar) :=
  if hsupports : calendar.Supports seconds then
    some ⟨seconds * nanosecondsPerSecond, (second_ediv seconds).symm ▸ hsupports⟩
  else none

theorem shifted_ediv (instant seconds : ℤ) :
    (instant + seconds * nanosecondsPerSecond) / nanosecondsPerSecond =
      instant / nanosecondsPerSecond + seconds :=
  Int.add_mul_ediv_right instant seconds (by decide)

/-- A time some seconds later. -/
def DateTime.shift (time : DateTime calendar) (seconds : ℤ) : Option (DateTime calendar) :=
  if hsupports : calendar.Supports (time.timestamp + seconds) then
    some ⟨time.instant + seconds * nanosecondsPerSecond,
      (shifted_ediv time.instant seconds).symm ▸ hsupports⟩
  else none

theorem fromTimestamp_of_not {seconds : ℤ} (hsupports : ¬ calendar.Supports seconds) :
    calendar.fromTimestamp seconds = none :=
  dif_neg hsupports

theorem fromTimestamp_of_supports {seconds : ℤ} (hsupports : calendar.Supports seconds) :
    ∃ time, calendar.fromTimestamp seconds = some time ∧ time.timestamp = seconds ∧
      time.instant = seconds * nanosecondsPerSecond :=
  ⟨_, dif_pos hsupports, second_ediv seconds, rfl⟩

theorem DateTime.shift_of_not {time : DateTime calendar} {seconds : ℤ}
    (hsupports : ¬ calendar.Supports (time.timestamp + seconds)) : time.shift seconds = none :=
  dif_neg hsupports

theorem DateTime.shift_of_supports {time : DateTime calendar} {seconds : ℤ}
    (hsupports : calendar.Supports (time.timestamp + seconds)) :
    ∃ later, time.shift seconds = some later ∧
      later.instant = time.instant + seconds * nanosecondsPerSecond :=
  ⟨_, dif_pos hsupports, rfl⟩

end Calendar

end Relayna.Library
