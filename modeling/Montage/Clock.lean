import Montage.Fault
import Montage.Number.Amount
/-!
The clock, in seconds since the beginning of 1970: the date and time in UTC to the microsecond, and
the milliseconds that name output files.
-/
namespace Montage.Clock

def inRange (seconds : Int) : Except Fault Int :=
  if -9223372036854775808 ≤ seconds ∧ seconds < 9223372036854775808 then .ok seconds
  else .error .tooLarge

/-- Whole seconds and microseconds; a double's fraction is rounded to the nearest microsecond. -/
def split : Amount → Except Fault (Int × Nat)
  | .whole n => do return (← inRange n, 0)
  | .real x => do
    if x.isNaN then throw (.misused .timeNaN)
    let seconds ← whole? (wholeTowardZero x)
    let micros ← whole? (wholeNearest ((x - Float.ofInt seconds) * 1000000))
    return (← inRange (seconds + micros / 1000000), (micros % 1000000).toNat)

/-- The year that a calendar of 32 bits shows: it counts from 1900, and what is then too large for
it comes out negative. -/
def shownYear (year : Int) : Except Fault Int :=
  if year - 1900 < -2147483648 ∨ 2147483647 < year - 1900 then .error .beyondClocks
  else .ok (if 2147483647 < year then year - 4294967296 else year)

def momentOf (seconds : Int) (micros : Nat) : Except Fault Moment := do
  let (year, month, day) := Date.civil (seconds / 86400)
  let year ← shownYear year
  if year < 1 ∨ 9999 < year then throw (.misused (.misdated (.year year)))
  let second := (seconds % 86400).toNat
  return .time ⟨year.toNat, month, day⟩
    ⟨second / 3600, second / 60 % 60, second % 60, micros⟩ (some 0)

def timestamp (now : Amount) : Except Fault String := do
  let (seconds, micros) ← split now
  return (← momentOf seconds micros).textWith "T"

def milliseconds : Amount → Except Fault Int
  | .whole n => .ok (n * 1000)
  | .real x => whole? (wholeTowardZero (x * 1000))

end Montage.Clock
