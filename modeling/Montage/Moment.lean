import Montage.Number.Decimal
/-!
Dates and times of day in the Gregorian calendar continued to all years, their texts, and the
reasons why numbers name none. A time may say how far its clock is ahead of UTC; two such times are
the same moment when their clocks show it at once.
-/
namespace Montage

structure Date where
  year : Nat
  month : Nat
  day : Nat
  deriving DecidableEq, Repr

structure TimeOfDay where
  hour : Nat
  minute : Nat
  second : Nat
  micros : Nat
  deriving DecidableEq, Repr

inductive Moment where
  | date (d : Date)
  /-- `ahead` counts minutes. -/
  | time (d : Date) (t : TimeOfDay) (ahead : Option Int)
  deriving DecidableEq, Repr

/-- A stretch of whole minutes, as days and seconds of which only the days may be below zero. -/
def Moment.stretch (minutes : Int) : String :=
  let days := minutes / 1440
  let seconds := minutes % 1440 * 60
  let parts := (if days = 0 then [] else [s!"days={days}"]) ++
    (if seconds = 0 then [] else [s!"seconds={seconds}"])
  "datetime.timedelta(" ++ (if parts.isEmpty then "0" else ", ".intercalate parts) ++ ")"

inductive Misdated where
  | year (n : Int)
  | month
  | day
  | hour
  | minute
  | second
  /-- A clock a whole day ahead or more. -/
  | ahead (minutes : Int)
  deriving DecidableEq, Repr

def Misdated.message : Misdated → String
  | year n => s!"year {n} is out of range"
  | month => "month must be in 1..12"
  | day => "day is out of range for month"
  | hour => "hour must be in 0..23"
  | minute => "minute must be in 0..59"
  | second => "second must be in 0..59"
  | ahead minutes =>
    "offset must be a timedelta strictly between -timedelta(hours=24) and timedelta(hours=24), " ++
      "not " ++ Moment.stretch minutes ++ "."

namespace Date

/-- Year, month and day of a day counted from the first of January 1970. Years are counted from
March, so that the leap day ends one. -/
def civil (day : Int) : Int × Nat × Nat :=
  let z := day + 719468
  let era := z / 146097
  let dayOfEra := (z % 146097).toNat
  let yearOfEra := (dayOfEra - dayOfEra / 1460 + dayOfEra / 36524 - dayOfEra / 146096) / 365
  let dayOfYear := dayOfEra - (365 * yearOfEra + yearOfEra / 4 - yearOfEra / 100)
  let shifted := (5 * dayOfYear + 2) / 153
  let date := dayOfYear - (153 * shifted + 2) / 5 + 1
  let month := if shifted < 10 then shifted + 3 else shifted - 9
  (era * 400 + yearOfEra + (if month ≤ 2 then 1 else 0), month, date)

def isLeap (year : Nat) : Bool := year % 4 = 0 && (year % 100 ≠ 0 || year % 400 = 0)

def daysIn (year month : Nat) : Nat :=
  if month = 2 then (if isLeap year then 29 else 28)
  else if month ∈ [4, 6, 9, 11] then 30 else 31

def of (year month day : Nat) : Except Misdated Date :=
  if year < 1 ∨ 9999 < year then .error (.year year)
  else if month < 1 ∨ 12 < month then .error .month
  else if day < 1 ∨ daysIn year month < day then .error .day
  else .ok ⟨year, month, day⟩

/-- How many days lie between the beginning of the year 1 and this one. -/
def dayNumber (d : Date) : Int :=
  let past := d.year - 1
  let months := (List.range (d.month - 1)).foldl (fun n m => n + daysIn d.year (m + 1)) 0
  let days := past * 365 + past / 4 - past / 100 + past / 400 + months + d.day
  Int.ofNat days - 1

def digits (width n : Nat) : String := String.ofList (Decimal.padded width n)

def text (d : Date) : String := digits 4 d.year ++ "-" ++ digits 2 d.month ++ "-" ++ digits 2 d.day

def numbers (d : Date) : List Nat := [d.year, d.month, d.day]

end Date

namespace TimeOfDay

def of (hour minute second micros : Nat) : Except Misdated TimeOfDay :=
  if 23 < hour then .error .hour
  else if 59 < minute then .error .minute
  else if 59 < second then .error .second
  else .ok ⟨hour, minute, second, micros⟩

def text (t : TimeOfDay) : String :=
  let two := Date.digits 2
  two t.hour ++ ":" ++ two t.minute ++ ":" ++ two t.second ++
    (if t.micros = 0 then "" else "." ++ Date.digits 6 t.micros)

/-- Seconds and microseconds are left out when there are none. -/
def numbers (t : TimeOfDay) : List Nat :=
  [t.hour, t.minute] ++
    (if t.micros = 0 then (if t.second = 0 then [] else [t.second]) else [t.second, t.micros])

end TimeOfDay

namespace Moment

def aheadText (minutes : Int) : String :=
  (if minutes < 0 then "-" else "+") ++ Date.digits 2 (minutes.natAbs / 60) ++ ":" ++
    Date.digits 2 (minutes.natAbs % 60)

/-- Date and time with `between` between them. -/
def textWith (between : String) : Moment → String
  | date d => d.text
  | time d t ahead => d.text ++ between ++ t.text ++ (ahead.map aheadText).getD ""

def text : Moment → String := textWith " "

def zone (minutes : Int) : String :=
  if minutes = 0 then "datetime.timezone.utc" else "datetime.timezone(" ++ stretch minutes ++ ")"

/-- The form that shows what kind of value it is. -/
def literal : Moment → String
  | date d => "datetime.date(" ++ ", ".intercalate (d.numbers.map toString) ++ ")"
  | time d t ahead =>
    "datetime.datetime(" ++ ", ".intercalate ((d.numbers ++ t.numbers).map toString) ++
      (ahead.map fun m => ", tzinfo=" ++ zone m).getD "" ++ ")"

/-- Microseconds since the beginning of the year 1 on its own clock. -/
def shown (d : Date) (t : TimeOfDay) : Int :=
  (((d.dayNumber * 24 + t.hour) * 60 + t.minute) * 60 + t.second) * 1000000 + t.micros

def same : Moment → Moment → Bool
  | time d t (some m), time d' t' (some m') =>
    shown d t - m * 60000000 == shown d' t' - m' * 60000000
  | a, b => a == b

end Moment
end Montage
