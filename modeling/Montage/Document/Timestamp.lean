import Montage.Document.Written
/-!
Moments as documents write them: a date, or a date and a time of day to any fraction of a second,
perhaps with how far its clock is ahead of UTC. Fractions below a microsecond are cut off.
-/
namespace Montage.Document

structure Offset where
  negative : Bool
  hours : Nat
  minutes : Nat
  deriving DecidableEq, Repr

/-- The clock of a time: `Z` for UTC, or an offset. -/
inductive Zone where
  | utc
  | offset (o : Offset)
  deriving DecidableEq, Repr

structure ClockWord where
  hour : Nat
  minute : Nat
  second : Nat
  fraction : List Char
  zone : Option Zone
  deriving DecidableEq, Repr

/-- The numbers of a timestamp; none of them has been looked at. -/
structure Timestamp where
  year : Nat
  month : Nat
  day : Nat
  /-- Month and day have two digits each. -/
  isPadded : Bool
  clock : Option ClockWord
  deriving DecidableEq, Repr

def natOf (ds : List Char) : Nat := Decimal.digitsValue 0 ds

/-- At least `least` and at most `most` digits. -/
def digits? (least most : Nat) (cs : List Char) : Option (List Char × List Char) :=
  let ds := (cs.takeWhile Char.isDigit).take most
  if ds.length < least then none else some (ds, cs.drop ds.length)

def mark? (c : Char) : List Char → Option (List Char)
  | d :: cs => if d = c then some cs else none
  | [] => none

def zone? (cs : List Char) : Option (Option Zone) :=
  match cs, cs.dropWhile isSpace with
  | [], _ => some none
  | _, ['Z'] => some (some .utc)
  | _, sign :: rest => do
    if sign ≠ '+' ∧ sign ≠ '-' then none
    let (hours, rest) ← digits? 1 2 rest
    let minutes ← match rest with
      | [] => some []
      | rest => do
        let (minutes, rest) ← digits? 2 2 (← mark? ':' rest)
        if rest.isEmpty then some minutes else none
    return some (.offset ⟨sign = '-', natOf hours, natOf minutes⟩)
  | _, [] => none

def clock? (cs : List Char) : Option ClockWord := do
  let rest ← match cs with
    | 'T' :: rest | 't' :: rest => some rest
    | c :: rest => if isSpace c then some (rest.dropWhile isSpace) else none
    | [] => none
  let (hour, rest) ← digits? 1 2 rest
  let (minute, rest) ← digits? 2 2 (← mark? ':' rest)
  let (second, rest) ← digits? 2 2 (← mark? ':' rest)
  let (fraction, rest) := match rest with
    | '.' :: rest => (rest.takeWhile Char.isDigit, rest.dropWhile Char.isDigit)
    | rest => ([], rest)
  let zone ← zone? rest
  return ⟨natOf hour, natOf minute, natOf second, fraction, zone⟩

def timestamp? (cs : List Char) : Option Timestamp := do
  let (year, rest) ← digits? 4 4 cs
  let (month, rest) ← digits? 1 2 (← mark? '-' rest)
  let (day, rest) ← digits? 1 2 (← mark? '-' rest)
  let clock ← match rest with
    | [] => some none
    | rest => (clock? rest).map some
  return ⟨natOf year, natOf month, natOf day, month.length = 2 && day.length = 2, clock⟩

/-- A scalar of this form is a moment by itself: a date alone must be padded. -/
def isTimestamp (cs : List Char) : Bool :=
  match timestamp? cs with
  | some t => t.isPadded || t.clock.isSome
  | none => false

def microsOf (fraction : List Char) : Nat :=
  let ds := fraction.take 6
  natOf ds * Nat.pow 10 (6 - ds.length)

def Offset.ahead (o : Offset) : Int :=
  let minutes : Int := o.hours * 60 + o.minutes
  if o.negative then -minutes else minutes

def Zone.ahead : Zone → Except Misdated Int
  | .utc => .ok 0
  | .offset o => if o.ahead.natAbs < 1440 then .ok o.ahead else .error (.ahead o.ahead)

/-- The moment that a timestamp names; its offset is looked at first. -/
def Timestamp.moment (t : Timestamp) : Except Misdated Moment :=
  match t.clock with
  | none => do return .date (← Date.of t.year t.month t.day)
  | some c => do
    let ahead ← match c.zone with
      | none => pure none
      | some zone => do pure (some (← zone.ahead))
    let date ← Date.of t.year t.month t.day
    let time ← TimeOfDay.of c.hour c.minute c.second (microsOf c.fraction)
    return .time date time ahead

end Montage.Document
