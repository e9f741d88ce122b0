import Montage.Document.Tag
import Montage.Manifest.Value
import Montage.Number.Reading
import Montage.Text.Base64
import Montage.Text.Capital
/-!
The values of scalars whose kind is known. A tag may promise what its text does not keep, and then
there is no value; a text that came by its kind through its form can still be without digits, or
name no day of the calendar.
-/
namespace Montage.Document

def withoutBars (cs : List Char) : List Char := cs.filter (· != '_')

/-- Whether a number begins with a minus sign, and what follows its sign. -/
def signOf (cs : List Char) : Except Fault (Bool × List Char) :=
  match cs with
  | [] => .error .emptyNumber
  | cs => .ok (Decimal.splitSign cs)

/-- Adds up parts that count by sixties, the last of which counts ones. -/
def sixties (parts : List Int) : Int := parts.foldl (fun n part => n * 60 + part) 0

def wholeOf (text : String) : Except Fault Int := do
  let (negative, rest) ← signOf (withoutBars text.toList)
  let n ← match rest with
    | [] => throw .emptyNumber
    | ['0'] => pure 0
    | '0' :: 'b' :: ds => Reading.whole 2 ds
    | '0' :: 'x' :: ds => Reading.whole 16 ds
    | '0' :: ds => Reading.whole 8 ('0' :: ds)
    | cs =>
      if cs.contains ':' then do
        pure (sixties (← (splitColons cs []).mapM (Reading.whole 10)))
      else Reading.whole 10 cs
  return if negative then -n else n

/-- The same for doubles: every part is scaled first, and the last part is the first summand. -/
def realSixties : Nat → Float → List Float → Except Fault Float
  | _, sum, [] => .ok sum
  | unit, sum, part :: more =>
    match (Amount.whole unit).toFloat? with
    | some scale => realSixties (unit * 60) (sum + part * scale) more
    | none => .error .tooLarge

def realOf (text : String) : Except Fault Float := do
  let (negative, rest) ← signOf (inSmall (withoutBars text.toList))
  let x ← match String.ofList rest with
    | ".inf" => pure (1 / 0)
    | ".nan" => pure (0 / 0)
    | _ =>
      if rest.contains ':' then do
        realSixties 1 0 (← (splitColons rest []).mapM Reading.real).reverse
      else Reading.real rest
  return if negative then -x else x

def truthOf (text : String) : Except Fault Bool :=
  let word := String.ofList (inSmall text.toList)
  if word ∈ ["yes", "true", "on"] then .ok true
  else if word ∈ ["no", "false", "off"] then .ok false
  else .error (.absent (.truthWord word))

def bytesOf (text : String) : Except Fault (List UInt8) :=
  if text.toList.all fun c => c.toNat < 0x80 then orMalformed (Base64.decode? text.toList)
  else malformed

def momentOf (text : String) : Except Fault Moment :=
  match timestamp? (withoutFeed text.toList) with
  | some t => t.moment.mapError fun cause => .misused (.misdated cause)
  | none => .error (.unusable .notATimestamp)

/-- The value of a text of some kind; kinds of collections and unknown ones have none. -/
def scalarOf (tag : Tag) (text : String) : Except Fault Scalar :=
  match tag with
  | .null => .ok .null
  | .truth => (truthOf text).map .truth
  | .whole => (wholeOf text).map .whole
  | .real => (realOf text).map .real
  | .bytes => (bytesOf text).map .bytes
  | .moment => (momentOf text).map .moment
  | .text => .ok (.text text)
  | _ => malformed

end Montage.Document
