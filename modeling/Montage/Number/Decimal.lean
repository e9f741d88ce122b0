import Montage.Number.Exact
/-!
Decimal texts with a fixed number of places, the compact texts made from them, and the reader of
decimal literals. A text shows the exact binary value rounded once, a half to the even neighbour.
-/
namespace Montage.Decimal

/-- The digits of `n`, filled up with leading zeros to `width`. -/
def padded (width n : Nat) : List Char :=
  let digits := Nat.toDigits 10 n
  List.replicate (width - digits.length) '0' ++ digits

/-- `n` counts units of the last of `places` decimal places. -/
def placed (places n : Nat) : List Char :=
  Nat.toDigits 10 (n / Nat.pow 10 places) ++ '.' :: padded places (n % Nat.pow 10 places)

/-- The sign of a zero, or of a value that rounds to zero, is kept. -/
def signMark (negative : Bool) : List Char := if negative then ['-'] else []

def fixedChars (places : Nat) (x : Float) : List Char :=
  match Exact.ofFloat x with
  | .nan => ['n', 'a', 'n']
  | .infinite negative => signMark negative ++ ['i', 'n', 'f']
  | .finite negative m e =>
    signMark negative ++
      placed places (nearestEven (Exact.top m e * Nat.pow 10 places) (Exact.bottom e))

def fixed (places : Nat) (x : Float) : String := String.ofList (fixedChars places x)

/-- Milliseconds: the form of every time in a filter and of the output length. -/
def secondsText (x : Float) : String := fixed 3 x

def dropEnd (c : Char) (cs : List Char) : List Char := (cs.reverse.dropWhile (· == c)).reverse

/-- At most four places, no zero at the end of the fraction and no bare point. -/
def compactText (x : Float) : String :=
  let cs := dropEnd '.' (dropEnd '0' (fixedChars 4 x))
  if cs.isEmpty then "0" else String.ofList cs

/-- The value of a run of digits after `start`. -/
def digitsValue (start : Nat) (ds : List Char) : Nat :=
  ds.foldl (fun n c => 10 * n + (c.toNat - '0'.toNat)) start

/-- `significand * 10 ^ exponent`, rounded once to a double. -/
def scaled (significand : Nat) (exponent : Int) : Float :=
  Float.ofScientific significand (exponent < 0) exponent.natAbs

def splitSign : List Char → Bool × List Char
  | '-' :: cs => (true, cs)
  | '+' :: cs => (false, cs)
  | cs => (false, cs)

/-- The power of ten that ends a literal: nothing, or `e`, a sign and digits. -/
def exponent? : List Char → Option Int
  | [] => some 0
  | c :: cs =>
    let (negative, ds) := splitSign cs
    if (c == 'e' || c == 'E') && !ds.isEmpty && ds.all Char.isDigit then
      some (Exact.signed negative (digitsValue 0 ds))
    else none

/-- Digits around an optional point, then an optional power of ten. -/
def unsigned? (cs : List Char) : Option Float := do
  let ahead := cs.takeWhile Char.isDigit
  let rest := cs.dropWhile Char.isDigit
  let (behind, rest) := match rest with
    | '.' :: more => (more.takeWhile Char.isDigit, more.dropWhile Char.isDigit)
    | _ => ([], rest)
  if ahead.isEmpty && behind.isEmpty then none
  let power ← exponent? rest
  some (scaled (digitsValue (digitsValue 0 ahead) behind) (power - behind.length))

/-- A decimal literal with an optional sign, as the nearest double. -/
def literal? (cs : List Char) : Option Float := do
  let (negative, rest) := splitSign cs
  let x ← unsigned? rest
  some (if negative then -x else x)

end Montage.Decimal
