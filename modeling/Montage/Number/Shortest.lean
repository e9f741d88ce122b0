import Montage.Number.Decimal
/-!
The shortest decimal that reads back as a given double: the fewest digits of which the value's
interval of rounding holds one, and among those the nearest to the value. Messages and records show
doubles in this form.
-/
namespace Montage.Shortest

/-- Bounds on the reals that round to `4 * mantissa` quarter units, in quarter units. Below a power
of two the neighbour is only half as far. -/
def lowerQuarter (mantissa : Nat) (exponent : Int) : Nat :=
  if mantissa = Nat.pow 2 52 ∧ -1074 < exponent then 4 * mantissa - 1 else 4 * mantissa - 2

def upperQuarter (mantissa : Nat) : Nat := 4 * mantissa + 2

/-- The point of the grid `10 ^ grid` that reads back as `mantissa * 2 ^ exponent` and is nearest to
it, as a count of grid units. The ends of the interval belong to it when the mantissa is even. -/
def onGrid (mantissa : Nat) (exponent grid : Int) : Option Nat :=
  let quarter := Nat.pow 2 (exponent - 2).toNat * Nat.pow 10 (-grid).toNat
  let unit := Nat.pow 10 grid.toNat * Nat.pow 2 (2 - exponent).toNat
  let value := 4 * mantissa * quarter
  let low := lowerQuarter mantissa exponent * quarter
  let high := upperQuarter mantissa * quarter
  let inside (d : Nat) : Bool :=
    if mantissa % 2 = 0 then low ≤ d * unit && d * unit ≤ high
    else low < d * unit && d * unit < high
  let below := value / unit
  let above := below + 1
  match inside below, inside above with
  | true, true =>
    let r := value % unit
    some (if 2 * r < unit ∨ (2 * r = unit ∧ below % 2 = 0) then below else above)
  | true, false => some below
  | false, true => some above
  | false, false => none

/-- Zeros between the point and the first digit of `n / d`, when that is below one. -/
def leadingZeros (fuel n d : Nat) : Nat :=
  match fuel with
  | 0 => 0
  | fuel + 1 => if d ≤ 10 * n then 0 else leadingZeros fuel (10 * n) d + 1

/-- Where the point stands: the value is below `10 ^ pointOf` and not below a tenth of it. -/
def pointOf (n d : Nat) : Int :=
  if d ≤ n then (Nat.toDigits 10 (n / d)).length else -(leadingZeros 400 n d : Nat)

/-- Tries finer and finer grids; seventeen digits always suffice. -/
def search (mantissa : Nat) (exponent : Int) : Nat → Int → Nat × Int
  | 0, grid => (0, grid)
  | steps + 1, grid =>
    match onGrid mantissa exponent grid with
    | some d => (d, grid)
    | none => search mantissa exponent steps (grid - 1)

/-- The digits without zeros at the end, and the place of the point among them. -/
def digits (mantissa : Nat) (exponent : Int) : List Char × Int :=
  let point := pointOf (Exact.top mantissa exponent) (Exact.bottom exponent)
  let (d, grid) := search mantissa exponent 18 (point - 1)
  let ds := Nat.toDigits 10 d
  (Decimal.dropEnd '0' ds, ds.length + grid)

/-- How a value is laid out. Powers from `positionalFrom` up to `scientificFrom` are written with
the point in its place and at least one digit behind it. -/
structure Layout where
  positionalFrom : Int
  scientificFrom : Int
  exponentWidth : Nat
  deriving DecidableEq, Repr

def layout : Layout := ⟨-4, 16, 2⟩

def positional (ds : List Char) (point : Int) : List Char :=
  if point ≤ 0 then '0' :: '.' :: List.replicate (-point).toNat '0' ++ ds
  else if ds.length ≤ point.toNat then
    ds ++ List.replicate (point.toNat - ds.length) '0' ++ ['.', '0']
  else ds.take point.toNat ++ '.' :: ds.drop point.toNat

def scientific (width : Nat) (ds : List Char) (power : Int) : List Char :=
  let fraction := match ds.drop 1 with
    | [] => []
    | rest => '.' :: rest
  ds.take 1 ++ fraction ++ 'e' :: (if power < 0 then '-' else '+') ::
    Decimal.padded width power.natAbs

def layOut (l : Layout) (ds : List Char) (point : Int) : List Char :=
  if l.positionalFrom ≤ point - 1 ∧ point - 1 < l.scientificFrom then positional ds point
  else scientific l.exponentWidth ds (point - 1)

def chars (x : Float) : List Char :=
  match Exact.ofFloat x with
  | .nan => ['n', 'a', 'n']
  | .infinite negative => Decimal.signMark negative ++ ['i', 'n', 'f']
  | .finite negative 0 _ => Decimal.signMark negative ++ ['0', '.', '0']
  | .finite negative (m + 1) e =>
    let (ds, point) := digits (m + 1) e
    Decimal.signMark negative ++ layOut layout ds point

def text (x : Float) : String := String.ofList (chars x)

end Montage.Shortest
