/-!
A double read exactly, and the whole numbers beside it. Times of the timeline are doubles; nothing
here rounds unless its name says so, and nothing here adds or multiplies doubles.
-/
namespace Montage

/-- A signed whole number of powers of two, or one of the two values that are no number. -/
inductive Exact where
  | nan
  | infinite (negative : Bool)
  | finite (negative : Bool) (mantissa : Nat) (exponent : Int)
  deriving DecidableEq, Repr

/-- Why a double has no whole number beside it. -/
inductive NoWhole where
  | nan
  | infinite
  deriving DecidableEq, Repr

namespace Exact

def ofFloat (x : Float) : Exact :=
  match x.toModel.unpack with
  | .notANumber => .nan
  | .infinity s => .infinite (s == .negative)
  | .zero s => .finite (s == .negative) 0 0
  | .finite s m e _ => .finite (s == .negative) m e

/-- Numerator of `m * 2 ^ e` over `bottom e`. -/
def top (m : Nat) (e : Int) : Nat := m * Nat.pow 2 e.toNat

def bottom (e : Int) : Nat := Nat.pow 2 (-e).toNat

def signed (negative : Bool) (n : Nat) : Int := if negative then -n else n

end Exact

/-- The whole number nearest to `n / d`; a half goes to the even neighbour. -/
def nearestEven (n d : Nat) : Nat :=
  let q := n / d
  let r := n % d
  if d < 2 * r ∨ (d = 2 * r ∧ q % 2 = 1) then q + 1 else q

/-- A whole number from the exact parts of a finite double, or the reason why there is none. -/
def wholeBy (round : Bool → Nat → Nat → Int) (x : Float) : Except NoWhole Int :=
  match Exact.ofFloat x with
  | .nan => .error .nan
  | .infinite _ => .error .infinite
  | .finite negative m e => .ok (round negative (Exact.top m e) (Exact.bottom e))

/-- The greatest whole number that is not above `x`. -/
def wholeBelow : Float → Except NoWhole Int :=
  wholeBy fun negative n d => Exact.signed negative n / d

/-- `x` without its fraction. -/
def wholeTowardZero : Float → Except NoWhole Int :=
  wholeBy fun negative n d => (Exact.signed negative n).tdiv d

/-- The whole number nearest to `x`; a half goes to the even neighbour. -/
def wholeNearest : Float → Except NoWhole Int :=
  wholeBy fun negative n d => Exact.signed negative (nearestEven n d)

/-- The first argument, unless the second is strictly greater. With NaN or zeros of two signs the
order of the arguments decides. -/
def firstMax (a b : Float) : Float := if a < b then b else a

/-- The first argument, unless the second is strictly smaller. -/
def firstMin (a b : Float) : Float := if b < a then b else a

/-- The greatest of a non-empty list, the earliest among equals. -/
def greatest (x : Float) (xs : List Float) : Float := xs.foldl firstMax x

end Montage
