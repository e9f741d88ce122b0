import Montage.Number.Exact
/-!
Amounts that outside sources report either as whole numbers or as doubles.
-/
namespace Montage

inductive Amount where
  | whole (n : Int)
  | real (x : Float)
  deriving DecidableEq

namespace Amount

def isZero : Amount → Bool
  | whole n => n == 0
  | real x => x == 0

/-- The greatest whole number that is not above the amount. -/
def floor : Amount → Except NoWhole Int
  | whole n => .ok n
  | real x => wholeBelow x

/-- The nearest double, unless the whole number lies beyond all of them. -/
def toFloat? : Amount → Option Float
  | whole n => if (Float.ofInt n).isFinite then some (Float.ofInt n) else none
  | real x => some x

end Amount
end Montage
