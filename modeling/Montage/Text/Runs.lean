/-!
Membership in a set of code points that is given as ascending half-open runs.
-/
namespace Montage

/-- `bounds` lists start, end, start, end, … in ascending order. -/
def inRuns : List Nat → Nat → Bool
  | low :: high :: rest, n => if n < low then false else n < high || inRuns rest n
  | _, _ => false

/-- How far `n` lies behind the beginning of its run. -/
def offsetIn? : List Nat → Nat → Option Nat
  | low :: high :: rest, n =>
    if n < low then none else if n < high then some (n - low) else offsetIn? rest n
  | _, _ => none

theorem offsetIn?_isSome (bounds : List Nat) (n : Nat) :
    (offsetIn? bounds n).isSome = inRuns bounds n := by
  fun_induction inRuns bounds n with
  | case1 low high rest n h => simp [offsetIn?, h]
  | case2 low high rest n h ih =>
    rw [offsetIn?, if_neg h]
    by_cases inside : n < high
    · simp [inside]
    · simp [inside, ih]
  | case3 bounds n h => rw [offsetIn?.eq_2 _ _ h]; rfl

end Montage
