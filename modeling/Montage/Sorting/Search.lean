/-!
Searching an array whose first items stay in front of something and whose other items do not. Which
items are looked at is fixed, so that the answer is determined also for a test that is not so
orderly: by halving, and by strides that double from either end before the halving begins.
-/
namespace Montage.Sorting

/-- Halves the stretch from `low` up to `high` until it is empty. -/
def boundary (stays : α → Bool) (xs : Array α) (low high : Nat) : Nat :=
  if _h : low < high then
    let middle := low + (high - low) / 2
    match xs[middle]? with
    | some x =>
      if stays x then boundary stays xs (middle + 1) high else boundary stays xs low middle
    | none => high
  else high
termination_by high - low
decreasing_by all_goals omega

/-- The last two places of the strides 1, 3, 7, … below `limit`: the test holds at the first and at
all before it, and no longer at the second. -/
def stride (holds : Nat → Bool) (limit last place : Nat) : Nat × Nat :=
  if _h : place < limit then
    if holds place then stride holds limit place (2 * place + 1) else (last, place)
  else (last, limit)
termination_by limit - place
decreasing_by omega

/-- How many items stay in front, sought from the first item on. -/
def countFromFront (stays : α → Bool) (xs : Array α) : Nat :=
  if xs[0]?.any stays then
    let (last, place) := stride (fun i => xs[i]?.any stays) xs.size 0 1
    boundary stays xs (last + 1) place
  else 0

/-- How many items stay in front, sought from the last item on. -/
def countFromBack (stays : α → Bool) (xs : Array α) : Nat :=
  let fromEnd (i : Nat) : Option α := xs[xs.size - 1 - i]?
  if (fromEnd 0).any stays then xs.size
  else
    let (last, place) := stride (fun i => !(fromEnd i).any stays) xs.size 0 1
    boundary stays xs (xs.size - place) (xs.size - 1 - last)

end Montage.Sorting
