import Montage.Sorting.Merge
/-!
Sorting by natural runs. The list is cut into runs that rise, or fall strictly and are turned round;
short ones are filled up by insertion. A run is merged with its neighbour as soon as the boundary
behind it lies deeper in the tree of halves of the list than the one before it. For a comparison
that orders the items this is a stable sort; for any other it still has one definite outcome.
-/
namespace Montage.Sorting

/-- A first run and what follows it; `run` is read so far, back to front. -/
def firstRun (lt : α → α → Bool) (falling : Bool) (x : α) (run : List α) :
    List α → List α × List α
  | [] => (if falling then x :: run else (x :: run).reverse, [])
  | y :: ys =>
    if lt y x = falling then firstRun lt falling y (x :: run) ys
    else (if falling then x :: run else (x :: run).reverse, y :: ys)

/-- Puts an item behind those that it does not precede, by halving. -/
def insert (lt : α → α → Bool) (run : List α) (item : α) : List α :=
  let i := boundary (fun x => !lt item x) run.toArray 0 run.length
  run.take i ++ item :: run.drop i

/-- The least length of a run: between 32 and 64, so that the list is cut into a power of two of
them or a little less. -/
def leastRun (n : Nat) (odd : Bool) : Nat :=
  if n < 64 then n + odd.toNat else leastRun (n / 2) (odd || n % 2 = 1)
termination_by n
decreasing_by omega

/-- The first run, filled up to `least` items. -/
def nextRun (lt : α → α → Bool) (least : Nat) : List α → List α × List α
  | x :: y :: ys =>
    let (run, rest) := firstRun lt (lt y x) y [x] ys
    let missing := least - run.length
    ((rest.take missing).foldl (insert lt) run, rest.drop missing)
  | xs => (xs, [])

structure Pending (α : Type) where
  items : List α
  start : Nat
  /-- How deep the boundary behind it lies. -/
  depth : Nat := 0

/-- The depth at which halving a list of `n` items first parts two points, given as twice their
distance from its beginning. -/
def depth (n : Nat) : Nat → Nat → Nat → Nat
  | 0, _, _ => 0
  | fuel + 1, a, b =>
    if n ≤ a then depth n fuel (2 * (a - n)) (2 * (b - n)) + 1
    else if n ≤ b then 1
    else depth n fuel (2 * a) (2 * b) + 1

def join (lt : α → α → Bool) (eager : Nat) (left right : Pending α) : Pending α × Nat :=
  let (items, eager) := merge lt eager left.items right.items
  ({ left with items }, eager)

/-- Merges the last two runs while the boundary between them lies deeper than `limit`. -/
def collapse (lt : α → α → Bool) (limit : Nat) : Nat → List (Pending α) → Nat →
    List (Pending α) × Nat
  | fuel + 1, right :: left :: more, eager =>
    if limit < left.depth then
      let (joined, eager) := join lt eager left right
      collapse lt limit fuel (joined :: more) eager
    else (right :: left :: more, eager)
  | _, runs, eager => (runs, eager)

/-- Adds a run of `length` items behind the others, after those merges that its boundary calls for;
`n` is the length of the whole list. -/
def settle (lt : α → α → Bool) (n length : Nat) (runs : List (Pending α)) (eager : Nat) :
    List (Pending α) × Nat :=
  match runs with
  | [] => ([], eager)
  | last :: _ =>
    let a := 2 * last.start + last.items.length
    let limit := depth n (n + 1) a (a + last.items.length + length)
    match collapse lt limit runs.length runs eager with
    | (top :: more, eager) => ({ top with depth := limit } :: more, eager)
    | r => r

/-- Cuts the list into runs; the last run stands first. -/
def runs (lt : α → α → Bool) (n least : Nat) : Nat → List α → List (Pending α) → Nat →
    List (Pending α) × Nat
  | 0, _, pending, eager => (pending, eager)
  | _, [], pending, eager => (pending, eager)
  | fuel + 1, xs, pending, eager =>
    let (run, rest) := nextRun lt least xs
    let (pending, eager) := settle lt n run.length pending eager
    runs lt n least fuel rest (⟨run, n - xs.length, 0⟩ :: pending) eager

/-- Merges the runs that are left, a shorter outer one first. -/
def mergeAll (lt : α → α → Bool) : Nat → List (Pending α) → Nat → List α
  | _, [], _ => []
  | _, [run], _ => run.items
  | 0, runs, _ => runs.reverse.flatMap Pending.items
  | fuel + 1, right :: middle :: [], eager =>
    let (joined, eager) := join lt eager middle right
    mergeAll lt fuel [joined] eager
  | fuel + 1, right :: middle :: left :: more, eager =>
    if left.items.length < right.items.length then
      let (joined, eager) := join lt eager left middle
      mergeAll lt fuel (right :: joined :: more) eager
    else
      let (joined, eager) := join lt eager middle right
      mergeAll lt fuel (joined :: left :: more) eager

def byRuns (lt : α → α → Bool) (xs : List α) : List α :=
  let n := xs.length
  let (pending, eager) := runs lt n (leastRun n false) n xs [] Merging.longStretch
  mergeAll lt n pending eager

end Montage.Sorting
