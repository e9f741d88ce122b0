import Montage.Sorting.Search
/-!
Merging two runs into one. Items are taken singly until one run has yielded several in a row; from
then on whole stretches are sought and taken at once, as long as they are long. A merge goes from
the front or, when the right run is the shorter one, from the back. Equal items keep their order.
-/
namespace Montage.Sorting

/-- Two runs on the way to be one. When a merge goes from the back, both runs are turned round. -/
structure Merging (α : Type) where
  left : List α
  right : List α
  /-- What has been taken, the last item first. -/
  done : List α

namespace Merging

def takeLeft (n : Nat) (m : Merging α) : Merging α :=
  { m with left := m.left.drop n, done := (m.left.take n).reverse ++ m.done }

def takeRight (n : Nat) (m : Merging α) : Merging α :=
  { m with right := m.right.drop n, done := (m.right.take n).reverse ++ m.done }

/-- The order of what is left is settled: one run is used up, or the run with which the merge does
not begin is down to its outermost item, which goes behind all others. -/
def isSettled (front : Bool) (m : Merging α) : Bool :=
  if front then m.left.length ≤ 1 || m.right.isEmpty else m.left.isEmpty || m.right.length ≤ 1

def outcome (front : Bool) (m : Merging α) : List α :=
  if front then m.done.reverse ++ m.right ++ m.left
  else m.right.reverse ++ m.left.reverse ++ m.done

/-- Does the next thing unless the order is settled. -/
def andThen (front : Bool) (next : Merging α → Merging α) (m : Merging α) : Merging α :=
  if m.isSettled front then m else next m

def yieldsLeft (lt : α → α → Bool) (front : Bool) (m : Merging α) : Bool :=
  match m.left, m.right with
  | a :: _, b :: _ => lt b a != front
  | _, _ => true

/-- Takes single items until one run has yielded `eager` of them in a row; it was the left one that
has yielded `count` so far if `wasLeft` is set. -/
def takeSingly (lt : α → α → Bool) (front : Bool) (eager : Nat) :
    Nat → Bool → Nat → Merging α → Merging α
  | 0, _, _, m => m
  | fuel + 1, wasLeft, count, m =>
    let isLeft := m.yieldsLeft lt front
    let m := if isLeft then m.takeLeft 1 else m.takeRight 1
    let count := if isLeft = wasLeft then count + 1 else 1
    if m.isSettled front || eager ≤ count then m
    else takeSingly lt front eager fuel isLeft count m

/-- The items of a run, the nearest first, that go before the key. -/
def stretch (front : Bool) (stays : α → Bool) (run : List α) : Nat :=
  if front then countFromFront stays run.toArray
  else run.length - countFromBack stays run.reverse.toArray

def leftStretch (lt : α → α → Bool) (front : Bool) (m : Merging α) : Nat :=
  match m.right with
  | b :: _ => stretch front (fun a => !lt b a) m.left
  | [] => 0

def rightStretch (lt : α → α → Bool) (front : Bool) (m : Merging α) : Nat :=
  match m.left with
  | a :: _ => stretch front (fun b => lt b a) m.right
  | [] => 0

def longStretch : Nat := 7

/-- Takes stretches in turn while they are long. Each round makes the merge more eager for the
next, and their end makes it less so. -/
def takeStretches (lt : α → α → Bool) (front : Bool) : Nat → Nat → Merging α → Merging α × Nat
  | 0, eager, m => (m, eager)
  | fuel + 1, eager, m =>
    let eager := if 1 < eager then eager - 1 else eager
    let a := m.leftStretch lt front
    let m := (m.takeLeft a).andThen front (takeRight 1)
    if m.isSettled front then (m, eager)
    else
      let b := m.rightStretch lt front
      let m := (m.takeRight b).andThen front (takeLeft 1)
      if m.isSettled front then (m, eager)
      else if longStretch ≤ a || longStretch ≤ b then takeStretches lt front fuel eager m
      else (m, eager + 1)

def finish (lt : α → α → Bool) (front : Bool) : Nat → Nat → Merging α → Merging α × Nat
  | 0, eager, m => (m, eager)
  | fuel + 1, eager, m =>
    if m.isSettled front then (m, eager)
    else
      let enough := m.left.length + m.right.length
      let m := takeSingly lt front eager enough true 0 m
      if m.isSettled front then (m, eager)
      else
        let (m, eager) := takeStretches lt front enough (eager + 1) m
        finish lt front fuel eager m

end Merging

/-- Merges two runs, of which neither is empty. What already is in its place at either end stays
there. The answer tells how eager the next merge may be. -/
def merge (lt : α → α → Bool) (eager : Nat) (left right : List α) : List α × Nat :=
  match left.getLast?, right with
  | some last, first :: _ =>
    let before := countFromFront (fun a => !lt first a) left.toArray
    if left.length ≤ before then (left ++ right, eager)
    else
      let inner := left.drop before
      let behind := countFromBack (fun b => lt b last) right.toArray
      let front := inner.length ≤ behind
      let m : Merging α :=
        if front then Merging.takeRight 1 ⟨inner, right.take behind, []⟩
        else Merging.takeLeft 1 ⟨inner.reverse, (right.take behind).reverse, []⟩
      if behind = 0 then (left ++ right, eager)
      else
        let (m, eager) := m.finish lt front (left.length + right.length) eager
        (left.take before ++ m.outcome front ++ right.drop behind, eager)
  | _, _ => (left ++ right, eager)

end Montage.Sorting
