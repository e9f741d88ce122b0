import Montage.Timeline.Edit
/-!
Where a dragged clip or edge lands. The pointer's time is first drawn to the nearest start or end
of another clip within a threshold, then kept inside bounds. Landing changes nothing by itself: it
is a proposed window, which may be applied to the timeline.
-/
namespace Montage

def snapThreshold : Float := 1

def leastSpan : Float := 0.5

structure Landing where
  clip : String
  start : Float
  stop : Float
  deriving DecidableEq

inductive Edge where
  | left
  | right
  deriving DecidableEq, Repr

def Edge.name : Edge → String
  | left => "left"
  | right => "right"

def Edge.ofName? (s : String) : Option Edge :=
  if s = "left" then some .left else if s = "right" then some .right else none

theorem Edge.ofName?_name (e : Edge) : Edge.ofName? e.name = some e := by
  cases e <;> decide

/-- `best` with its distance, or a candidate that is within the threshold and strictly nearer. -/
def nearer (t threshold : Float) (best : Option (Float × Float)) (c : Float) :
    Option (Float × Float) :=
  let distance := (c - t).abs
  if distance ≤ threshold then
    match best with
    | none => some (c, distance)
    | some (_, d) => if distance < d then some (c, distance) else best
  else best

/-- The nearest candidate within the threshold, the earliest in the list among equals, or `t`. -/
def snapTime (t : Float) (candidates : List Float) (threshold : Float) : Float :=
  match candidates.foldl (nearer t threshold) none with
  | some (c, _) => c
  | none => t

namespace Timeline

/-- The starts and ends of all clips but one, in stored order. -/
def boundaries (tl : Timeline) (id : String) : List Float :=
  (tl.clips.filter (·.id != id)).flatMap fun c => [c.start, c.stop]

def trackBoundaries (tl : Timeline) (id : String) : Except Fault (List Float) := do
  let c ← tl.clip id
  return (tl.clips.filter fun d => d.id != id && d.track == c.track).flatMap
    fun d => [d.start, d.stop]

/-- A window of the same span with a new start, inside `[0, length - span]`. -/
def proposeMove (tl : Timeline) (id : String) (start : Float) (length : Option Float)
    (threshold : Float) : Except Fault Landing := do
  let c ← tl.clip id
  let length ← match length with
    | some x => pure x
    | none => tl.length
  let t := snapTime start (tl.boundaries id) threshold
  let landed := firstMin (firstMax t 0) (firstMax 0 (length - c.span))
  return ⟨id, landed, landed + c.span⟩

/-- A window with one edge moved, at least `leastSpan` long. A left edge stays at zero or later; a
right edge may go beyond the end of the timeline. -/
def proposeResize (tl : Timeline) (id : String) (edge : Edge) (t threshold : Float) :
    Except Fault Landing := do
  let c ← tl.clip id
  let t := snapTime t (tl.boundaries id) threshold
  match edge with
  | .left =>
    let start := firstMax 0 (firstMin t (c.stop - leastSpan))
    return ⟨id, start, firstMax c.stop (start + leastSpan)⟩
  | .right => return ⟨id, c.start, firstMax t (c.start + leastSpan)⟩

def proposeResizeOf (tl : Timeline) (id side : String) (t threshold : Float) :
    Except Fault Landing :=
  match Edge.ofName? side with
  | some edge => tl.proposeResize id edge t threshold
  | none => .error (.misused (.resizeSide side))

end Timeline

def Landing.apply (l : Landing) (tl : Timeline) : Except Fault (Clip × Timeline) :=
  tl.updateClip l.clip { start := some l.start, stop := some l.stop }

end Montage
