import Montage.Timeline.Clip
import Montage.Timeline.Overlay
import Montage.Timeline.Effect
import Montage.Sorting.Runs
/-!
The timeline: clips, overlays and effects in the order they were added. Nothing about it is stored
twice except the window of an effect; its length is read off the clips each time. Where items are
asked for in the order of a time, those of equal time stay in the order they came in.
-/
namespace Montage

/-- Whether `x` may stand before `y`. -/
def mayPrecede (key : α → Float) (x y : α) : Bool := !decide (key y < key x)

/-- Items in the order of a key. Keys that are NaN compare with nothing; a list that holds one is
left as sorting by runs leaves it. -/
def orderedBy (key : α → Float) (xs : List α) : List α :=
  if xs.any fun x => (key x).isNaN then Sorting.byRuns (fun x y => decide (key x < key y)) xs
  else xs.mergeSort (mayPrecede key)

structure Timeline where
  clips : List Clip := []
  overlays : List Overlay := []
  effects : List Effect := []
  deriving DecidableEq

/-- One decimal place; a half is rounded up. -/
def roundTenth (x : Float) : Except Fault Float := do
  let tenths ← whole? (wholeBelow (x * 10 + 0.5))
  return Float.ofInt tenths / 10

/-- The length of a timeline whose clips end at `stops`: the last end to one decimal place and at
least five seconds; an empty timeline shows two and a half minutes. -/
def lengthOf : List Float → Except Fault Float
  | [] => .ok 150
  | x :: xs => do
    let last ← roundTenth (greatest x xs)
    return firstMax 5 last

namespace Timeline

def length (tl : Timeline) : Except Fault Float := lengthOf (tl.clips.map Clip.stop)

def clip? (tl : Timeline) (id : String) : Option Clip := tl.clips.find? (·.id == id)

def overlay? (tl : Timeline) (id : String) : Option Overlay := tl.overlays.find? (·.id == id)

def effect? (tl : Timeline) (id : String) : Option Effect := tl.effects.find? (·.id == id)

def clip (tl : Timeline) (id : String) : Except Fault Clip :=
  match tl.clip? id with
  | some c => .ok c
  | none => .error (.absent (.clip id))

def overlay (tl : Timeline) (id : String) : Except Fault Overlay :=
  match tl.overlay? id with
  | some t => .ok t
  | none => .error (.absent (.overlay id))

def effect (tl : Timeline) (id : String) : Except Fault Effect :=
  match tl.effect? id with
  | some e => .ok e
  | none => .error (.absent (.effect id))

def onTrack (tl : Timeline) (track : String) : List Clip :=
  orderedBy Clip.start (tl.clips.filter (·.track == track))

def ofKinds (tl : Timeline) (kinds : List String) : List Clip :=
  orderedBy Clip.start (tl.clips.filter fun c => kinds.contains c.kind)

def clipForOverlay (tl : Timeline) (id : String) : Option Clip := tl.clips.find? (·.shows id)

def clipForEffect (tl : Timeline) (id : String) : Option Clip := tl.clips.find? (·.drives id)

def checkRefs (tl : Timeline) (c : Clip) : Except Fault Unit :=
  let missing (r : Option String) (ids : List String) : Bool := r.all fun id => !ids.contains id
  if c.kind = "text" ∧ missing c.overlay (tl.overlays.map Overlay.id) then
    .error (.rejected (.unknownOverlay c.id (c.overlay.getD "")))
  else if c.kind = "effect" ∧ missing c.effect (tl.effects.map Effect.id) then
    .error (.rejected (.unknownEffect c.id (c.effect.getD "")))
  else .ok ()

def checkClips (tl : Timeline) : List Clip → Except Fault Unit
  | [] => .ok ()
  | c :: cs => do
    c.check
    tl.checkRefs c
    tl.checkClips cs

/-- Every clip is usable and refers to something that is there. Clips may overlap. -/
def validate (tl : Timeline) : Except Fault Unit := tl.checkClips tl.clips

end Timeline
end Montage
