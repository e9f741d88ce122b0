import Montage.Document.Content
import Montage.Manifest.Entry
import Montage.Manifest.Variables
import Montage.Media.Probe
import Montage.Render.Options
import Montage.Timeline.Edit
import Montage.World
/-!
Projects: a timeline with the size and rate of its picture, built from a manifest or an export
request. Overlays come first, then effects, then clips, and last every reference is checked. Some
fields go by a second name. A media clip without an end plays its file to the end.
-/
namespace Montage

structure Project where
  width : Int
  height : Int
  rate : Int
  /-- Settings of the picture that nothing here reads. -/
  others : List (Scalar × Value)
  timeline : Timeline
  /-- The length of the output, when the project sets it. -/
  length : Option Float

namespace Project

def place : String := "Project manifest"

def usualSize : Value := .pair (.whole 1920) (.whole 1080)

def resolution (video : List (Scalar × Value)) : Except Fault (Int × Int) := do
  let v := (entryAt? video "resolution").getD usualSize
  match v.two? with
  | some (w, h) =>
    let w ← Entry.number place "video.resolution" w.bare
    let h ← Entry.number place "video.resolution" h.bare
    return (← whole? (wholeTowardZero w), ← whole? (wholeTowardZero h))
  | none => throw (.rejected (.resolutionShape v.literal))

def rateOf (video : List (Scalar × Value)) : Except Fault Int :=
  match (entryAt? video "fps").getD (.whole 30) with
  | .scalar (.whole n) =>
    if n ≤ 0 then .error (.rejected (.rateNotPositive (toString n))) else .ok n
  | v => .error (.rejected (.rateNotPositive v.literal))

def paths : Option Value → Except Fault (List (Scalar × Value))
  | none => .ok []
  | some v =>
    if v.isEmpty then .ok []
    else match v with
      | .mapping entries => .ok entries
      | v => .error (.rejected (.pathsNotMapping v.literal))

/-- An overlay, and whether its animation is a list or a mapping. -/
def overlay (index : Nat) (entry : Value) : Except Fault (Overlay × Bool) := do
  let place := s!"Text {index}"
  if !(← Entry.has "id" entry) then throw (.rejected (.fieldMissing place "id"))
  if !(← Entry.has "content" entry) then
    let id ← Entry.under "id" entry
    throw (.rejected (.fieldMissing s!"{place} ({id.display})" "content"))
  let animation := match Entry.present (← Entry.get? "animation" entry) with
    | some (.scalar (.text s)) => if s = "none" ∨ s = "" then none else some (Value.text s)
    | v => v
  let id ← Entry.under "id" entry
  let content ← Entry.under "content" entry
  let x ← Entry.number place "x" ((← Entry.get? "x" entry).getD (.whole 100))
  let y ← Entry.number place "y" ((← Entry.get? "y" entry).getD (.whole 100))
  let size ← Entry.number place "font_size"
    ((← Entry.first ["font_size", "fontSize"] entry).getD (.whole 48))
  let fontSize ← whole? (wholeTowardZero size)
  let flag (key : String) : Except Fault Bool := do
    return !((← Entry.get? key entry).getD (.truth false)).isEmpty
  let color ← Entry.get? "color" entry
  let align ← Entry.first ["align", "alignment"] entry
  let composite := match animation with
    | some (.list _) | some (.mapping _) => true
    | _ => false
  return ({
    id := id.display
    content := content.display
    x, y, fontSize
    color := (color.getD (.text "white")).display
    bold := ← flag "bold"
    italic := ← flag "italic"
    underline := ← flag "underline"
    align := (align.getD (.text "left")).display
    animation := animation.map Value.display }, composite)

/-- An animation that is a list or a mapping is found unusable when its turn comes to be checked. -/
def addOverlay (tl : Timeline) (t : Overlay) (composite : Bool) : Except Fault Timeline :=
  if composite then do
    tl.checkNewOverlay t
    t.checkAlign
    throw (.unusable .notHashable)
  else tl.addOverlay t

def effect (index : Nat) (entry : Value) : Except Fault Effect := do
  let place := s!"Effect {index}"
  if !(← Entry.has "id" entry) then throw (.rejected (.fieldMissing place "id"))
  match Entry.present (← Entry.first ["kind", "type"] entry) with
  | none =>
    let id ← Entry.under "id" entry
    throw (.rejected (.fieldMissing s!"{place} ({id.display})" "kind"))
  | some kind =>
    let id ← Entry.under "id" entry
    let intensity ← Entry.number place "intensity"
      ((← Entry.get? "intensity" entry).getD (.whole 50))
    let start ← Entry.number place "start"
      ((← Entry.first ["start", "startTime"] entry).getD (.real 0))
    let stop ← Entry.number place "end"
      ((← Entry.first ["end", "endTime"] entry).getD (.real 0))
    return ⟨id.display, kind.display, intensity, start, stop⟩

def trackOf (place : String) (entry : Value) : Except Fault String := do
  let v := (← Entry.first ["track", "type"] entry).getD .null
  match v with
  | .scalar (.text s) =>
    if s ∈ trackNames then return s else throw (.rejected (.trackNeeded place s))
  | v => throw (.rejected (.trackNeeded place v.display))

def startOf (place : String) (entry : Value) : Except Fault Float := do
  match Entry.present (← Entry.first ["start", "startTime"] entry) with
  | some v => Entry.number place "start" v
  | none => throw (.rejected (.fieldMissing place "start"))

def sourceOf (place track : String) (paths : List (Scalar × Value)) (entry : Value) :
    Except Fault (Option String) := do
  if track ∉ sourceKinds then return none
  let v := (← Entry.first ["path", "source"] entry).getD .null
  if v.isEmpty then throw (.rejected (.fieldMissing place "path"))
  match Variables.resolve v.display paths with
  | .ok path => return some path
  | .error name => throw (.rejected (.variableUnknown place name))

/-- A media file is asked for its length only when `probe` is set. -/
def lengthOfFile (media : Media) (probe : Bool) (path track : String) : Probing Int :=
  if probe then probeLength media path track else defaultLength track

def stopOf (media : Media) (probe : Bool) (place track : String) (start : Float)
    (source : Option String) (entry : Value) : Probing Float := do
  match Entry.present (← Entry.first ["end", "endTime"] entry) with
  | some v => Entry.number place "end" v
  | none =>
    match source with
    | none => throw (.rejected (.fieldMissing place "end"))
    | some path =>
      match (Amount.whole (← lengthOfFile media probe path track)).toFloat? with
      | some length => return start + length
      | none => throw .tooLarge

def refOf (keys : List String) (entry : Value) : Except Fault (Option String) := do
  return (Entry.present (← Entry.first keys entry)).map Value.display

def clip (media : Media) (probe : Bool) (paths : List (Scalar × Value)) (index : Nat)
    (entry : Value) : Probing Clip := do
  if !(← Entry.has "id" entry) then throw (.rejected (.fieldMissing s!"Clip {index}" "id"))
  let id := (← Entry.under "id" entry).display
  let place := s!"Clip {index} ({id})"
  let track ← trackOf place entry
  let start ← startOf place entry
  let source ← sourceOf place track paths entry
  let stop ← stopOf media probe place track start source entry
  let overlay ← refOf ["text", "textId"] entry
  let effect ← refOf ["effect", "effectId"] entry
  return { id, track, kind := track, start, stop, source, overlay, effect }

def addOverlays (tl : Timeline) : Nat → List Value → Except Fault Timeline
  | _, [] => .ok tl
  | i, entry :: rest => do
    let (t, composite) ← overlay i entry
    let tl ← addOverlay tl t composite
    addOverlays tl (i + 1) rest

def addEffects (tl : Timeline) : Nat → List Value → Except Fault Timeline
  | _, [] => .ok tl
  | i, entry :: rest => do
    let e ← effect i entry
    let (_, tl) ← tl.addEffect e
    addEffects tl (i + 1) rest

def addClips (media : Media) (probe : Bool) (paths : List (Scalar × Value)) (tl : Timeline) :
    Nat → List Value → Probing Timeline
  | _, [] => return tl
  | i, entry :: rest => do
    let c ← clip media probe paths i entry
    let tl ← tl.addClip c
    addClips media probe paths tl (i + 1) rest

def lengthIn (raw : List (Scalar × Value)) : Except Fault (Option Float) := do
  match Entry.present (entryAt? raw "duration") with
  | none => return none
  | some v =>
    let x ← Entry.number place "duration" v
    if x ≤ 0 then throw (.rejected (.durationNotPositive x))
    return some x

def ofEntries (media : Media) (probe : Bool) (raw : List (Scalar × Value)) : Probing Project := do
  let video ← Entry.entries (entryAt? raw "video")
  let (width, height) ← resolution video
  let rate ← rateOf video
  let paths ← paths (entryAt? raw "paths")
  let tl ← addOverlays {} 0 (← Entry.items (entryAt? raw "texts"))
  let tl ← addEffects tl 0 (← Entry.items (entryAt? raw "effects"))
  let timeline ← addClips media probe paths tl 0 (← Entry.items (entryAt? raw "clips"))
  timeline.validate
  let length ← lengthIn raw
  let others := video.filter fun e => e.1 ≠ .text "resolution" ∧ e.1 ≠ .text "fps"
  return { width, height, rate, others, timeline, length }

def build (media : Media) (probe : Bool) : Value → Probing Project
  | .mapping raw => ofEntries media probe raw
  | _ => throw (.unusable .noEntries)

/-- A document that holds nothing is an empty project; any other must be a mapping. -/
def ofDocument (media : Media) (probe : Bool) (document : Value) : Probing Project :=
  if document.isEmpty then ofEntries media probe []
  else match document with
    | .mapping raw => ofEntries media probe raw
    | _ => throw (.rejected .manifestNotMapping)

/-- The project of a manifest file; with `probe` set, media files without an end are opened. -/
def load (w : World) (path : String) (probe : Bool) : Program Project := do
  let text ← (← get).disk.read path
  let document ← Document.read text
  Program.probing (ofDocument w.media probe document)

/-- How the project is rendered unless something else is asked for. -/
def options (p : Project) : Options where
  length := p.length
  width := p.width
  height := p.height
  rate := p.rate

end Project
end Montage
