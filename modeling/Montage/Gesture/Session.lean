import Montage.Gesture.Snap
/-!
One pointer gesture at a time. Pressing on the body of a clip begins a drag, on an edge a resize;
moving only notes where the pointer is; a frame turns the last noted position into one change of
the timeline; releasing flushes what is noted and ends the gesture; cancelling puts the clip's
window back. A fault may come after the session has moved on, so every event answers with the
session and the timeline beside its result.
-/
namespace Montage

inductive Gesture where
  | idle
  /-- `grab` is how far behind the clip's start it was taken. -/
  | dragging (clip : String) (grab : Float) (origin : Float × Float)
  | resizing (clip : String) (edge : Edge) (origin : Float × Float)
  deriving DecidableEq

def Gesture.name : Gesture → String
  | idle => "Idle"
  | dragging .. => "Dragging"
  | resizing .. => "Resizing"

structure Session where
  threshold : Float := snapThreshold
  gesture : Gesture := .idle
  pending : Option Float := none
  deriving DecidableEq

structure Outcome (α : Type) where
  result : Except Fault α
  session : Session
  timeline : Timeline

namespace Session

def press (s : Session) (tl : Timeline) (id : String) (t : Float) (handle : Option String) :
    Except Fault Session := do
  if s.gesture ≠ .idle then throw (.pressedDuring s.gesture.name)
  let c ← tl.clip id
  let origin := (c.start, c.stop)
  match handle with
  | none => return { s with gesture := .dragging id (t - c.start) origin, pending := none }
  | some name =>
    match Edge.ofName? name with
    | some edge => return { s with gesture := .resizing id edge origin, pending := none }
    | none => throw (.misused (.resizeHandle name))

def move (s : Session) (t : Float) : Session :=
  if s.gesture = .idle then s else { s with pending := some t }

/-- Where the clip of the gesture lands when the pointer is at `t`. -/
def propose (s : Session) (tl : Timeline) (t : Float) : Except Fault (Option Landing) :=
  match s.gesture with
  | .idle => .ok none
  | .dragging id grab _ => (tl.proposeMove id (t - grab) none s.threshold).map some
  | .resizing id edge _ => (tl.proposeResize id edge t s.threshold).map some

def frame (s : Session) (tl : Timeline) : Outcome (Option Landing) :=
  match s.pending with
  | none => ⟨.ok none, s, tl⟩
  | some t =>
    if s.gesture = .idle then ⟨.ok none, s, tl⟩
    else
      let s' := { s with pending := none }
      match s.propose tl t with
      | .error f => ⟨.error f, s', tl⟩
      | .ok none => ⟨.ok none, s', tl⟩
      | .ok (some l) =>
        match l.apply tl with
        | .error f => ⟨.error f, s', tl⟩
        | .ok (_, tl') => ⟨.ok (some l), s', tl'⟩

/-- The gesture is over even when the last change is refused. -/
def release (s : Session) (tl : Timeline) (t : Option Float) : Outcome (Option Landing) :=
  if s.gesture = .idle then ⟨.error .releasedIdle, s, tl⟩
  else
    let flushed := frame { s with pending := t <|> s.pending } tl
    { flushed with session := { flushed.session with gesture := .idle } }

/-- The gesture goes on when the window cannot be put back. -/
def cancel (s : Session) (tl : Timeline) : Outcome Unit :=
  let restore (id : String) (origin : Float × Float) : Outcome Unit :=
    match tl.updateClip id { start := some origin.1, stop := some origin.2 } with
    | .error f => ⟨.error f, s, tl⟩
    | .ok (_, tl') => ⟨.ok (), { s with gesture := .idle, pending := none }, tl'⟩
  match s.gesture with
  | .idle => ⟨.ok (), s, tl⟩
  | .dragging id _ origin => restore id origin
  | .resizing id _ origin => restore id origin

end Session
end Montage
