import Montage.Fault
/-!
Clips: windows of time on a track. What a clip refers to depends on its kind: a source file, a text
overlay or an effect. A clip is usable when its track exists and has its kind, its window is not
empty and begins at zero or later, and the reference that its kind calls for is there.
-/
namespace Montage

structure Clip where
  id : String
  track : String
  kind : String
  start : Float
  stop : Float
  source : Option String := none
  overlay : Option String := none
  effect : Option String := none
  deriving DecidableEq

/-- New values for some fields of a clip. `other` names a field that clips do not have. -/
structure ClipPatch where
  id : Option String := none
  track : Option String := none
  kind : Option String := none
  start : Option Float := none
  stop : Option Float := none
  source : Option (Option String) := none
  overlay : Option (Option String) := none
  effect : Option (Option String) := none
  other : Option String := none
  deriving DecidableEq

def ClipPatch.apply (p : ClipPatch) (c : Clip) : Clip where
  id := p.id.getD c.id
  track := p.track.getD c.track
  kind := p.kind.getD c.kind
  start := p.start.getD c.start
  stop := p.stop.getD c.stop
  source := p.source.getD c.source
  overlay := p.overlay.getD c.overlay
  effect := p.effect.getD c.effect

def noRef (r : Option String) : Bool := r.all (· == "")

def sourceKinds : List String := ["audio", "image", "video"]

def visualKinds : List String := ["image", "video"]

namespace Clip

def span (c : Clip) : Float := c.stop - c.start

def check (c : Clip) : Except Fault Unit :=
  if c.track ∉ trackNames then .error (.rejected (.unknownTrack c.id c.track))
  else if c.kind ≠ c.track then .error (.rejected (.wrongTrack c.id c.kind c.track))
  else if c.start < 0 then .error (.rejected (.startBelowZero c.id c.start))
  else if c.stop ≤ c.start then .error (.rejected (.emptyWindow c.id c.start c.stop))
  else if c.kind ∈ sourceKinds ∧ noRef c.source then .error (.rejected (.sourceNeeded c.id c.kind))
  else if c.kind = "text" ∧ noRef c.overlay then .error (.rejected (.overlayNeeded c.id))
  else if c.kind = "effect" ∧ noRef c.effect then .error (.rejected (.effectNeeded c.id))
  else .ok ()

/-- Places the overlay `id`. -/
def shows (c : Clip) (id : String) : Bool := c.kind == "text" && c.overlay == some id

/-- Places the effect `id`. -/
def drives (c : Clip) (id : String) : Bool := c.kind == "effect" && c.effect == some id

end Clip

end Montage
