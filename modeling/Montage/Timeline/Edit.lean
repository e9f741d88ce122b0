import Montage.Timeline.Basic
/-!
Changes to a timeline. Adding checks the newcomer, updating checks the outcome, and whenever an
effect clip is stored, the effects it refers to take its window. A change that is refused leaves no
trace, except that an effect renamed by an update is not found again under its old name.
-/
namespace Montage

/-- `xs` with `new` in the place of the first item that satisfies `p`. -/
def replaceFirst (p : α → Bool) (new : α) : List α → List α
  | [] => []
  | x :: xs => if p x then new :: xs else x :: replaceFirst p new xs

namespace Timeline

/-- Gives the window of an effect clip to the effects it refers to. -/
def sync (tl : Timeline) (c : Clip) : Timeline :=
  if c.kind = "effect" then
    { tl with effects := tl.effects.map fun e =>
        if c.effect = some e.id then { e with start := c.start, stop := c.stop } else e }
  else tl

def syncLinked (tl : Timeline) (effect : String) : Timeline :=
  match tl.clipForEffect effect with
  | some c => tl.sync c
  | none => tl

def addClip (tl : Timeline) (c : Clip) : Except Fault Timeline := do
  if (tl.clip? c.id).isSome then throw (.rejected (.clipIdTaken c.id))
  c.check
  return sync { tl with clips := tl.clips ++ [c] } c

/-- A field that clips do not have is noticed after a forbidden change of the id. -/
def patchClip (old : Clip) (id : String) (p : ClipPatch) : Except Fault Clip := do
  if p.id.any (· != id) then throw (.rejected .clipIdFixed)
  match p.other with
  | some name => throw (.unusable (.unknownField name))
  | none =>
    let new := p.apply old
    new.check
    return new

def updateClip (tl : Timeline) (id : String) (p : ClipPatch) : Except Fault (Clip × Timeline) := do
  let old ← tl.clip id
  let new ← patchClip old id p
  return (new, sync { tl with clips := replaceFirst (·.id == id) new tl.clips } new)

def removeClip (tl : Timeline) (id : String) : Except Fault (Clip × Timeline) := do
  let c ← tl.clip id
  return (c, { tl with clips := tl.clips.eraseP (·.id == id) })

/-- Overwrites fields of a stored clip without any check, as whoever holds the clip can. -/
def overwriteClip (tl : Timeline) (id : String) (p : ClipPatch) : Except Fault Timeline := do
  let c ← tl.clip id
  return { tl with clips := replaceFirst (·.id == id) (p.apply c) tl.clips }

def checkNewOverlay (tl : Timeline) (t : Overlay) : Except Fault Unit :=
  if (tl.overlay? t.id).isSome then .error (.rejected (.overlayIdTaken t.id)) else .ok ()

def addOverlay (tl : Timeline) (t : Overlay) : Except Fault Timeline := do
  tl.checkNewOverlay t
  t.check
  return { tl with overlays := tl.overlays ++ [t] }

def updateOverlay (tl : Timeline) (id : String) (p : OverlayPatch) :
    Except Fault (Overlay × Timeline) := do
  let old ← tl.overlay id
  match p.other with
  | some name => throw (.unusable (.unknownField name))
  | none =>
    let new := p.apply old
    new.check
    return (new, { tl with overlays := replaceFirst (·.id == id) new tl.overlays })

/-- The clips that place the overlay go with it. -/
def removeOverlay (tl : Timeline) (id : String) : Except Fault (Overlay × Timeline) := do
  let t ← tl.overlay id
  return (t, { tl with
    overlays := tl.overlays.eraseP (·.id == id)
    clips := tl.clips.filter fun c => !c.shows id })

def addEffect (tl : Timeline) (e : Effect) : Except Fault (Effect × Timeline) := do
  if (tl.effect? e.id).isSome then throw (.rejected (.effectIdTaken e.id))
  let stored ← e.normal
  let tl := syncLinked { tl with effects := tl.effects ++ [stored] } e.id
  return ((tl.effect? e.id).getD stored, tl)

/-- The answer is looked up under the old name after the change is made. -/
def updateEffect (tl : Timeline) (id : String) (p : EffectPatch) : Except Fault Effect × Timeline :=
  let checked : Except Fault Effect := do
    let old ← tl.effect id
    match p.other with
    | some name => throw (.unusable (.unknownField name))
    | none => (p.apply old).normal
  match checked with
  | .error f => (.error f, tl)
  | .ok new =>
    let tl := syncLinked { tl with effects := replaceFirst (·.id == id) new tl.effects } id
    (tl.effect id, tl)

/-- The clips that place the effect go with it. -/
def removeEffect (tl : Timeline) (id : String) : Except Fault (Effect × Timeline) := do
  let e ← tl.effect id
  return (e, { tl with
    effects := tl.effects.eraseP (·.id == id)
    clips := tl.clips.filter fun c => !c.drives id })

end Timeline
end Montage
