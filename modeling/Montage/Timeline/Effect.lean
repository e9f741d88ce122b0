import Montage.Fault
/-!
Effects on the picture. Editors know two kinds by other names; stored effects carry the names of
`effectKinds`. The window of an effect is that of the clip that places it, once there is one.
-/
namespace Montage

structure Effect where
  id : String
  kind : String
  intensity : Float := 50
  start : Float := 0
  stop : Float := 0
  deriving DecidableEq

/-- New values for some fields of an effect. `other` names a field that effects do not have. -/
structure EffectPatch where
  id : Option String := none
  kind : Option String := none
  intensity : Option Float := none
  start : Option Float := none
  stop : Option Float := none
  other : Option String := none
  deriving DecidableEq

def EffectPatch.apply (p : EffectPatch) (e : Effect) : Effect where
  id := p.id.getD e.id
  kind := p.kind.getD e.kind
  intensity := p.intensity.getD e.intensity
  start := p.start.getD e.start
  stop := p.stop.getD e.stop

def effectKinds : List String := ["amplify", "fade", "soften", "sparkle"]

def normalKind (kind : String) : Except Fault String :=
  let name := if kind = "zoom" then "amplify" else if kind = "blur" then "soften" else kind
  if name ∈ effectKinds then .ok name else .error (.rejected (.unknownEffectKind name))

namespace Effect

def checkIntensity (e : Effect) : Except Fault Unit :=
  if 0 ≤ e.intensity ∧ e.intensity ≤ 100 then .ok ()
  else .error (.rejected (.intensityOutOfRange e.id e.intensity))

/-- The form in which an effect is stored, if it may be. -/
def normal (e : Effect) : Except Fault Effect := do
  let kind ← normalKind e.kind
  let e := { e with kind }
  e.checkIntensity
  return e

end Effect

end Montage
