import Montage.Fault
/-!
Text overlays: what is written, where, and how. An overlay is seen while a text clip places it.
-/
namespace Montage

structure Overlay where
  id : String
  content : String
  x : Float := 100
  y : Float := 100
  fontSize : Int := 48
  color : String := "white"
  bold : Bool := false
  italic : Bool := false
  underline : Bool := false
  align : String := "left"
  animation : Option String := none
  deriving DecidableEq

/-- New values for some fields of an overlay. `other` names a field that overlays do not have. -/
structure OverlayPatch where
  id : Option String := none
  content : Option String := none
  x : Option Float := none
  y : Option Float := none
  fontSize : Option Int := none
  color : Option String := none
  bold : Option Bool := none
  italic : Option Bool := none
  underline : Option Bool := none
  align : Option String := none
  animation : Option (Option String) := none
  other : Option String := none
  deriving DecidableEq

def OverlayPatch.apply (p : OverlayPatch) (t : Overlay) : Overlay where
  id := p.id.getD t.id
  content := p.content.getD t.content
  x := p.x.getD t.x
  y := p.y.getD t.y
  fontSize := p.fontSize.getD t.fontSize
  color := p.color.getD t.color
  bold := p.bold.getD t.bold
  italic := p.italic.getD t.italic
  underline := p.underline.getD t.underline
  align := p.align.getD t.align
  animation := p.animation.getD t.animation

def alignments : List String := ["left", "center", "right"]

namespace Overlay

def checkAlign (t : Overlay) : Except Fault Unit :=
  if t.align ∈ alignments then .ok () else .error (.rejected (.unknownAlign t.id t.align))

def checkAnimation (t : Overlay) : Except Fault Unit :=
  match t.animation with
  | none => .ok ()
  | some name =>
    if name = "fade" then .ok () else .error (.rejected (.unknownAnimation t.id name))

def checkFontSize (t : Overlay) : Except Fault Unit :=
  if t.fontSize ≤ 0 then .error (.rejected (.fontSizeNotPositive t.id t.fontSize)) else .ok ()

def check (t : Overlay) : Except Fault Unit := do
  t.checkAlign
  t.checkAnimation
  t.checkFontSize

end Overlay

end Montage
