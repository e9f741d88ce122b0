import Montage.Color
import Montage.Path
import Montage.Graph.Basic
import Montage.Render.Effects
import Montage.Render.Options
/-!
The seen half of a plan. Every visual clip is brought to one size and rate and cut to its span;
several are joined end to end. Text overlays and then effects are chained onto the result, each
reading the output of the one before it.
-/
namespace Montage

/-- A text that must stand in a file before the renderer starts. -/
structure SideFile where
  path : String
  content : String
  deriving DecidableEq, Repr

structure Picture where
  nodes : List Node
  sideFiles : List SideFile
  /-- The label that carries the finished picture. -/
  output : String
  deriving DecidableEq

namespace Picture

/-- An image has one frame, which loops without end until it is cut. -/
def segmentFilters (c : Clip) (o : Options) : List Filter :=
  let size := [toString o.width, toString o.height]
  [.make "scale" size [("force_original_aspect_ratio", "decrease")],
   .make "pad" (size ++ ["(ow-iw)/2", "(oh-ih)/2"]) [],
   .make "setsar" ["1"] []] ++
  (if c.kind = "image" then [.make "loop" [] [("loop", "-1"), ("size", "1"), ("start", "0")]]
   else []) ++
  [.make "fps" [toString o.rate] [],
   .make "trim" [] [("duration", Decimal.secondsText c.span)],
   .make "setpts" ["PTS-STARTPTS"] []]

/-- The i-th visual clip; `input` is the number of its file. -/
def segment (o : Options) (input i : Nat) (c : Clip) : Node :=
  ⟨"normalize", [s!"{input}:v"], segmentFilters c o, [s!"v{i}"]⟩

def segments (o : Options) (inputs : List String) (visual : List Clip) : List Node :=
  visual.zipIdx.map fun (c, i) => segment o (inputs.idxOf (c.source.getD "")) i c

def join (count : Nat) : Node :=
  ⟨"concat", (List.range count).map fun i => s!"v{i}",
    [.make "concat" [] [("n", toString count), ("v", "1"), ("a", "0")]], ["outv"]⟩

def joined (visual : List Clip) : List Node :=
  if 1 < visual.length then [join visual.length] else []

def joinedLabel (visual : List Clip) : String := if 1 < visual.length then "outv" else "v0"

/-- What the k-th node of a chain reads: the base, then the outputs `stem0`, `stem1`, … -/
def link (stem base : String) : Nat → String
  | 0 => base
  | k + 1 => stem ++ toString k

/-- Overlays that have a text clip whose span is not empty, with their number and that clip. -/
def placedTexts (tl : Timeline) : List (Nat × Overlay × Clip) :=
  tl.overlays.zipIdx.filterMap fun (t, i) =>
    match tl.clipForOverlay t.id with
    | some c => if c.span ≤ 0 then none else some (i, t, c)
    | none => none

def sidePath (o : Options) (i : Nat) : String :=
  ((Path.ofText o.workFolder).child s!"text_{i}.txt").text

def alignedX (t : Overlay) : String :=
  let x := Decimal.compactText t.x
  if t.align = "center" then inQuotes (x ++ "-text_w/2")
  else if t.align = "right" then inQuotes (x ++ "-text_w")
  else x

def drawText (t : Overlay) (c : Clip) (path : String) (font : Option String) :
    Except Fault Filter := do
  let color ← filterColor t.color
  checkDigits t.fontSize
  let fontOption := match font with
    | some f => if f = "" then [] else [("fontfile", escapeValue f)]
    | none => []
  let boldOptions := if t.bold then [("borderw", "2"), ("bordercolor", color)] else []
  let fadeOption :=
    if t.animation = some "fade" then
      [("alpha", inQuotes ("min(1,(t-" ++ Decimal.secondsText c.start ++ ")/" ++
        Decimal.compactText 0.5 ++ ")"))]
    else []
  return .make "drawtext" [] <|
    ("textfile", escapeValue path) :: fontOption ++
    [("fontsize", toString t.fontSize), ("fontcolor", color), ("x", alignedX t),
     ("y", Decimal.compactText t.y), ("box", "1"), ("boxcolor", "black@0.5"),
     ("boxborderw", "5")] ++
    boldOptions ++ fadeOption ++ [("enable", inQuotes (gate "t" c.start c.stop))]

def textNode (o : Options) (base : String) (k i : Nat) (t : Overlay) (c : Clip) :
    Except Fault Node := do
  let f ← drawText t c (sidePath o i) o.font
  return ⟨"text", [link "txt" base k], [f], [s!"txt{k}"]⟩

def textNodes (tl : Timeline) (o : Options) (base : String) : Except Fault (List Node) :=
  (placedTexts tl).zipIdx.mapM fun ((i, t, c), k) => textNode o base k i t c

def textFiles (tl : Timeline) (o : Options) : List SideFile :=
  (placedTexts tl).map fun (i, t, _) => ⟨sidePath o i, t.content⟩

/-- Effects that have an effect clip, with its window. -/
def linkedEffects (tl : Timeline) : List Effect :=
  tl.effects.filterMap fun e =>
    (tl.clipForEffect e.id).map fun c => { e with start := c.start, stop := c.stop }

def effectNode (o : Options) (base : String) (k : Nat) (e : Effect) : Except Fault Node := do
  let filters ← effectFilters e o.policy o.width o.height o.rate
  return ⟨"effect", [link "fx" base k], filters, [s!"fx{k}"]⟩

def effectNodes (o : Options) (base : String) (effects : List Effect) :
    Except Fault (List Node) :=
  effects.zipIdx.mapM fun (e, k) => effectNode o base k e

def build (tl : Timeline) (o : Options) (inputs : List String) (visual : List Clip) :
    Except Fault Picture := do
  o.checkPicture
  let texts ← textNodes tl o (joinedLabel visual)
  let withTexts := link "txt" (joinedLabel visual) (placedTexts tl).length
  let effects ← selectEffects (linkedEffects tl) o.policy
  let effectChain ← effectNodes o withTexts effects
  return {
    nodes := segments o inputs visual ++ joined visual ++ texts ++ effectChain
    sideFiles := textFiles tl o
    output := link "fx" withTexts effects.length }

end Picture
end Montage
