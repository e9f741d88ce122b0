import Montage.Render.Picture
import Montage.Render.Sources
/-!
Plans: everything one run of the renderer needs. A timeline is compiled without touching a file;
what must be written beforehand is part of the plan. Picture and sound are built apart and meet in
one graph whose unread outputs are exactly what goes to the output file.
-/
namespace Montage

structure Plan where
  inputs : List String
  graph : Graph
  maps : List String
  length : Float
  /-- The output ends with its shortest stream. -/
  shortest : Bool
  encode : List String
  output : String
  sideFiles : List SideFile
  deriving DecidableEq

namespace Sound

/-- The i-th audio clip, cut to its span and to the length of the output. -/
def track (length : Float) (input i : Nat) (c : Clip) : Node :=
  ⟨"audio", [s!"{input}:a"],
    [.make "asetpts" ["PTS-STARTPTS"] [],
     .make "atrim" ["0", Decimal.secondsText (firstMin c.span length)] []],
    [s!"a{i}"]⟩

def tracks (length : Float) (inputs : List String) (audio : List Clip) : List Node :=
  audio.zipIdx.map fun (c, i) => track length (inputs.idxOf (c.source.getD "")) i c

def mix (count : Nat) : Node :=
  ⟨"mix", (List.range count).map fun i => s!"a{i}",
    [.make "amix" [] [("inputs", toString count), ("duration", "longest"),
      ("dropout_transition", "0")]], ["outa"]⟩

def mixed (audio : List Clip) : List Node := if 1 < audio.length then [mix audio.length] else []

def output (audio : List Clip) : List String :=
  if audio.isEmpty then [] else if 1 < audio.length then ["outa"] else ["a0"]

def nodes (length : Float) (inputs : List String) (audio : List Clip) : List Node :=
  tracks length inputs audio ++ mixed audio

end Sound

namespace Timeline

def visual (tl : Timeline) : List Clip := tl.ofKinds visualKinds

def audio (tl : Timeline) : List Clip := tl.ofKinds ["audio"]

/-- The finished picture, absent when there is nothing to see. -/
def picture (tl : Timeline) (o : Options) (inputs : List String) : Except Fault (Option Picture) :=
  if tl.visual.isEmpty then .ok none else (Picture.build tl o inputs tl.visual).map some

def checkMapped (g : Graph) (maps : List String) : Except Fault Unit :=
  match distinct (g.unconsumed.filter (!maps.contains ·)) with
  | [] => .ok ()
  | labels => .error (.miswired (.neverMapped (labels.mergeSort fun a b => a ≤ b)))

def compile (tl : Timeline) (o : Options) : Except Fault Plan := do
  if tl.visual.isEmpty && tl.audio.isEmpty then throw (.rejected .nothingToCompile)
  let length ← match o.length with
    | some x => pure x
    | none => tl.length
  let sources ← sourcesOf (tl.visual ++ tl.audio)
  let inputs := distinct sources
  let picture ← tl.picture o inputs
  let seen := match picture with
    | some p => p.nodes
    | none => []
  let maps := (match picture with
    | some p => [p.output]
    | none => []) ++ Sound.output tl.audio
  let graph ← ({} : Graph).addAll (seen ++ Sound.nodes length inputs tl.audio)
  checkMapped graph maps
  return {
    inputs, graph, maps, length
    shortest := !tl.audio.isEmpty
    encode := encodeFlags o.codec
    output := o.output
    sideFiles := match picture with
      | some p => p.sideFiles
      | none => [] }

end Timeline

/-- The command line of the renderer; `tool` is its program. -/
def Plan.command (p : Plan) (tool : String) : List String :=
  [tool, "-y"] ++ p.inputs.flatMap (fun path => ["-i", path]) ++
  ["-filter_complex", p.graph.text] ++
  p.maps.flatMap (fun label => ["-map", "[" ++ label ++ "]"]) ++
  ["-t", Decimal.secondsText p.length] ++
  (if p.shortest then ["-shortest"] else []) ++ p.encode ++ [p.output]

end Montage
