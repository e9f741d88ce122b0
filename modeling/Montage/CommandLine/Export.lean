import Montage.CommandLine.Argument
import Montage.Export
import Montage.Project
import Montage.Text.Json
import Montage.Text.ShellWord
/-!
The command that renders a manifest, checks it, or shows the command line that would render it.
Faults that have a kind are reported as one line of JSON and end the command with a failure.
-/
namespace Montage.CommandLine

inductive Ending where
  /-- The usage is shown. -/
  | usage (code : Nat)
  | misused (complaint : Complaint)
  /-- The command ended, with what it printed on the error stream. -/
  | ended (code : Nat) (errors : String)
  deriving DecidableEq

structure ExportRequest where
  manifest : String
  folder : Option String
  renderer : Option String
  policy : String
  codec : String
  validate : Bool
  printCommand : Bool
  quiet : Bool

namespace ExportRequest

def rules : List Rule := [
  { names := ["--manifest"], valued := true },
  { names := ["--output-dir"], valued := true },
  { names := ["--gpu"] },
  { names := ["--ffmpeg"], valued := true },
  { names := ["--effect-policy"], valued := true, choices := ["first", "layered"] },
  { names := ["--validate"] },
  { names := ["--print-command"] },
  { names := ["--quiet"] }]

def nonempty (value : Option String) : Option String := value.filter (· != "")

def ofArguments (args : List String) : Except Complaint ExportRequest := do
  let g ← readArguments rules ["--manifest"] none args
  let r : ExportRequest := {
    manifest := (g.value? "--manifest").getD ""
    folder := nonempty (g.value? "--output-dir")
    renderer := nonempty (g.value? "--ffmpeg")
    policy := (g.value? "--effect-policy").getD "first"
    codec := if g.has "--gpu" then "h264_nvenc" else "libx264"
    validate := g.has "--validate"
    printCommand := g.has "--print-command"
    quiet := g.has "--quiet" }
  if !r.validate && !r.printCommand && r.folder.isNone then throw .folderNeeded
  return r

end ExportRequest

def padRight (width : Nat) (s : String) : String :=
  s ++ String.ofList (List.replicate (width - s.length) ' ')

def padLeft (width : Nat) (s : String) : String :=
  String.ofList (List.replicate (width - s.length) ' ') ++ s

def clipLine (track : String) (c : Clip) : String :=
  let shown := [c.source, c.overlay, c.effect].findSome? ExportRequest.nonempty
  "  " ++ padRight 6 track ++ " " ++ c.id ++ "  " ++ Decimal.fixed 1 c.start ++ "s — " ++
    Decimal.fixed 1 c.stop ++ "s  " ++ shown.getD "None"

/-- The clips of a project by track, and how long it is. -/
def summary (p : Project) : Except Fault (List String) := do
  let length ← match p.length with
    | some x => pure x
    | none => p.timeline.length
  let head := "Project valid: " ++ toString p.timeline.clips.length ++ " clips, duration " ++
    Decimal.fixed 1 length ++ "s"
  return head :: trackNames.flatMap fun track =>
    (p.timeline.onTrack track).map (clipLine track)

def artifactJson (a : Artifact) : Json :=
  .record [("filename", .text a.filename), ("path", .text a.path), ("size", .whole a.size)]

namespace ExportRequest

def tool (w : World) (r : ExportRequest) : String := r.renderer.getD w.renderer

def perform (w : World) (r : ExportRequest) : Program Unit := do
  let project ← Project.load w r.manifest true
  let options := { project.options with policy := r.policy, codec := r.codec }
  if r.validate then
    project.timeline.checkSourcesOn (← get).disk
    (← summary project).forM Program.say
    Program.say "All paths verified."
  else if r.printCommand then
    let plan ← project.timeline.compile options
    Program.say (ShellWord.line (plan.command (r.tool w)))
  else
    let artifact ← project.timeline.exportTo w (r.folder.getD "") options (r.tool w) r.quiet
    Program.say (artifactJson artifact).line

def run (w : World) (r : ExportRequest) : Program Ending :=
  tryCatch (do r.perform w; return .ended 0 "") fun f =>
    match f.kind? with
    | some kind =>
      let report : Json := .record [("error", .text kind), ("message", .text f.message)]
      return .ended 1 (report.line ++ "\n")
    | none => throw f

end ExportRequest
end Montage.CommandLine
