import Montage.Clock
import Montage.Render.Diagnosis
import Montage.Render.Plan
import Montage.World
/-!
Running a plan, and exporting a timeline: check the sources, compile, put the texts of overlays
into a folder made for the purpose, run the renderer, and report what it wrote. The folder is gone
when the export ends, however it ends. Nothing keeps two exports from writing to one folder.
-/
namespace Montage

/-- The keywords that an export is called with: those it knows, and the names of others. -/
structure Keywords extends Options where
  strangers : List String := []

instance : Coe Options Keywords := ⟨fun o => { o with }⟩

structure Artifact where
  filename : String
  path : String
  size : Nat
  deriving DecidableEq, Repr

namespace Plan

def writeSideFiles (p : Plan) : Program Unit :=
  Program.onDisk fun d => p.sideFiles.foldlM (fun d f => d.write (Path.ofText f.path) f.content) d

/-- Runs the renderer for a plan whose side files are there. The answer is where the output is. -/
def run (w : World) (p : Plan) (tool : String) (quiet : Bool) : Program String := do
  let out := Path.ofText p.output
  Program.onDisk (·.makeFolder out.parent)
  let command := p.command tool
  Program.tell quiet ("  RUN    " ++ " ".intercalate command)
  match ← w.launch command with
  | .error reason => throw (.toolFailed (-1) reason)
  | .ok ended =>
    if ended.code ≠ 0 then throw (.toolFailed ended.code (Diagnosis.text ended.complaints))
    if !(← (← get).disk.look out.text) then throw (.outputMissing out.text)
    return out.text

end Plan

namespace Timeline

/-- Checks that the sources of all clips are there. -/
def checkSourcesOn (tl : Timeline) (d : Disk) : Except Fault Unit := do
  (tl.clips.filterMap Clip.source).forM fun path => discard (d.look path)
  checkSources d.isThere tl

/-- Compiles and runs; a failure of the renderer is shown before it is passed on. -/
def render (w : World) (tl : Timeline) (o : Options) (tool : String) (quiet : Bool) :
    Program Unit := do
  let font := w.font (← get).disk
  let plan ← tl.compile { o with font }
  plan.writeSideFiles
  tryCatch (discard (plan.run w tool quiet)) fun f => do
    match f with
    | .toolFailed .. | .outputMissing _ => Program.tell quiet ("  FAIL   " ++ f.message)
    | _ => pure ()
    throw f

/-- Renders to `output-` and the milliseconds of the clock, in `folder`. -/
def exportTo (w : World) (tl : Timeline) (folder : String) (o : Options) (tool : String)
    (quiet : Bool) : Program Artifact := do
  tl.checkSourcesOn (← get).disk
  let folder := Path.ofText folder
  Program.onDisk (·.makeFolder folder)
  let stamp ← Clock.milliseconds w.now
  let filename := "output-" ++ toString stamp ++ ".mp4"
  let output := folder.child filename
  Program.withFolder (Path.ofText w.workFolder) <|
    render w tl { o with output := output.text, workFolder := w.workFolder } tool quiet
  let size ← (← get).disk.size w.folderSize output.text
  let elapsed := Decimal.fixed 1 (w.ticks.2 - w.ticks.1)
  Program.tell quiet
    ("  DONE   " ++ output.text ++ " — " ++ toString size ++ " bytes, " ++ elapsed ++ "s wall")
  return ⟨filename, output.text, size⟩

/-- An export by keywords; a keyword it does not know is refused before anything is done. -/
def exportBy (w : World) (tl : Timeline) (folder : String) (k : Keywords) (tool : String)
    (quiet : Bool) : Program Artifact :=
  match k.strangers with
  | [] => tl.exportTo w folder k.toOptions tool quiet
  | name :: _ => throw (.unusable (.unknownField name))

/-- Sources are looked for and the timeline is compiled at once, with nothing but its length asked
for; otherwise the answer is the export, to be run later. -/
def submit (w : World) (tl : Timeline) (folder : String) (k : Keywords) (tool : String)
    (quiet : Bool) : Except Fault (Program Artifact) := do
  tl.checkSourcesOn w.disk
  let _ ← tl.compile { length := k.length }
  return tl.exportBy w folder k tool quiet

end Timeline

/-- Whether the renderer lists a filter: the second word of some line is its name. -/
def hasFilter (w : World) (tool name : String) : Program Bool := do
  match ← w.launch [tool, "-hide_banner", "-filters"] with
  | .error _ => return false
  | .ok ended =>
    return (lines ended.listing.toList).any fun line =>
      (words line)[1]? == some name.toList

end Montage
