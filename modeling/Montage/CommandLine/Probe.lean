import Montage.CommandLine.Export
import Montage.Media.Ingest
/-!
The command that tells the kinds and lengths of media files, as JSON on the screen or in a file.
-/
namespace Montage.CommandLine

structure ProbeRequest where
  paths : List String
  output : Option String

namespace ProbeRequest

def rules : List Rule := [{ names := ["--output"], valued := true }]

def ofArguments (args : List String) : Except Complaint ProbeRequest := do
  let g ← readArguments rules [] (some "paths") args
  return ⟨g.words, ExportRequest.nonempty (g.value? "--output")⟩

def recordJson (m : MediaRecord) : Json := .record [
  ("id", .text m.id), ("path", .text m.path), ("kind", .text m.kind), ("duration", .whole m.length)]

def probe (w : World) (path : String) : Program MediaRecord := do
  let m ← ingest w path none
  Program.say ("  PROBE  " ++ padRight 5 m.kind ++ " " ++ padLeft 4 (toString m.length) ++ "s  " ++
    m.path)
  return m

def run (w : World) (r : ProbeRequest) : Program Ending := do
  let records ← r.paths.mapM (probe w)
  let report := (Json.list (records.map recordJson)).block 0
  match r.output with
  | none => Program.say report
  | some path =>
    Program.onDisk (·.makeFolder (Path.ofText path).parent)
    Program.onDisk (·.save path report)
    Program.say ("\nDone: " ++ toString records.length ++ " files -> " ++ path)
  return .ended 0 ""

end ProbeRequest
end Montage.CommandLine
