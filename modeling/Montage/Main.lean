import Montage.CommandLine.Dispatch
import Std.Time.DateTime.Timestamp
/-!
The program: looks up the files that the arguments and the manifest name, runs the command line on
what it found, and puts down what that printed and wrote. It has no way to open media or to start a
renderer; both are reported as refused.
-/
namespace Montage.CommandLine

def usage : String :=
  "usage: montage export --manifest FILE (--output-dir FOLDER | --validate | --print-command)\n" ++
  "               [--gpu] [--ffmpeg PROGRAM] [--effect-policy first|layered] [--quiet]\n" ++
  "       montage probe FILE... [--output FILE]\n" ++
  "       montage health"

def contentAt (path : String) : IO (Option String) := do
  try return some (← IO.FS.readFile path) catch _ => return none

def isThere (path : String) : IO Bool := do
  try
    discard (IO.FS.Handle.mk path .read)
    return true
  catch _ => return false

/-- The world with those of the files that are there. -/
def discovered (w : World) : List String → IO World
  | [] => return w
  | path :: paths => do
    if ← isThere path then discovered { w with disk := w.disk.discover path "" } paths
    else discovered w paths

def sourcesIn (w : World) (manifest : String) : List String :=
  match (Project.load w manifest false).run w.start with
  | (.ok p, _) => p.timeline.clips.filterMap Clip.source
  | (.error _, _) => []

/-- The world as far as the arguments need it. -/
def survey (w : World) (args : List String) : IO World := do
  match commandOf [] args with
  | .ok ("export", args) =>
    match ExportRequest.ofArguments args with
    | .ok r =>
      match ← contentAt r.manifest with
      | some text =>
        let w := { w with disk := w.disk.discover r.manifest text }
        discovered w (sourcesIn w r.manifest)
      | none => return w
    | .error _ => return w
  | .ok ("probe", args) =>
    match ProbeRequest.ofArguments args with
    | .ok r => discovered w r.paths
    | .error _ => return w
  | _ => return w

/-- Puts down the files that were not there before. -/
def putDown (before after : Disk) : IO Unit :=
  (after.files.filter fun f => !before.files.contains f).forM fun f => do
    IO.FS.createDirAll f.1.parent.text
    IO.FS.writeFile f.1.text f.2

end Montage.CommandLine

open Montage Montage.CommandLine

def main (args : List String) : IO UInt32 := do
  let now ← Std.Time.Timestamp.now
  let seconds := Float.ofInt now.toNanosecondsSinceUnixEpoch.val / 1000000000
  let tool : Tool := { refusal := some "No renderer can be started from here" }
  let w ← survey { now := .real seconds, tool } args
  let (result, trace) := (CommandLine.run w args).run w.start
  IO.print trace.printed
  putDown w.disk trace.disk
  match result with
  | .ok (.usage code) =>
    IO.println usage
    return code.toUInt32
  | .ok (.misused complaint) =>
    IO.eprintln (usage ++ "\nmontage: error: " ++ complaint.message)
    return 2
  | .ok (.ended code errors) =>
    IO.eprint errors
    return code.toUInt32
  | .error fault =>
    IO.eprintln fault.message
    return 1
