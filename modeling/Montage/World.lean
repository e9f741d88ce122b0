import Montage.Disk
import Montage.Media.Probe
import Montage.Text.Blank
/-!
What a program meets outside itself, as a value: files, media, fonts, the clock, and the renderer
with its behaviour. A renderer that is tried is handed the words of its command, ends with an exit
code and leaves its output; all of this may fail, in ways that are told apart. Programs are computations that may fail and leave a trace: what they printed,
which runs of the renderer they started, which files they opened, and the files as they are then.
-/
namespace Montage

/-- What another program prints: a text, or bytes that are none, and why. -/
inductive Printed where
  | text (s : String)
  | garbled (why : String)
  deriving DecidableEq

instance : Coe String Printed := ⟨.text⟩

def Printed.read : Printed → Except Fault String
  | text s => .ok s
  | garbled why => .error (.garbled why)

structure Tool where
  /-- Why it cannot be started, if so. -/
  refusal : Option String := none
  /-- The size of the file it leaves under its last argument, if any. -/
  outputSize : Option Nat := none
  exitCode : Int := 0
  /-- How it ends when that file cannot be put down: with an exit code, or like one that cannot be
  started. -/
  blocked : Fault → Except String Int := fun f => .error f.message
  /-- What it prints. -/
  listing : Printed := .text ""
  /-- What it complains of. -/
  complaints : Printed := .text ""

/-- How a try ends that finds the files `d` and is to write to `path`, and the files it leaves. -/
def Tool.act (tool : Tool) (d : Disk) (path : Option String) : Except String Int × Disk :=
  match tool.refusal, tool.outputSize, path with
  | some reason, _, _ => (.error reason, d)
  | none, some size, some path =>
    match d.write (Path.ofText path) (String.ofList (List.replicate size 'x')) with
    | .ok d => (.ok tool.exitCode, d)
    | .error f => (tool.blocked f, d)
  | none, _, _ => (.ok tool.exitCode, d)

structure World where
  disk : Disk := {}
  media : Media := []
  tool : Tool := {}
  /-- Seconds since the beginning of 1970. -/
  now : Amount := .whole 0
  /-- The clock when an export begins and when it ends. -/
  ticks : Float × Float := (0, 0)
  /-- The renderer that is installed, if any. -/
  installed : Option String := none
  /-- The renderer that comes with the program. -/
  bundled : String := "ffmpeg"
  fonts : List String := []
  /-- What the system tells as the size of a folder. -/
  folderSize : Nat := 4096
  /-- The folder that is made for the time of an export. -/
  workFolder : String := "work"

/-- What came of a run of the renderer. -/
structure Finished where
  code : Int
  listing : String
  complaints : String

/-- A run of the renderer: its command line, and the files as they were when it started. -/
structure Run where
  command : List String
  disk : Disk
  deriving DecidableEq

structure Trace where
  disk : Disk
  printed : String := ""
  runs : List Run := []
  probes : List Probe := []
  deriving DecidableEq

abbrev Program := ExceptT Fault (StateM Trace)

namespace Program

def say (line : String) : Program Unit :=
  modify fun t => { t with printed := t.printed ++ line ++ "\n" }

def tell (quiet : Bool) (line : String) : Program Unit := if quiet then return () else say line

/-- A change of the files that may be refused. -/
def onDisk (change : Disk → Except Fault Disk) : Program Unit := do
  let d ← change (← get).disk
  modify fun t => { t with disk := d }

def probing (p : Probing α) : Program α := ExceptT.mk do
  let (r, probes) := p.run []
  modify fun t => { t with probes := t.probes ++ probes }
  return r

/-- Does `body` while a folder is there. However it ends, the folder is gone afterwards. -/
def withFolder (folder : Path) (body : Program α) : Program α := ExceptT.mk do
  modify fun t => { t with disk := { t.disk with folders := t.disk.folders ++ [folder] } }
  let r ← body.run
  modify fun t => { t with disk := t.disk.removeFolder folder }
  return r

end Program

namespace World

def start (w : World) : Trace := { disk := w.disk }

/-- The installed renderer, or the one that comes with the program. -/
def renderer (w : World) : String :=
  match w.installed with
  | some path => if path = "" then w.bundled else path
  | none => w.bundled

def font (w : World) (d : Disk) : Option String :=
  (w.fonts.find? d.isThere).map fun p => (Path.ofText p).text

/-- What a word must be to be handed to another program. -/
def checkWord (word : String) : Except Fault Unit := do
  if let some (first, last, code) := strayRun? word.toList then
    throw (.unwritable first last code)
  if Disk.holdsZero word then throw (.misused .zeroInPath)

def checkCommand (command : List String) : Except Fault Unit := command.forM checkWord

/-- Tries the renderer. The answer is what came of it, or why it could not be started. What it has
printed is read when it has ended. -/
def launch (w : World) (command : List String) : Program (Except String Finished) := do
  modify fun t => { t with runs := t.runs ++ [⟨command, t.disk⟩] }
  checkCommand command
  let (ended, d) := w.tool.act (← get).disk command.getLast?
  modify fun t => { t with disk := d }
  match ended with
  | .error reason => return .error reason
  | .ok code => return .ok ⟨code, ← w.tool.listing.read, ← w.tool.complaints.read⟩

end World

/-- The files in the folder `work` when the renderer started, if the command line mentions it. -/
def Run.workFiles (r : Run) (work : String) : List (String × String) :=
  if r.command.any fun arg => holds work.toList arg.toList then
    r.disk.listing (Path.ofText work)
  else []

end Montage
