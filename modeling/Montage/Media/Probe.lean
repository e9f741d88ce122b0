import Montage.Fault
import Montage.Number.Amount
/-!
How long media files are. A file is opened as video or as sound, and what it reports is cut to
whole seconds; where nothing can be learned the kind has a default. Every opening is noted.
-/
namespace Montage

inductive Opener where
  | video
  | audio
  deriving DecidableEq, Repr

def Opener.name : Opener → String
  | video => "video"
  | audio => "audio"

structure Probe where
  opener : Opener
  path : String
  deriving DecidableEq, Repr

inductive Reading where
  | length (seconds : Option Amount)
  | unreadable
  | crashed (report : String)
  deriving DecidableEq

/-- Computations that open media files: they may fail, and the openings so far stay noted. -/
abbrev Probing := ExceptT Fault (StateM (List Probe))

def defaultLength (kind : String) : Except Fault Int :=
  if kind = "image" then .ok 5
  else if kind = "video" ∨ kind = "audio" then .ok 30
  else .error (.absent (.defaultLength kind))

/-- Whole seconds of a reading; zero of them count as nothing learned. -/
def wholeSeconds (kind : String) (r : Reading) : Except Fault Int := do
  let seconds ← match r with
    | .length (some a) => pure (if a.isZero then .whole 0 else a)
    | .length none => pure (.whole 0)
    | .unreadable => pure (.whole 0)
    | .crashed report => throw (.probeCrashed report)
  let n ← whole? seconds.floor
  if n = 0 then defaultLength kind else return n

/-- What is known about media files, by their exact path; any other cannot be read. -/
abbrev Media := List (String × Reading)

def Media.reading (m : Media) (path : String) : Reading := (m.lookup path).getD .unreadable

def probeLength (m : Media) (path kind : String) : Probing Int :=
  if kind = "image" then return 5
  else do
    let opener := if kind = "video" then Opener.video else Opener.audio
    modify (· ++ [⟨opener, path⟩])
    wholeSeconds kind (m.reading path)

end Montage
