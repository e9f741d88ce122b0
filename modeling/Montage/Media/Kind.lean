import Montage.Fault
import Montage.Path
import Montage.Text.Blank
/-!
The kind of a media file, told from the ending of its name in any letter case.
-/
namespace Montage

def videoEndings : List String := [".mp4", ".mov", ".mkv", ".webm", ".avi", ".m4v"]

def audioEndings : List String := [".mp3", ".wav", ".aac", ".m4a", ".ogg", ".flac"]

def imageEndings : List String := [".png", ".jpg", ".jpeg", ".webp", ".gif", ".bmp"]

def kindOfEnding? (cs : List Char) : Option String :=
  let ending := String.ofList (lower cs)
  if ending ∈ videoEndings then some "video"
  else if ending ∈ audioEndings then some "audio"
  else if ending ∈ imageEndings then some "image"
  else none

def mediaKind (path : String) : Except Fault String :=
  match kindOfEnding? (Path.ofText path).ending with
  | some kind => .ok kind
  | none => .error (.rejected (.unsupportedMedia path))

end Montage
