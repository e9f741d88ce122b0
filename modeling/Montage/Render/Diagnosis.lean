import Montage.Text.Blank
/-!
What to show of the renderer's messages when it fails: the lines that look like errors, else the
last line.
-/
namespace Montage.Diagnosis

def markers : List String := ["error", "invalid", "no such file", "not found", "failed"]

def isTelling (line : List Char) : Bool := markers.any fun m => holds m.toList (lower line)

/-- Lines without blanks at their ends, empty ones left out. -/
def trimmedLines (cs : List Char) : List (List Char) :=
  ((lines cs).map trim).filter (!·.isEmpty)

def chars (cs : List Char) : List Char :=
  let all := trimmedLines cs
  match all.filter isTelling with
  | [] => all.getLast?.getD "no diagnostic output".toList
  | hits => List.intercalate ['\n'] hits

def text (s : String) : String := String.ofList (chars s.toList)

end Montage.Diagnosis
