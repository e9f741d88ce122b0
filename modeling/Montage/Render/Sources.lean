import Montage.Timeline.Basic
/-!
Source files of clips: the table of distinct inputs in order of first use, and the check that they
are all there.
-/
namespace Montage

def distinct [BEq α] : List α → List α
  | [] => []
  | x :: xs => x :: (distinct xs).filter (· != x)

def sourcesOf : List Clip → Except Fault (List String)
  | [] => .ok []
  | c :: cs => do
    if noRef c.source then throw (.miswired (.noSource c.id c.kind))
    let rest ← sourcesOf cs
    return c.source.getD "" :: rest

/-- The sources that some clip of any kind names and that are not there. -/
def missingSources (isThere : String → Bool) (clips : List Clip) : List String :=
  distinct ((clips.filterMap Clip.source).filter fun s => s != "" && !isThere s)

def checkSources (isThere : String → Bool) (tl : Timeline) : Except Fault Unit :=
  match missingSources isThere tl.clips with
  | [] => .ok ()
  | missing => .error (.rejected (.sourcesMissing missing))

end Montage
