import Montage.Media.Kind
import Montage.World
/-!
The record of one media file: a name, where it is, its kind and how long it is.
-/
namespace Montage

structure MediaRecord where
  id : String
  path : String
  kind : String
  length : Int
  deriving DecidableEq, Repr

/-- Without a name of its own, or with an empty one, a file is called by its stem. -/
def ingest (w : World) (path : String) (id : Option String) : Program MediaRecord := do
  if !(← (← get).disk.look path) then throw (.mediaNotFound path)
  let p := Path.ofText path
  let kind ← mediaKind p.text
  let length ← Program.probing (probeLength w.media p.text kind)
  let id := match id with
    | some name => if name = "" then p.stem else name
    | none => p.stem
  return ⟨id, p.text, kind, length⟩

end Montage
