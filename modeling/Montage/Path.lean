/-!
Slash-separated paths. Reading one drops single dots, repeated slashes and a slash at the end, and
keeps double dots; a path that opens with exactly two slashes keeps both.
-/
namespace Montage

inductive Root where
  | none
  | single
  | double
  deriving DecidableEq, Repr

def Root.text : Root → String
  | .none => ""
  | .single => "/"
  | .double => "//"

structure Path where
  root : Root
  parts : List String
  deriving DecidableEq, Repr

namespace Path

def splitSlash : List Char → List Char → List (List Char)
  | [], part => [part.reverse]
  | c :: cs, part => if c = '/' then part.reverse :: splitSlash cs [] else splitSlash cs (c :: part)

def rootOf : List Char → Root
  | '/' :: '/' :: '/' :: _ => .single
  | '/' :: '/' :: _ => .double
  | '/' :: _ => .single
  | _ => .none

def ofChars (cs : List Char) : Path :=
  ⟨rootOf cs, ((splitSlash cs []).filter fun p => p ≠ [] ∧ p ≠ ['.']).map String.ofList⟩

def ofText (s : String) : Path := ofChars s.toList

/-- The empty relative path is the folder it starts from. -/
def text (p : Path) : String :=
  if p.root = .none ∧ p.parts = [] then "." else p.root.text ++ "/".intercalate p.parts

/-- `name` inside the folder `p`; an absolute `name` leaves `p` behind. -/
def child (p : Path) (name : String) : Path :=
  let n := ofText name
  if n.root = .none then ⟨p.root, p.parts ++ n.parts⟩ else n

def parent (p : Path) : Path := ⟨p.root, p.parts.dropLast⟩

def name (p : Path) : List Char := (p.parts.getLast?.map String.toList).getD []

/-- A name cut before its last dot, unless that dot is its first or its last character. -/
def cut (cs : List Char) : List Char × List Char :=
  let tail := cs.reverse.takeWhile (· ≠ '.')
  let ahead := cs.length - tail.length - 1
  if tail = [] ∨ cs.length ≤ tail.length + 1 then (cs, []) else (cs.take ahead, cs.drop ahead)

def stem (p : Path) : String := String.ofList (cut p.name).1

def ending (p : Path) : List Char := (cut p.name).2

end Path
end Montage
