import Montage.Fault
import Montage.Text.Word
import Montage.Manifest.Value
/-!
Path variables: `$`, a name in braces, where the name is one or more word characters. A text is
read once from the left; what a variable stands for is put in as it is and not read again.
-/
namespace Montage.Variables

/-- A stretch of a text: a character of its own, or a variable. -/
inductive Piece where
  | plain (c : Char)
  | variable (name : List Char)
  deriving DecidableEq, Repr

/-- The name and the rest, when the text after `$` and a brace holds a name and a closing brace. -/
def name? (cs : List Char) : Option (List Char × List Char) :=
  let name := cs.takeWhile isWord
  match name, cs.dropWhile isWord with
  | _ :: _, '\x7d' :: rest => some (name, rest)
  | _, _ => none

theorem name?_length {cs name rest : List Char} (h : name? cs = some (name, rest)) :
    rest.length < cs.length := by
  have whole : (cs.takeWhile isWord ++ cs.dropWhile isWord).length = cs.length := by
    rw [List.takeWhile_append_dropWhile]
  unfold name? at h
  dsimp only at h
  split at h
  · rename_i hd
    cases h
    simp only [hd, List.length_append, List.length_cons] at whole
    omega
  · cases h

def pieces : List Char → List Piece
  | [] => []
  | '$' :: '\x7b' :: cs =>
    match _h : name? cs with
    | some (name, rest) => .variable name :: pieces rest
    | none => .plain '$' :: pieces ('\x7b' :: cs)
  | c :: cs => .plain c :: pieces cs
termination_by cs => cs.length
decreasing_by
  · have := name?_length _h
    simp only [List.length_cons]
    omega
  · simp
  · simp

def fill (paths : List (Scalar × Value)) : Piece → Except String (List Char)
  | .plain c => .ok [c]
  | .variable name =>
    match entryAt? paths (String.ofList name) with
    | some v => .ok v.display.toList
    | none => .error (String.ofList name)

def fillAll (paths : List (Scalar × Value)) : List Piece → Except String (List Char)
  | [] => .ok []
  | p :: ps => do
    let first ← fill paths p
    let rest ← fillAll paths ps
    return first ++ rest

/-- The text with every variable replaced, or the name of the leftmost one that is unknown. -/
def resolve (text : String) (paths : List (Scalar × Value)) : Except String String :=
  (fillAll paths (pieces text.toList)).map String.ofList

end Montage.Variables
