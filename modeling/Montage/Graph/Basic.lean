import Montage.Fault
import Montage.Graph.Filter
import Montage.Text.Word
/-!
Filter graphs: chains of filters joined by labels. A node may read streams of the input files and
outputs of earlier nodes that nobody reads yet; its outputs are new labels. The rules are checked
when a node is added. A label that one node lists twice among its inputs passes.
-/
namespace Montage

structure Node where
  kind : String
  inputs : List String
  filters : List Filter
  outputs : List String
  deriving DecidableEq, Repr

structure Graph where
  nodes : List Node := []
  deriving DecidableEq, Repr

/-- The number of an input file, a colon, and `v` or `a`; one line feed may follow. -/
def isStreamChars (cs : List Char) : Bool :=
  match cs.takeWhile isDigit, cs.dropWhile isDigit with
  | _ :: _, ':' :: k :: rest => (k == 'v' || k == 'a') && (rest == [] || rest == ['\n'])
  | _, _ => false

def isStream (label : String) : Bool := isStreamChars label.toList

def bracketed (labels : List String) : String :=
  String.join (labels.map fun label => "[" ++ label ++ "]")

namespace Node

def text (n : Node) : String :=
  bracketed n.inputs ++ ",".intercalate (n.filters.map Filter.text) ++ bracketed n.outputs

def filterNames (n : Node) : List String := n.filters.map Filter.name

def reads (n : Node) : List String := n.inputs.filter (!isStream ·)

end Node

namespace Graph

def text (g : Graph) : String := ";".intercalate (g.nodes.map Node.text)

def ofKind (g : Graph) (kind : String) : List Node := g.nodes.filter (·.kind == kind)

def produced (g : Graph) : List String := g.nodes.flatMap Node.outputs

def consumed (g : Graph) : List String := g.nodes.flatMap Node.reads

/-- The outputs that no node reads, in the order they were produced. -/
def unconsumed (g : Graph) : List String := g.produced.filter (!g.consumed.contains ·)

def checkInputs (g : Graph) (kind : String) : List String → Except Fault Unit
  | [] => .ok ()
  | label :: labels =>
    if isStream label then g.checkInputs kind labels
    else if !g.produced.contains label then .error (.miswired (.readsBeforeProduced kind label))
    else if g.consumed.contains label then .error (.miswired (.consumedTwice label))
    else g.checkInputs kind labels

/-- `all` are the outputs of the whole node. -/
def checkOutputs (g : Graph) (all : List String) : List String → Except Fault Unit
  | [] => .ok ()
  | label :: labels =>
    if isStream label then .error (.miswired (.outputIsStream label))
    else if g.produced.contains label ∨ 1 < all.count label then
      .error (.miswired (.duplicateOutput label))
    else g.checkOutputs all labels

def add (g : Graph) (n : Node) : Except Fault Graph := do
  if n.filters.isEmpty then throw (.miswired (.noFilters n.kind))
  g.checkInputs n.kind n.inputs
  g.checkOutputs n.outputs n.outputs
  return ⟨g.nodes ++ [n]⟩

def addAll (g : Graph) : List Node → Except Fault Graph
  | [] => .ok g
  | n :: ns => do
    let g ← g.add n
    g.addAll ns

end Graph

end Montage
