import Montage.Document.Node
import Montage.Document.Scalar
/-!
The value that a document holds. The kinds of its nodes are looked into level by level, so that of
two that promise too much the outer one is reported. Keys are scalars, and a key given twice keeps
its first place and its last value. Under the mark of a merge a mapping takes over the entries of
others; its own come later and therefore prevail, as do those of the mapping named first.
-/
namespace Montage.Document

/-- What a node turned out to be; collections refer to nodes. -/
inductive Shape where
  | scalar (s : Scalar)
  | list (items : List Nat)
  | pairs (items : List (Nat × Nat))
  | set (members : List Scalar)
  | mapping (entries : List (Scalar × Nat))

/-- The nodes of a document while they are looked into. -/
structure Survey where
  nodes : Array Node
  shapes : Array (Option Shape)
  /-- Collections met so far, whether or not they have been looked into. -/
  met : List Nat := []
  /-- Those of them whose turn comes with the next level, the last one first. -/
  waiting : List Nat := []

abbrev Surveyor := StateT Survey (Except Fault)

namespace Surveyor

def fail : Surveyor α := throw .malformedDocument

def node (number : Nat) : Surveyor Node := do
  match (← get).nodes[number]? with
  | some n => return n
  | none => fail

def setNode (number : Nat) (n : Node) : Surveyor Unit :=
  modify fun s => { s with nodes := s.nodes.setIfInBounds number n }

def setShape (number : Nat) (shape : Shape) : Surveyor Unit :=
  modify fun s => { s with shapes := s.shapes.setIfInBounds number (some shape) }

def meet (number : Nat) : Surveyor Unit := modify fun s => { s with met := number :: s.met }

/-- The text of a scalar. A mapping that has a plain value can stand for that, but not if that is
the mapping again. -/
def text : Nat → Nat → Surveyor String
  | 0, _ => throw .endless
  | fuel + 1, number => do
    match ← node number with
    | .scalar _ s => return s
    | .list .. => fail
    | .mapping _ entries =>
      let nodes := (← get).nodes
      match entries.find? fun e => nodes[e.1]?.any (·.tag == .value) with
      | some (_, v) => text fuel v
      | none => fail

/-- The first of some entries whose key is the mark of a merge: its place, counted on from `i`, and
its value. Other marks that are keys are texts. -/
def nextMerge : Nat → List (Nat × Nat) → Surveyor (Option (Nat × Nat))
  | _, [] => return none
  | i, (k, v) :: more => do
    let key ← node k
    if key.tag = .merge then return some (i, v)
    if key.tag = .value then
      match key with
      | .scalar _ s => setNode k (.scalar .text s)
      | .list _ items => setNode k (.list .text items)
      | .mapping _ entries => setNode k (.mapping .text entries)
    nextMerge (i + 1) more

mutual
/-- Puts the entries of merged mappings in front of a mapping's own, which are searched from place
`i` on; `taken` are those taken over so far. A mapping may be merged into itself, so its entries are
looked up anew for each mark. -/
def merge : Nat → Nat → List (Nat × Nat) → Nat → Surveyor Unit
  | 0, _, _, _ => return ()
  | fuel + 1, i, taken, number => do
    match ← node number with
    | .mapping tag entries =>
      match ← nextMerge i (entries.drop i) with
      | none => setNode number (.mapping tag (taken ++ entries))
      | some (j, v) =>
        setNode number (.mapping tag (entries.eraseIdx j))
        let more ← match ← node v with
          | .mapping .. => mergedEntries fuel v
          | .list _ items => do pure (← mergeEach fuel items).reverse.flatten
          | .scalar .. => fail
        merge fuel j (taken ++ more) number
    | _ => return ()

def mergeEach : Nat → List Nat → Surveyor (List (List (Nat × Nat)))
  | 0, _ => return []
  | _ + 1, [] => return []
  | fuel + 1, v :: vs => do
    match ← node v with
    | .mapping .. =>
      let taken ← mergedEntries fuel v
      return taken :: (← mergeEach fuel vs)
    | _ => fail

def mergedEntries : Nat → Nat → Surveyor (List (Nat × Nat))
  | 0, _ => return []
  | fuel + 1, number => do
    merge fuel 0 [] number
    match ← node number with
    | .mapping _ entries => return entries
    | _ => return []
end

/-- Puts an entry among others; a key that is there already keeps its place. -/
def putNumber (entries : List (Scalar × Nat)) (k : Scalar) (v : Nat) : List (Scalar × Nat) :=
  match entries with
  | [] => [(k, v)]
  | (k', v') :: rest => if k.sameKey k' then (k', v) :: rest else (k', v') :: putNumber rest k v

/-- The order that members of a set are shown in: whole numbers ascend. -/
def ordered (members : List Scalar) : List Scalar :=
  let numbers := members.filterMap fun s => match s with
    | .whole n => some n
    | _ => none
  if numbers.length = members.length then (numbers.mergeSort (· ≤ ·)).map .whole else members

mutual
/-- Looks at a node. Inside a key, collections are looked into at once, and `inside` are those that
are being looked into; elsewhere their turn comes later. -/
def look : Nat → Bool → List Nat → Nat → Surveyor Unit
  | 0, _, _, _ => fail
  | fuel + 1, key, inside, number => do
    if (← get).shapes[number]?.any Option.isSome || (← get).met.contains number then return ()
    let n ← node number
    match n.tag with
    | .list | .pairs | .set | .mapping =>
      if !key then
        meet number
        modify fun s => { s with waiting := number :: s.waiting }
      else
        if inside.contains number then fail
        lookInto fuel true (number :: inside) number
        meet number
    | tag =>
      let content ← text (fuel + 1) number
      match n, tag with
      | .mapping .., .moment => throw (.unusable .notSearchable)
      | _, _ => setShape number (.scalar (← StateT.lift (scalarOf tag content)))

def lookInto : Nat → Bool → List Nat → Nat → Surveyor Unit
  | 0, _, _, _ => fail
  | fuel + 1, key, inside, number => do
    let n ← node number
    match n.tag, n with
    | .list, .list _ items =>
      lookEach fuel key inside items
      setShape number (.list items)
    | .pairs, .list _ items =>
      setShape number (.pairs (← lookPairs fuel key inside items))
    | .mapping, .mapping .. =>
      merge (fuel + 1) 0 [] number
      match ← node number with
      | .mapping _ entries => setShape number (.mapping (← lookEntries fuel key inside [] entries))
      | _ => fail
    | .set, .mapping .. =>
      merge (fuel + 1) 0 [] number
      match ← node number with
      | .mapping _ entries =>
        let entries ← lookEntries fuel key inside [] entries
        setShape number (.set (ordered (entries.map Prod.fst)))
      | _ => fail
    | _, _ => fail

def lookEach : Nat → Bool → List Nat → List Nat → Surveyor Unit
  | 0, _, _, _ => fail
  | _ + 1, _, _, [] => return ()
  | fuel + 1, key, inside, v :: vs => do
    look fuel key inside v
    lookEach fuel key inside vs

def lookPairs : Nat → Bool → List Nat → List Nat → Surveyor (List (Nat × Nat))
  | 0, _, _, _ => fail
  | _ + 1, _, _, [] => return []
  | fuel + 1, key, inside, v :: vs => do
    match ← node v with
    | .mapping _ [(a, b)] =>
      look fuel key inside a
      look fuel key inside b
      return (a, b) :: (← lookPairs fuel key inside vs)
    | _ => fail

def lookEntries : Nat → Bool → List Nat → List (Scalar × Nat) → List (Nat × Nat) →
    Surveyor (List (Scalar × Nat))
  | 0, _, _, _, _ => fail
  | _ + 1, _, _, entries, [] => return entries
  | fuel + 1, key, inside, entries, (k, v) :: more => do
    look fuel true inside k
    match (← get).shapes[k]? with
    | some (some (.scalar s)) =>
      look fuel key inside v
      lookEntries fuel key inside (putNumber entries s v) more
    | _ => fail
end

/-- Looks into the collections that wait, level by level. -/
def levels (enough : Nat) : Nat → Surveyor Unit
  | 0 => fail
  | fuel + 1 => do
    match (← get).waiting.reverse with
    | [] => return ()
    | numbers => do
      modify fun s => { s with waiting := [] }
      numbers.forM (lookInto enough false [])
      levels enough fuel

end Surveyor

/-- The value of a node, and whether the nodes around it show up in it. -/
abbrev Assembly := StateM (Array (Option Value))

mutual
/-- Puts the value of a node together; `around` are the nodes that it is in, the innermost first.
What does not depend on them is put together only once. -/
def assemble (shapes : Array (Option Shape)) : Nat → List (Option Nat) → Nat →
    Assembly (Value × Bool)
  | 0, _, _ => return (.null, true)
  | fuel + 1, around, number => do
    match (← get)[number]? with
    | some (some v) => return (v, false)
    | _ =>
      let inner := some number :: around
      let (v, isOpen) ← match shapes[number]? with
        | some (some (.scalar s)) => pure (Value.scalar s, false)
        | some (some (.set members)) => pure (.set members, false)
        | some (some (.list items)) => do
          let (vs, isOpen) ← assembleEach shapes fuel inner items
          pure (.list vs, isOpen)
        | some (some (.pairs items)) => do
          let (vs, isOpen) ← assemblePairs shapes fuel inner items
          pure (.list vs, isOpen)
        | some (some (.mapping entries)) => do
          let (es, isOpen) ← assembleEntries shapes fuel inner entries
          pure (.mapping es, isOpen)
        | _ => pure (.null, false)
      if !isOpen then modify fun made => made.setIfInBounds number (some v)
      return (v, isOpen)

/-- A node in its place. One that it is in itself comes round again, and is put together once more,
but not a third time. -/
def place (shapes : Array (Option Shape)) : Nat → List (Option Nat) → Nat → Assembly (Value × Bool)
  | 0, _, _ => return (.null, true)
  | fuel + 1, around, number => do
    match around.idxOf? (some number) with
    | none => assemble shapes fuel around number
    | some above =>
      if around.count (some number) < 2 then
        let (v, _) ← assemble shapes fuel around number
        return (.again above v, true)
      else
        return (.again above (.list []), true)

def assembleEach (shapes : Array (Option Shape)) : Nat → List (Option Nat) → List Nat →
    Assembly (List Value × Bool)
  | 0, _, _ => return ([], true)
  | _ + 1, _, [] => return ([], false)
  | fuel + 1, around, v :: vs => do
    let (x, a) ← place shapes fuel around v
    let (xs, b) ← assembleEach shapes fuel around vs
    return (x :: xs, a || b)

def assemblePairs (shapes : Array (Option Shape)) : Nat → List (Option Nat) → List (Nat × Nat) →
    Assembly (List Value × Bool)
  | 0, _, _ => return ([], true)
  | _ + 1, _, [] => return ([], false)
  | fuel + 1, around, (v, w) :: more => do
    let (x, a) ← place shapes fuel (none :: around) v
    let (y, b) ← place shapes fuel (none :: around) w
    let (xs, c) ← assemblePairs shapes fuel around more
    return (.pair x y :: xs, a || b || c)

def assembleEntries (shapes : Array (Option Shape)) : Nat → List (Option Nat) →
    List (Scalar × Nat) → Assembly (List (Scalar × Value) × Bool)
  | 0, _, _ => return ([], true)
  | _ + 1, _, [] => return ([], false)
  | fuel + 1, around, (k, v) :: more => do
    let (x, a) ← place shapes fuel around v
    let (es, b) ← assembleEntries shapes fuel around more
    return ((k, x) :: es, a || b)
end

def contentOf (ts : List Token) : Except Fault Value := do
  let (outer, reading) ← outermost.run { tokens := ts }
  match outer with
  | none => return .null
  | some number =>
    let n := reading.nodes.size
    let enough := 16 * (n + 1) + ts.length
    let start : Survey := ⟨reading.nodes, Array.replicate n none, [], []⟩
    let (_, survey) ← (do
      Surveyor.look enough false [] number
      Surveyor.levels enough enough : Surveyor Unit).run start
    let ((v, _), _) := (assemble survey.shapes enough [] number).run (Array.replicate n none)
    return v

def read (text : String) : Except Fault Value := contentOf (tokensOf text.toList)

end Montage.Document
