import Montage.Document.Tag
import Montage.Document.Token
/-!
The nodes of a document. Each has a number, by which others refer to it, since a node may be used in
several places and even inside itself. A node that is left out is null; a document that holds
nothing has no node, and a second document must not follow.
-/
namespace Montage.Document

inductive Node where
  | scalar (tag : Tag) (text : String)
  | list (tag : Tag) (items : List Nat)
  | mapping (tag : Tag) (entries : List (Nat × Nat))
  deriving DecidableEq, Repr

def Node.tag : Node → Tag
  | scalar t _ => t
  | list t _ => t
  | mapping t _ => t

structure Reading where
  tokens : List Token
  nodes : Array Node := #[]
  anchors : List (String × Nat) := []
  /-- What the handles of tags stand for. -/
  handles : List (String × String) := [("!", "!"), ("!!", tagStem)]

abbrev Reader := StateT Reading (Except Fault)

namespace Reader

def fail : Reader α := throw .malformedDocument

def require (x : Option α) : Reader α := StateT.lift (orMalformed x)

/-- The token at the front, if there is one more. -/
def first : Reader (Option Token) := do
  match (← get).tokens with
  | .broken why :: _ => throw why
  | t :: _ => return some t
  | [] => return none

def drop : Reader Unit := modify fun r => { r with tokens := r.tokens.drop 1 }

def add (n : Node) : Reader Nat := do
  let r ← get
  set { r with nodes := r.nodes.push n }
  return r.nodes.size

def fill (number : Nat) (n : Node) : Reader Unit :=
  modify fun r => { r with nodes := r.nodes.setIfInBounds number n }

def anchor (name : Option String) (number : Nat) : Reader Unit :=
  match name with
  | none => return ()
  | some name => do
    if (← get).anchors.any (·.1 == name) then fail
    modify fun r => { r with anchors := (name, number) :: r.anchors }

/-- A node without an anchor that is not written down. -/
def absent : Reader Nat := add (.scalar .null "")

def tagName (word : TagWord) : Reader String := do
  match word.handle with
  | none => return word.suffix
  | some handle => return (← require ((← get).handles.lookup handle)) ++ word.suffix

def anchorMark : Reader (Option String) := do
  match ← first with
  | some (.anchor name) =>
    drop
    return some name
  | _ => return none

def tagMark : Reader (Option TagWord) := do
  match ← first with
  | some (.tag word) =>
    drop
    return some word
  | _ => return none

def properties : Reader (Option String × Option String) := do
  let anchor ← anchorMark
  let tag ← tagMark
  let anchor ← if anchor.isNone && tag.isSome then anchorMark else pure anchor
  match tag with
  | none => return (anchor, none)
  | some word => return (anchor, some (← tagName word))

end Reader

/-- What may stand where a node is expected: in brackets no blocks, as a value of a block also a
list that is not indented. -/
inductive Place where
  | bracket
  | block
  | part
  deriving DecidableEq

/-- The tokens before which a node is left out, in the place named. -/
def endsItem : Option Token → Bool
  | some .item | some .endBlock => true
  | _ => false

def endsFlatItem : Option Token → Bool
  | some .item | some .key | some .value | some .endBlock => true
  | _ => false

def endsBlockPart : Option Token → Bool
  | some .key | some .value | some .endBlock => true
  | _ => false

def endsListPart : Option Token → Bool
  | some .value | some .comma | some .closeList => true
  | _ => false

def endsMappingPart : Option Token → Bool
  | some .value | some .comma | some .closeMapping => true
  | _ => false

/-- The kind of a node whose tag does not matter by itself: none, or an exclamation mark alone. -/
def tagOr (name : Option String) (otherwise : Tag) : Tag :=
  match name with
  | none => otherwise
  | some name => if name = "!" then otherwise else Tag.ofName name

/-- With an exclamation mark alone a scalar goes by its form, even between quotes. -/
def scalarTag (plain : Bool) (name : Option String) (text : String) : Tag :=
  tagOr name (if plain || name.isSome then Tag.ofForm text else .text)

mutual
def node : Nat → Place → Reader Nat
  | 0, _ => Reader.fail
  | fuel + 1, place => do
    match ← Reader.first with
    | some (.alias name) =>
      Reader.drop
      Reader.require ((← get).anchors.lookup name)
    | _ =>
      let (name, tag) ← Reader.properties
      content fuel place name tag

def content : Nat → Place → Option String → Option String → Reader Nat
  | 0, _, _, _ => Reader.fail
  | fuel + 1, place, name, tag => do
    let list (items : Reader (List Nat)) : Reader Nat := do
      let kind := tagOr tag .list
      let number ← Reader.add (.list kind [])
      Reader.anchor name number
      Reader.drop
      Reader.fill number (.list kind (← items))
      return number
    let mapping (entries : Reader (List (Nat × Nat))) : Reader Nat := do
      let kind := tagOr tag .mapping
      let number ← Reader.add (.mapping kind [])
      Reader.anchor name number
      Reader.drop
      Reader.fill number (.mapping kind (← entries))
      return number
    let scalar (plain : Bool) (text : String) : Reader Nat := do
      let number ← Reader.add (.scalar (scalarTag plain tag text) text)
      Reader.anchor name number
      return number
    match ← Reader.first with
    | some (.plain s) =>
      Reader.drop
      scalar true s
    | some (.quoted s) =>
      Reader.drop
      scalar false s
    | some .openList => list (listItems fuel true)
    | some .openMapping => mapping (mappingEntries fuel true)
    | some .beginList => if place = .bracket then Reader.fail else list (blockItems fuel)
    | some .beginMapping => if place = .bracket then Reader.fail else mapping (blockEntries fuel)
    | t =>
      if place = .part ∧ t = some .item then do
        let kind := tagOr tag .list
        let number ← Reader.add (.list kind [])
        Reader.anchor name number
        Reader.fill number (.list kind (← flatItems fuel))
        return number
      else if name.isSome || tag.isSome then scalar true ""
      else Reader.fail

/-- A node, or null where it is left out. -/
def nodeUnless : Nat → (Option Token → Bool) → Place → Reader Nat
  | 0, _, _ => Reader.fail
  | fuel + 1, ends, place => do
    if ends (← Reader.first) then Reader.absent else node fuel place

/-- The value behind a key, if there is a colon. -/
def valueBehind : Nat → (Option Token → Bool) → Place → Reader Nat
  | 0, _, _ => Reader.fail
  | fuel + 1, ends, place => do
    match ← Reader.first with
    | some .value =>
      Reader.drop
      nodeUnless fuel ends place
    | _ => Reader.absent

/-- A key and its value, behind the mark of the key. -/
def entry : Nat → (Option Token → Bool) → Place → Reader (Nat × Nat)
  | 0, _, _ => Reader.fail
  | fuel + 1, ends, place => do
    Reader.drop
    let key ← nodeUnless fuel ends place
    let value ← valueBehind fuel ends place
    return (key, value)

def blockItems : Nat → Reader (List Nat)
  | 0 => Reader.fail
  | fuel + 1 => do
    match ← Reader.first with
    | some .item =>
      Reader.drop
      let v ← nodeUnless fuel endsItem .block
      return v :: (← blockItems fuel)
    | some .endBlock =>
      Reader.drop
      return []
    | _ => Reader.fail

/-- The items of a list that is not indented; nothing marks its end. -/
def flatItems : Nat → Reader (List Nat)
  | 0 => Reader.fail
  | fuel + 1 => do
    match ← Reader.first with
    | some .item =>
      Reader.drop
      let v ← nodeUnless fuel endsFlatItem .block
      return v :: (← flatItems fuel)
    | _ => return []

def blockEntries : Nat → Reader (List (Nat × Nat))
  | 0 => Reader.fail
  | fuel + 1 => do
    match ← Reader.first with
    | some .key =>
      let e ← entry fuel endsBlockPart .part
      return e :: (← blockEntries fuel)
    | some .endBlock =>
      Reader.drop
      return []
    | _ => Reader.fail

/-- The items of a list in brackets, a comma in front of each but the first and perhaps one at the
end; a key there stands for a mapping of one entry. -/
def listItems : Nat → Bool → Reader (List Nat)
  | 0, _ => Reader.fail
  | fuel + 1, opening => do
    if !opening then
      match ← Reader.first with
      | some .comma => Reader.drop
      | some .closeList => pure ()
      | _ => Reader.fail
    match ← Reader.first with
    | some .closeList =>
      Reader.drop
      return []
    | some .key =>
      let number ← Reader.add (.mapping .mapping [])
      Reader.fill number (.mapping .mapping [← entry fuel endsListPart .bracket])
      return number :: (← listItems fuel false)
    | _ =>
      let v ← node fuel .bracket
      return v :: (← listItems fuel false)

/-- The entries of a mapping in brackets; one without a colon has the value null. -/
def mappingEntries : Nat → Bool → Reader (List (Nat × Nat))
  | 0, _ => Reader.fail
  | fuel + 1, opening => do
    if !opening then
      match ← Reader.first with
      | some .comma => Reader.drop
      | some .closeMapping => pure ()
      | _ => Reader.fail
    match ← Reader.first with
    | some .closeMapping =>
      Reader.drop
      return []
    | some .key =>
      let e ← entry fuel endsMappingPart .bracket
      return e :: (← mappingEntries fuel false)
    | _ =>
      let key ← node fuel .bracket
      let value ← Reader.absent
      return (key, value) :: (← mappingEntries fuel false)
end

/-- The directives at the front: one version at most, which begins with 1, and no handle twice. -/
def directives : Nat → Bool → List (String × String) → Reader (List (String × String))
  | 0, _, _ => Reader.fail
  | fuel + 1, versioned, handles => do
    match ← Reader.first with
    | some (.directive d) =>
      Reader.drop
      match d with
      | .version major =>
        if versioned || major ≠ 1 then Reader.fail
        directives fuel true handles
      | .handle handle name =>
        if (handles.lookup handle).isSome then Reader.fail
        directives fuel versioned ((handle, name) :: handles)
      | .other => directives fuel versioned handles
    | _ => return handles

/-- Nothing stands between the beginning of a document and what comes next. -/
def endsDocument : Option Token → Bool
  | none | some (.directive _) | some .beginDocument | some .endDocument => true
  | _ => false

/-- The marks of a document's end, any number of them. -/
def skipEnds : Nat → Reader Unit
  | 0 => Reader.fail
  | fuel + 1 => do
    if (← Reader.first) = some .endDocument then
      Reader.drop
      skipEnds fuel

/-- The number of the outermost node, if the document holds any. -/
def outermost : Reader (Option Nat) := do
  let enough := 6 * (← get).tokens.length + 6
  let start ← Reader.first
  if start = none then return none
  let number ← match start with
    | some (.directive _) | some .beginDocument => do
      let handles ← directives enough false []
      modify fun r => { r with handles := handles ++ r.handles }
      if (← Reader.first) ≠ some .beginDocument then Reader.fail
      Reader.drop
      nodeUnless enough endsDocument .block
    | _ => node enough .block
  skipEnds enough
  if (← Reader.first) ≠ none then
    discard (directives enough false [])
    Reader.fail
  return some number

end Montage.Document
