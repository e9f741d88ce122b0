import Montage.Document.Written
/-!
What stands around the scalars of a document: names of anchors, tags, and the directives in front
of a document. A tag is a handle and a suffix, or the whole name of a tag between angle brackets.
-/
namespace Montage.Document

def isNameChar (c : Char) : Bool := c.isAlphanum || c == '-' || c == '_'

/-- Nothing, a space or a line break comes next. -/
def atWordEnd : List Char → Bool
  | [] => true
  | c :: _ => c == ' ' || isNewline c

/-- The name of an anchor, which some marks may follow closely. -/
def anchorName? (cs : List Char) : Option (List Char × List Char) :=
  let name := cs.takeWhile isNameChar
  let rest := cs.dropWhile isNameChar
  let closely := ['?', ':', ',', ']', '\x7d', '%', '@', '\x60']
  if !name.isEmpty && (atGap rest || rest.head?.any closely.contains) then some (name, rest)
  else none

/-- Characters that stand for themselves in the name of a tag. -/
def isTagChar (c : Char) : Bool :=
  c.isAlphanum ||
  ['-', ';', '/', '?', ':', '@', '&', '=', '+', '$', ',', '_', '.', '!', '~', '*', '\'', '(', ')',
    '[', ']'].contains c

/-- The bytes of a run of percent signs with two digits each. -/
def percentBytes : List Char → Option (List UInt8 × List Char)
  | '%' :: a :: b :: cs => do
    let byte := 16 * (← hexDigit? a) + (← hexDigit? b)
    let (bytes, rest) ← percentBytes cs
    return (UInt8.ofNat byte :: bytes, rest)
  | '%' :: _ => none
  | cs => some ([], cs)

/-- The name of a tag or a part of it. -/
def tagPart : Nat → List Char → Option (List Char × List Char)
  | 0, cs => some ([], cs)
  | fuel + 1, cs =>
    match cs with
    | '%' :: _ => do
      let (bytes, rest) ← percentBytes cs
      let text ← String.fromUTF8? ⟨bytes.toArray⟩
      let (more, rest) ← tagPart fuel rest
      return (text.toList ++ more, rest)
    | c :: cs =>
      if isTagChar c then (tagPart fuel cs).map fun (more, rest) => (c :: more, rest)
      else some ([], c :: cs)
    | [] => some ([], [])

/-- A part of a name that is not empty. -/
def tagName? (cs : List Char) : Option (List Char × List Char) := do
  let (name, rest) ← tagPart (cs.length + 1) cs
  if name.isEmpty then none else some (name, rest)

/-- A handle: an exclamation mark, or a name between two. -/
def tagHandle? : List Char → Option (List Char × List Char)
  | '!' :: cs =>
    if cs.head? = some ' ' then some (['!'], cs)
    else match cs.dropWhile isNameChar with
      | '!' :: rest => some ('!' :: cs.takeWhile isNameChar ++ ['!'], rest)
      | _ => none
  | _ => none

/-- A tag as it is written, without a handle when its name is whole. -/
structure TagWord where
  handle : Option String
  suffix : String
  deriving DecidableEq, Repr

/-- The tag that begins with the exclamation mark in front of `cs`. -/
def tagWord? (cs : List Char) : Option (TagWord × List Char) := do
  let (word, rest) ← match cs with
    | '<' :: cs => do
      let (name, rest) ← tagName? cs
      match rest with
      | '>' :: rest => some (⟨none, String.ofList name⟩, rest)
      | _ => none
    | cs =>
      if atGap cs then some (⟨none, "!"⟩, cs)
      else do
        let ahead := cs.takeWhile fun c => !(c == ' ' || isNewline c)
        let (handle, rest) ← if ahead.contains '!' then tagHandle? ('!' :: cs) else some (['!'], cs)
        let (suffix, rest) ← tagName? rest
        some (⟨some (String.ofList handle), String.ofList suffix⟩, rest)
  if atWordEnd rest then some (word, rest) else none

inductive Directive where
  | version (major : Nat)
  /-- What a handle stands for. -/
  | handle (handle name : String)
  | other
  deriving DecidableEq, Repr

def versionNumber? (cs : List Char) : Option (Nat × List Char) :=
  let digits := cs.takeWhile Char.isDigit
  if digits.isEmpty then none
  else some (Decimal.digitsValue 0 digits, cs.dropWhile Char.isDigit)

/-- The directive behind a percent sign, and what follows its line. -/
def directive? (cs : List Char) : Option (Directive × List Char) := do
  let name := String.ofList (cs.takeWhile isNameChar)
  let rest := cs.dropWhile isNameChar
  if name = "" ∨ !atWordEnd rest then none
  let (directive, rest) ←
    if name = "YAML" then do
      let (major, rest) ← versionNumber? (rest.dropWhile (· == ' '))
      match rest with
      | '.' :: rest => do
        let (_, rest) ← versionNumber? rest
        if atWordEnd rest then some (Directive.version major, rest) else none
      | _ => none
    else if name = "TAG" then do
      let (handle, rest) ← tagHandle? (rest.dropWhile (· == ' '))
      if rest.head? ≠ some ' ' then none
      let (name, rest) ← tagName? (rest.dropWhile (· == ' '))
      if atWordEnd rest then some (.handle (String.ofList handle) (String.ofList name), rest)
      else none
    else some (.other, rest.dropWhile (!isNewline ·))
  return (directive, ← restOfLine? rest)

end Montage.Document
