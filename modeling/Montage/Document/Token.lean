import Montage.Document.Property
/-!
The tokens of a document: marks and scalars, with the beginning and end of each indented block made
explicit. A key is known as a key only when its colon turns up, so the mark that announces it is put
in front of a token that has been read already; a key lies on one line and has at most 1024
characters. A text that is no sequence of tokens ends in a token that says why.
-/
namespace Montage.Document

inductive Token where
  | plain (text : String)
  | quoted (text : String)
  /-- What follows is the key of an entry. -/
  | key
  /-- What follows is the value of an entry. -/
  | value
  /-- What follows is an item of a list, one dash. -/
  | item
  | comma
  | openList
  | closeList
  | openMapping
  | closeMapping
  | beginList
  | beginMapping
  | endBlock
  | beginDocument
  | endDocument
  | anchor (name : String)
  /-- The node with that anchor once more. -/
  | alias (name : String)
  | tag (word : TagWord)
  | directive (d : Directive)
  /-- There is no token here. -/
  | broken (why : Fault)
  deriving DecidableEq

structure Position where
  rest : List Char
  /-- Characters before here. -/
  index : Nat := 0
  line : Nat := 0
  column : Nat := 0

namespace Position

def next (p : Position) : Position :=
  match p.rest with
  | [] => p
  | c :: rest =>
    if isNewline c then ⟨rest, p.index + 1, p.line + 1, 0⟩
    else ⟨rest, p.index + 1, p.line, if c = '\uFEFF' then p.column else p.column + 1⟩

def advance : Nat → Position → Position
  | 0, p => p
  | n + 1, p => advance n p.next

/-- The position at which `rest`, an end of the document, begins. -/
def upTo (p : Position) (rest : List Char) : Position := p.advance (p.rest.length - rest.length)

end Position

/-- A token that is the beginning of a key if a colon follows. -/
structure Candidate where
  /-- The tokens before it. -/
  count : Nat
  /-- Nothing but a key can stand there. -/
  required : Bool
  index : Nat
  line : Nat
  column : Nat

structure Scan where
  position : Position
  /-- The tokens so far, the last one first. -/
  tokens : List Token := []
  /-- A key of a block may begin here. -/
  keyAllowed : Bool := true
  /-- The column of the innermost block. -/
  indent : Int := -1
  /-- The columns of the blocks around it. -/
  indents : List Int := []
  candidate : Option Candidate := none
  /-- The candidates outside the open brackets, the innermost first. -/
  candidates : List (Option Candidate) := []

namespace Scan

def inBrackets (s : Scan) : Bool := !s.candidates.isEmpty

def push (s : Scan) (t : Token) : Scan := { s with tokens := t :: s.tokens }

/-- Puts a token in front of all but the first `count`. -/
def insert (s : Scan) (count : Nat) (t : Token) : Scan :=
  { s with tokens := s.tokens.insertIdx (s.tokens.length - count) t }

def step (s : Scan) (n : Nat) : Scan := { s with position := s.position.advance n }

/-- Spaces, comments and line breaks up to the next token: what follows, and whether a line break
was among them. -/
def gap : Bool → List Char → List Char × Bool
  | _, [] => ([], false)
  | comment, c :: cs =>
    if isNewline c then ((gap false cs).1, true)
    else if comment || c == '#' then gap true cs
    else if c == ' ' then gap false cs
    else (c :: cs, false)

def skipGap (s : Scan) : Scan :=
  let (rest, crossed) := gap false s.position.rest
  { s with
    position := s.position.upTo rest
    keyAllowed := s.keyAllowed || (crossed && !s.inBrackets) }

/-- A candidate is given up on another line, or when its key would be too long. -/
def isStale (s : Scan) (c : Candidate) : Bool :=
  c.line != s.position.line || s.position.index > c.index + 1024

def dropStale (s : Scan) : Option Scan :=
  let stale := (s.candidate :: s.candidates).filterMap fun c => c.filter s.isStale
  if stale.any Candidate.required then none
  else
    let fresh (c : Option Candidate) := c.filter (!s.isStale ·)
    some { s with candidate := fresh s.candidate, candidates := s.candidates.map fresh }

def dropCandidate (s : Scan) : Option Scan :=
  if s.candidate.any Candidate.required then none else some { s with candidate := none }

def saveCandidate (s : Scan) : Option Scan :=
  if s.keyAllowed then do
    let s ← s.dropCandidate
    let p := s.position
    let required := !s.inBrackets && s.indent == p.column
    return { s with candidate := some ⟨s.tokens.length, required, p.index, p.line, p.column⟩ }
  else some s

/-- Ends the blocks that are indented by more than `column`. -/
def endBlocks (column : Int) : Int → List Int → List Token → Int × List Int × List Token
  | indent, outer :: more, tokens =>
    if indent > column then endBlocks column outer more (.endBlock :: tokens)
    else (indent, outer :: more, tokens)
  | indent, [], tokens => (indent, [], tokens)

def unwind (s : Scan) (column : Int) : Scan :=
  if s.inBrackets then s
  else
    let (indent, indents, tokens) := endBlocks column s.indent s.indents s.tokens
    { s with indent, indents, tokens }

/-- A block that begins at `column`, unless one did already; `start` goes before the last tokens. -/
def beginBlock (s : Scan) (column count : Nat) (start : Token) : Scan :=
  if s.indent < column then
    { s.insert count start with indent := column, indents := s.indent :: s.indents }
  else s

def document (s : Scan) (t : Token) : Option Scan := do
  let s ← (s.unwind (-1)).dropCandidate
  return { (s.push t).step 3 with keyAllowed := false }

def openBracket (s : Scan) (t : Token) : Option Scan := do
  let s ← s.saveCandidate
  return { (s.push t).step 1 with
    candidate := none, candidates := s.candidate :: s.candidates, keyAllowed := true }

def closeBracket (s : Scan) (t : Token) : Option Scan := do
  let s ← s.dropCandidate
  match s.candidates with
  | candidate :: candidates =>
    return { (s.push t).step 1 with candidate, candidates, keyAllowed := false }
  | [] => none

def comma (s : Scan) : Option Scan := do
  let s ← s.dropCandidate
  return { (s.push .comma).step 1 with keyAllowed := true }

/-- A mark of a block may stand only where a key may, and begins a block at its column. -/
def blockMark (s : Scan) (start : Token) : Option Scan :=
  if s.inBrackets then some s
  else if s.keyAllowed then some (s.beginBlock s.position.column s.tokens.length start)
  else none

def item (s : Scan) : Option Scan := do
  let s ← (← s.blockMark .beginList).dropCandidate
  return { (s.push .item).step 1 with keyAllowed := true }

def key (s : Scan) : Option Scan := do
  let s ← (← s.blockMark .beginMapping).dropCandidate
  return { (s.push .key).step 1 with keyAllowed := !s.inBrackets }

/-- A colon: what stood before it on the line is the key. -/
def value (s : Scan) : Option Scan :=
  match s.candidate with
  | some c =>
    let s := s.insert c.count .key
    let s := if s.inBrackets then s else s.beginBlock c.column c.count .beginMapping
    some { (s.push .value).step 1 with candidate := none, keyAllowed := false }
  | none => do
    let s ← s.blockMark .beginMapping
    return { (s.push .value).step 1 with keyAllowed := !s.inBrackets }

/-- Adds a token that ends where `rest` begins. -/
def take (s : Scan) (t : Token) (rest : List Char) (keyAllowed : Bool) : Scan :=
  { s.push t with position := s.position.upTo rest, keyAllowed }

def blockText (s : Scan) (fold : Bool) : Option Scan := do
  let s ← s.dropCandidate
  let (text, rest) ← block fold s.indent (s.position.rest.drop 1)
  return s.take (.quoted (String.ofList text)) rest true

def quotedText (s : Scan) (double : Bool) : Except Fault Scan := do
  let s ← orMalformed s.saveCandidate
  let cs := s.position.rest.drop 1
  let (text, rest) ← Document.quoted double (cs.length + 1) cs
  return s.take (.quoted (String.ofList text)) rest false

def plainText (s : Scan) : Option Scan := do
  let s ← s.saveCandidate
  let cs := s.position.rest
  let (text, rest, crossed) := Document.plain s.inBrackets (s.indent + 1) (cs.length + 1) cs
  return s.take (.plain (String.ofList text)) rest crossed

def nameMark (s : Scan) (t : String → Token) : Option Scan := do
  let s ← s.saveCandidate
  let (name, rest) ← anchorName? (s.position.rest.drop 1)
  return s.take (t (String.ofList name)) rest false

def tagMark (s : Scan) : Option Scan := do
  let s ← s.saveCandidate
  let (word, rest) ← tagWord? (s.position.rest.drop 1)
  return s.take (.tag word) rest false

def directiveLine (s : Scan) : Option Scan := do
  let s ← (s.unwind (-1)).dropCandidate
  let (directive, rest) ← directive? (s.position.rest.drop 1)
  return s.take (.directive directive) rest false

def reserved : List Char :=
  ['-', '?', ':', ',', '[', ']', '\x7b', '\x7d', '#', '&', '*', '!', '|', '>', '\'', '"', '%', '@',
    '\x60']

/-- A plain scalar begins here: its first character is no mark, or one that has another character
right behind it and is no mark there. -/
def atPlain (s : Scan) : Bool :=
  match s.position.rest with
  | [] => false
  | c :: cs =>
    !(isGap c || reserved.contains c) ||
      (!atGap cs && (c == '-' || (!s.inBrackets && (c == '?' || c == ':'))))

/-- The next token, from the first character that is no gap. -/
def token (s : Scan) : Except Fault Scan :=
  let cs := s.position.rest
  let atStart := s.position.column == 0
  let marked := atStart && atMarker cs
  match cs with
  | [] => malformed
  | c :: more =>
    if c == '"' then s.quotedText true
    else if c == '\'' then s.quotedText false
    else orMalformed <|
      if atStart && c == '%' then s.directiveLine
      else if marked && c == '-' then s.document .beginDocument
      else if marked && c == '.' then s.document .endDocument
      else if c == '[' then s.openBracket .openList
      else if c == '\x7b' then s.openBracket .openMapping
      else if c == ']' then s.closeBracket .closeList
      else if c == '\x7d' then s.closeBracket .closeMapping
      else if c == ',' then s.comma
      else if c == '-' && atGap more then s.item
      else if c == '?' && (s.inBrackets || atGap more) then s.key
      else if c == ':' && (s.inBrackets || atGap more) then s.value
      else if c == '*' then s.nameMark .alias
      else if c == '&' then s.nameMark .anchor
      else if c == '!' then s.tagMark
      else if c == '|' && !s.inBrackets then s.blockText false
      else if c == '>' && !s.inBrackets then s.blockText true
      else if s.atPlain then s.plainText
      else none

/-- The tokens in front of which no mark of a key can be put any more. -/
def ready (s : Scan) : List Token :=
  let pending := (s.candidate :: s.candidates).filterMap fun c => c.map Candidate.count
  s.tokens.reverse.take (pending.foldl min s.tokens.length)

/-- The tokens that are ready, and why there are no others. -/
def broken (s : Scan) (why : Fault) : List Token := s.ready ++ [.broken why]

/-- Each token takes at least one character, so `fuel` more than there are characters is enough. -/
def allTokens : Nat → Scan → List Token
  | 0, s => s.broken .malformedDocument
  | fuel + 1, s =>
    match s.dropStale with
    | none => s.broken .malformedDocument
    | some before =>
      match before.skipGap.dropStale with
      | none => before.broken .malformedDocument
      | some s =>
        if s.position.rest.isEmpty then
          match (s.unwind (-1)).dropCandidate with
          | some s => s.tokens.reverse
          | none => before.broken .malformedDocument
        else
          match (s.unwind s.position.column).token with
          | .ok s => allTokens fuel s
          | .error why => before.broken why

end Scan

def isPrintable (c : Char) : Bool :=
  c == '\t' || c == '\n' || c == '\r' || (' ' ≤ c && c ≤ '~') || c == '\x85' ||
  ('\xa0' ≤ c && c ≤ '\ud7ff') || ('\ue000' ≤ c && c ≤ '\ufffd') || 0x10000 ≤ c.toNat

/-- The tokens of a document, in which all line breaks are written alike. A mark of the byte order
may stand in front. -/
def tokensOf (cs : List Char) : List Token :=
  if cs.all isPrintable then
    let cs := unify cs
    let start : Position := ⟨cs, 0, 0, 0⟩
    Scan.allTokens (cs.length + 1) ⟨if cs.head? = some '\uFEFF' then start.next else start,
      [], true, -1, [], none, []⟩
  else [.broken .malformedDocument]

end Montage.Document
