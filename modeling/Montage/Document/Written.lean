import Montage.Fault
import Montage.Text.Half
/-!
The ways a scalar is written in a document: plain, between quotes, or as a block of indented lines.
Each reader answers with the text and what follows it. Line breaks inside are folded as YAML 1.1
has it.
-/
namespace Montage.Document

def malformed : Except Fault α := .error .malformedDocument

def orMalformed : Option α → Except Fault α
  | some x => .ok x
  | none => malformed

/-- Carriage returns, alone or before a line feed, and next-line marks become line feeds. -/
def unify : List Char → List Char
  | [] => []
  | '\r' :: '\n' :: cs => '\n' :: unify cs
  | c :: cs => (if c = '\r' ∨ c = '\x85' then '\n' else c) :: unify cs

def isNewline (c : Char) : Bool := c == '\n' || c == '\u2028' || c == '\u2029'

/-- What ends a word: a space, a tab or a line break. -/
def isGap (c : Char) : Bool := c == ' ' || c == '\t' || isNewline c

/-- Nothing, or something that ends a word, comes next. -/
def atGap : List Char → Bool
  | [] => true
  | c :: _ => isGap c

/-- A line of three dashes or three dots begins here. -/
def atMarker : List Char → Bool
  | '-' :: '-' :: '-' :: cs => atGap cs
  | '.' :: '.' :: '.' :: cs => atGap cs
  | _ => false

/-- The space that folded line breaks leave: one break is a space, further ones stay. -/
def folded (first : Char) (more : List Char) : List Char :=
  if first ≠ '\n' then first :: more else if more.isEmpty then [' '] else more

/-! ### Plain -/

def inFlow (c : Char) : Bool := c == ',' || c == '[' || c == ']' || c == '\x7b' || c == '\x7d'

def atColon (flow : Bool) : List Char → Bool
  | ':' :: [] => true
  | ':' :: c :: _ => isGap c || (flow && inFlow c)
  | _ => false

def plainRun (flow : Bool) : List Char → List Char × List Char
  | [] => ([], [])
  | c :: cs =>
    if isGap c || atColon flow (c :: cs) || (flow && (inFlow c || c == '?')) then ([], c :: cs)
    else
      let (run, rest) := plainRun flow cs
      (c :: run, rest)

/-- Blank lines and indentation after a line break: the further breaks, what follows, and its
column. A marker line is where they end. -/
def blankLines : List Char → Nat → Bool → List Char × List Char × Nat × Bool
  | [], column, _ => ([], [], column, false)
  | c :: cs, column, fresh =>
    if fresh && atMarker (c :: cs) then ([], c :: cs, column, true)
    else if c = ' ' then blankLines cs (column + 1) false
    else if isNewline c then
      let (breaks, rest, column, marker) := blankLines cs 0 true
      (c :: breaks, rest, column, marker)
    else ([], c :: cs, column, false)

structure Gap where
  text : List Char
  rest : List Char
  /-- The column of the next line, when a line break was crossed. -/
  column : Option Nat

def plainGap (cs : List Char) : Gap :=
  let spaces := cs.takeWhile (· == ' ')
  match cs.dropWhile (· == ' ') with
  | c :: rest =>
    if isNewline c then
      let (breaks, after, column, marker) := blankLines rest 0 true
      ⟨if marker then [] else folded c breaks, after, some column⟩
    else ⟨spaces, c :: rest, none⟩
  | [] => ⟨spaces, [], none⟩

/-- A plain scalar whose lines are indented by at least `indent`. The last answer tells whether a
line break stands behind it. -/
def plain (flow : Bool) (indent : Int) : Nat → List Char → List Char × List Char × Bool
  | 0, cs => ([], cs, false)
  | fuel + 1, cs =>
    let (run, rest) := plainRun flow cs
    let gap := plainGap rest
    let stop := gap.text.isEmpty || gap.rest.head? == some '#' ||
      (!flow && gap.column.any fun c => (c : Int) < indent) ||
      (plainRun flow gap.rest).1.isEmpty
    if stop then (run, gap.rest, gap.column.isSome)
    else
      let (more, rest, crossed) := plain flow indent fuel gap.rest
      (run ++ gap.text ++ more, rest, crossed)

/-! ### Between quotes -/

def hexDigit? (c : Char) : Option Nat :=
  if c.isDigit then some (c.toNat - 48)
  else if 'a' ≤ c ∧ c ≤ 'f' then some (c.toNat - 87)
  else if 'A' ≤ c ∧ c ≤ 'F' then some (c.toNat - 55)
  else none

/-- The character of a code. Codes of 32 bits can be written, but most name no character. -/
def charNamed (n : Nat) : Except Fault Char :=
  if n < 0x110000 then .ok (charOfCode n)
  else if n < 0x80000000 then .error (.misused .codeTooLarge)
  else .error .tooLarge

/-- A character given by `width` hexadecimal digits. -/
def coded : Nat → Nat → List Char → Except Fault (Char × List Char)
  | 0, n, cs => do return (← charNamed n, cs)
  | _ + 1, _, [] => malformed
  | width + 1, n, c :: cs => do coded width (16 * n + (← orMalformed (hexDigit? c))) cs

def escapes : List (Char × Char) :=
  [('0', '\x00'), ('a', '\x07'), ('b', '\x08'), ('t', '\t'), ('\t', '\t'), ('n', '\n'),
   ('v', '\x0b'), ('f', '\x0c'), ('r', '\r'), ('e', '\x1b'), (' ', ' '), ('"', '"'), ('\\', '\\'),
   ('/', '/'), ('N', '\x85'), ('_', '\xa0'), ('L', '\u2028'), ('P', '\u2029')]

/-- Blank lines inside quotes; a marker line is not allowed there. -/
def quotedLines : List Char → Bool → Except Fault (List Char × List Char)
  | [], _ => .ok ([], [])
  | c :: cs, fresh =>
    if fresh && atMarker (c :: cs) then malformed
    else if c = ' ' ∨ c = '\t' then quotedLines cs false
    else if isNewline c then do
      let (breaks, rest) ← quotedLines cs true
      return (c :: breaks, rest)
    else .ok ([], c :: cs)

def isSpace (c : Char) : Bool := c == ' ' || c == '\t'

/-- The text up to the closing quote, and what follows that. -/
def quoted (double : Bool) : Nat → List Char → Except Fault (List Char × List Char)
  | 0, _ => malformed
  | _ + 1, [] => malformed
  | fuel + 1, c :: cs =>
    let keep (text rest : List Char) : Except Fault (List Char × List Char) := do
      let (more, after) ← quoted double fuel rest
      return (text ++ more, after)
    if double && c == '"' then .ok ([], cs)
    else if !double && c == '\'' then
      match cs with
      | '\'' :: rest => keep ['\''] rest
      | _ => .ok ([], cs)
    else if double && c == '\\' then
      match cs with
      | 'x' :: rest => do
        let (d, rest) ← coded 2 0 rest
        keep [d] rest
      | 'u' :: rest => do
        let (d, rest) ← coded 4 0 rest
        keep [d] rest
      | 'U' :: rest => do
        let (d, rest) ← coded 8 0 rest
        keep [d] rest
      | d :: rest =>
        if isNewline d then do
          let (breaks, rest) ← quotedLines rest true
          keep breaks rest
        else do
          let e ← orMalformed (escapes.lookup d)
          keep [e] rest
      | [] => malformed
    else if isGap c then
      let spaces := (c :: cs).takeWhile isSpace
      match (c :: cs).dropWhile isSpace with
      | [] => malformed
      | d :: rest =>
        if isNewline d then do
          let (breaks, rest) ← quotedLines rest true
          keep (folded d breaks) rest
        else keep spaces (d :: rest)
    else keep [c] cs

/-! ### Blocks -/

/-- How the end of a block is kept: without a mark one line break, with `-` none, with `+` all. -/
inductive Chomp where
  | clip
  | strip
  | keep
  deriving DecidableEq

def chompOf? (c : Char) : Option Chomp :=
  if c = '+' then some .keep else if c = '-' then some .strip else none

def widthOf? (c : Char) : Option Nat := if '1' ≤ c ∧ c ≤ '9' then some (c.toNat - 48) else none

/-- The marks behind `|` or `>`: how the end is kept and how deep the block is indented. -/
def blockMarks : List Char → Chomp × Option Nat × List Char
  | c :: d :: cs =>
    match chompOf? c, widthOf? d, widthOf? c, chompOf? d with
    | some m, some w, _, _ => (m, some w, cs)
    | some m, none, _, _ => (m, none, d :: cs)
    | none, _, some w, some m => (m, some w, cs)
    | none, _, some w, none => (.clip, some w, d :: cs)
    | none, _, none, _ => (.clip, none, c :: d :: cs)
  | [c] =>
    match chompOf? c, widthOf? c with
    | some m, _ => (m, none, [])
    | none, some w => (.clip, some w, [])
    | none, none => (.clip, none, [c])
  | [] => (.clip, none, [])

/-- The rest of a line: spaces and perhaps a comment. -/
def restOfLine? (cs : List Char) : Option (List Char) :=
  let rest := cs.dropWhile (· == ' ')
  let rest := if rest.head? == some '#' then rest.dropWhile (!isNewline ·) else rest
  match rest with
  | [] => some []
  | c :: cs => if isNewline c then some cs else none

/-- Up to `limit` spaces: how many, and what follows. -/
def spacesUpTo : Nat → List Char → Nat × List Char
  | limit + 1, ' ' :: cs =>
    let (n, rest) := spacesUpTo limit cs
    (n + 1, rest)
  | _, cs => (0, cs)

/-- Line breaks with at most `indent` spaces before each: the breaks, the column, the rest. -/
def blockBreaks (indent : Nat) : Nat → List Char → List Char × Nat × List Char
  | 0, cs => ([], 0, cs)
  | fuel + 1, cs =>
    match spacesUpTo indent cs with
    | (column, c :: rest) =>
      if isNewline c then
        let (breaks, column, rest) := blockBreaks indent fuel rest
        (c :: breaks, column, rest)
      else ([], column, c :: rest)
    | (column, []) => ([], column, [])

/-- Leading blank lines and spaces: the breaks, the column, the deepest column, the rest. -/
def blockStart : List Char → Nat → Nat → List Char × Nat × Nat × List Char
  | [], column, deepest => ([], column, deepest, [])
  | c :: cs, column, deepest =>
    if c = ' ' then blockStart cs (column + 1) (max deepest (column + 1))
    else if isNewline c then
      let (breaks, column, deepest, rest) := blockStart cs 0 deepest
      (c :: breaks, column, deepest, rest)
    else ([], column, deepest, c :: cs)

/-- The lines of a block, given the breaks before the first and the column where it starts: the
text, the break after its last line, further breaks, and what follows. -/
def blockLines (fold : Bool) (indent : Nat) :
    Nat → List Char → Nat → List Char → List Char × List Char × List Char × List Char
  | 0, breaks, _, cs => ([], [], breaks, cs)
  | fuel + 1, breaks, column, cs =>
    if column ≠ indent ∨ cs.isEmpty then ([], [], breaks, cs)
    else
      let line := cs.takeWhile (!isNewline ·)
      let ending := (cs.dropWhile (!isNewline ·)).take 1
      let (breaks', column', rest) :=
        blockBreaks indent cs.length ((cs.dropWhile (!isNewline ·)).drop 1)
      if column' = indent ∧ !rest.isEmpty then
        let joint :=
          if fold && ending == ['\n'] && !(line.head?.any isSpace) && !(rest.head?.any isSpace) then
            if breaks'.isEmpty then [' '] else []
          else ending
        let (more, last, after, rest) := blockLines fold indent fuel breaks' column' rest
        (breaks ++ line ++ joint ++ more, last, after, rest)
      else (breaks ++ line, ending, breaks', rest)

/-- A block scalar after its `|` or `>`, in a node indented by `parent`. -/
def block (fold : Bool) (parent : Int) (cs : List Char) : Option (List Char × List Char) := do
  let (chomp, width, rest) := blockMarks cs
  if !atGap rest ∨ rest.head? = some '\t' then none
  let rest ← restOfLine? rest
  let least := (max 1 (parent + 1)).toNat
  let (breaks, column, indent, rest) := match width with
    | some w =>
      let (breaks, column, rest) := blockBreaks (least + w - 1) rest.length rest
      (breaks, column, least + w - 1, rest)
    | none =>
      let (breaks, column, deepest, rest) := blockStart rest 0 0
      (breaks, column, max least deepest, rest)
  let (text, ending, after, rest) := blockLines fold indent (rest.length + 1) breaks column rest
  let text := match chomp with
    | .strip => text
    | .clip => text ++ ending
    | .keep => text ++ ending ++ after
  some (text, rest)

end Montage.Document
