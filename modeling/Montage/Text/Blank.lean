/-!
Blank characters, and texts cut at them: trimmed texts, words and lines. Also the letter case that
ASCII words are compared in.
-/
namespace Montage

/-- White space in the sense of line and field splitting, the four ASCII separators included. -/
def isBlank (c : Char) : Bool :=
  let n := c.toNat
  (9 ≤ n && n ≤ 13) || (28 ≤ n && n ≤ 32) || n == 0x85 || n == 0xa0 || n == 0x1680 ||
  (0x2000 ≤ n && n ≤ 0x200a) || n == 0x2028 || n == 0x2029 || n == 0x202f || n == 0x205f ||
  n == 0x3000

/-- `cs` without blanks at its ends. -/
def trim (cs : List Char) : List Char :=
  ((cs.dropWhile isBlank).reverse.dropWhile isBlank).reverse

/-- A line ends at any of these; a carriage return and a line feed after it end one line. -/
def isBreak (c : Char) : Bool :=
  let n := c.toNat
  (10 ≤ n && n ≤ 13) || (28 ≤ n && n ≤ 30) || n == 0x85 || n == 0x2028 || n == 0x2029

/-- The lines of a text; `line` is read so far, back to front. A last line that is empty is none. -/
def linesFrom : List Char → List Char → List (List Char)
  | [], line => if line.isEmpty then [] else [line.reverse]
  | '\r' :: '\n' :: cs, line => line.reverse :: linesFrom cs []
  | c :: cs, line => if isBreak c then line.reverse :: linesFrom cs [] else linesFrom cs (c :: line)

def lines (cs : List Char) : List (List Char) := linesFrom cs []

def wordsFrom : List Char → List Char → List (List Char)
  | [], word => if word.isEmpty then [] else [word.reverse]
  | c :: cs, word =>
    if isBlank c then
      if word.isEmpty then wordsFrom cs [] else word.reverse :: wordsFrom cs []
    else wordsFrom cs (c :: word)

def words (cs : List Char) : List (List Char) := wordsFrom cs []

/-- Lower case as far as ASCII words can notice it: the capital letters, the kelvin sign, and the
dotted capital I, which becomes two characters. Other characters never turn into ASCII ones. -/
def lowerChar (c : Char) : List Char :=
  if 'A' ≤ c ∧ c ≤ 'Z' then [Char.ofNat (c.toNat + 32)]
  else if c = '\u212a' then ['k']
  else if c = '\u0130' then ['i', '\u0307']
  else [c]

def lower (cs : List Char) : List Char := cs.flatMap lowerChar

/-- Whether `part` stands somewhere in `cs`. -/
def holds (part : List Char) : List Char → Bool
  | [] => part.isEmpty
  | c :: cs => part.isPrefixOf (c :: cs) || holds part cs

end Montage
