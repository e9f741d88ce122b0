import Montage.Document.Timestamp
import Montage.Number.Decimal
/-!
Tags: what kind of value a node of a document stands for. A scalar without a tag that is written
plain has the first kind whose form it has: a truth value, a decimal fraction, a whole number, one
of the marks that mean something as keys, null, or a moment; otherwise it is a text. Whole numbers may
be binary, octal, hexadecimal or count by sixties, a fraction needs its point, and underscores may
stand between digits. A line feed at the end is no matter.
-/
namespace Montage.Document

inductive Tag where
  | null
  | truth
  | whole
  | real
  | bytes
  | moment
  /-- Pairs in their order. -/
  | pairs
  | set
  | text
  | list
  | mapping
  /-- The key under which entries of other mappings are taken over. -/
  | merge
  /-- The key of a mapping's plain value. -/
  | value
  | unknown
  deriving DecidableEq, Repr

def Tag.named : List (String × Tag) :=
  [("null", .null), ("bool", .truth), ("int", .whole), ("float", .real), ("binary", .bytes),
   ("timestamp", .moment), ("omap", .pairs), ("pairs", .pairs), ("set", .set), ("str", .text),
   ("seq", .list), ("map", .mapping), ("merge", .merge), ("value", .value)]

def tagStem : String := "tag:yaml.org,2002:"

def Tag.ofName (name : String) : Tag :=
  let stem := tagStem.toList
  if stem.isPrefixOf name.toList then
    (Tag.named.lookup (String.ofList (name.toList.drop stem.length))).getD .unknown
  else .unknown

def nullWords : List String := ["~", "null", "Null", "NULL"]

def truthWords : List String :=
  ["yes", "Yes", "YES", "true", "True", "TRUE", "on", "On", "ON",
   "no", "No", "NO", "false", "False", "FALSE", "off", "Off", "OFF"]

def isDigitOrBar (c : Char) : Bool := c.isDigit || c == '_'

/-- A text cut at each of its colons; `part` is read so far, back to front. -/
def splitColons : List Char → List Char → List (List Char)
  | [], part => [part.reverse]
  | c :: cs, part =>
    if c = ':' then part.reverse :: splitColons cs [] else splitColons cs (c :: part)

/-- A later part of a number that counts by sixties: one digit, or two below sixty. -/
def isSixty : List Char → Bool
  | [a] => a.isDigit
  | [a, b] => '0' ≤ a && a ≤ '5' && b.isDigit
  | _ => false

def isSixties (cs : List Char) : Bool :=
  match splitColons cs [] with
  | first :: more =>
    first.head?.any Char.isDigit && first.all isDigitOrBar && !more.isEmpty && more.all isSixty
  | [] => false

def isOnlyOf (allowed : Char → Bool) (cs : List Char) : Bool := !cs.isEmpty && cs.all allowed

def isHex (c : Char) : Bool :=
  c.isDigit || ('a' ≤ c && c ≤ 'f') || ('A' ≤ c && c ≤ 'F') || c == '_'

def isWholeForm (cs : List Char) : Bool :=
  match (Decimal.splitSign cs).2 with
  | ['0'] => true
  | '0' :: 'b' :: ds => isOnlyOf (fun c => c == '0' || c == '1' || c == '_') ds
  | '0' :: 'x' :: ds => isOnlyOf isHex ds
  | '0' :: ds => isOnlyOf (fun c => ('0' ≤ c && c ≤ '7') || c == '_') ds
  | c :: ds => c.isDigit && (ds.all isDigitOrBar || isSixties (c :: ds))
  | [] => false

/-- A power of ten with its sign, or nothing. -/
def isPower : List Char → Bool
  | [] => true
  | e :: sign :: ds =>
    (e == 'e' || e == 'E') && (sign == '+' || sign == '-') && isOnlyOf Char.isDigit ds
  | _ => false

/-- Digits, a point, perhaps more digits and a power; or a point and digits without a sign. -/
def isPointed (signed : Bool) (cs : List Char) : Bool :=
  let ahead := cs.takeWhile isDigitOrBar
  match cs.dropWhile isDigitOrBar with
  | '.' :: behind =>
    isPower (behind.dropWhile isDigitOrBar) &&
    (if ahead.isEmpty then !signed && behind.head?.any Char.isDigit
     else ahead.head?.any Char.isDigit)
  | _ => false

/-- The form of a decimal fraction; the last part of a count by sixties may have one. -/
def isRealForm (cs : List Char) : Bool :=
  let rest := (Decimal.splitSign cs).2
  let signed := rest.length < cs.length
  String.ofList rest ∈ [".inf", ".Inf", ".INF"] ||
  (!signed && String.ofList rest ∈ [".nan", ".NaN", ".NAN"]) ||
  isPointed signed rest ||
  (rest.contains '.' && isSixties (rest.takeWhile (· != '.')) &&
    ((rest.dropWhile (· != '.')).drop 1).all isDigitOrBar)

/-- A text without the line feed at its end. -/
def withoutFeed (cs : List Char) : List Char :=
  if cs.getLast? = some '\n' then cs.dropLast else cs

def Tag.ofForm (s : String) : Tag :=
  let cs := withoutFeed s.toList
  let word := String.ofList cs
  if s = "" then .null
  else if word ∈ truthWords then .truth
  else if isRealForm cs then .real
  else if isWholeForm cs then .whole
  else if word = "<<" then .merge
  else if word ∈ nullWords then .null
  else if isTimestamp cs then .moment
  else if word = "=" then .value
  else if word ∈ ["!", "&", "*"] then .unknown
  else .text

end Montage.Document
