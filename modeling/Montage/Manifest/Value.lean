import Montage.Moment
import Montage.Text.Quoted
import Montage.Number.Shortest
/-!
Values of a project manifest or an export request, before anything is known about their shape, and
the texts that stand for them: the bare text of a value, and the literal that shows its kind. A
value may hold itself; where it comes round again its literal is cut short.
-/
namespace Montage

/-- What has no parts; also what a mapping can have as a key. -/
inductive Scalar where
  | null
  | truth (b : Bool)
  | whole (n : Int)
  | real (x : Float)
  | text (s : String)
  | moment (m : Moment)
  | bytes (bs : List UInt8)
  deriving DecidableEq

/-- A mapping keeps the order in which its keys were first given. -/
inductive Value where
  | scalar (s : Scalar)
  | list (items : List Value)
  | mapping (entries : List (Scalar × Value))
  /-- Two values side by side. -/
  | pair (first second : Value)
  | set (members : List Scalar)
  /-- What holds this place comes round again, so many levels above the innermost. `v` is it. -/
  | again (above : Nat) (v : Value)

namespace Scalar

def literal : Scalar → String
  | null => "None"
  | truth b => if b then "True" else "False"
  | whole n => toString n
  | real x => Shortest.text x
  | text s => Quoted.text s
  | moment m => m.literal
  | bytes bs => Quoted.bytes bs

/-- The number that a truth value, a whole number or a double equals, as an exact fraction. -/
def amount : Scalar → Option (Int × Nat)
  | truth b => some (if b then 1 else 0, 1)
  | whole n => some (n, 1)
  | real x =>
    match Exact.ofFloat x with
    | .finite negative m e => some (Exact.signed negative (Exact.top m e), Exact.bottom e)
    | _ => none
  | _ => none

/-- Keys are the same key when they are equal as texts or as numbers; NaN is one key. -/
def sameKey : Scalar → Scalar → Bool
  | null, null => true
  | text a, text b => a == b
  | real a, real b => a == b || (a.isNaN && b.isNaN)
  | moment a, moment b => a.same b
  | bytes a, bytes b => a == b
  | a, b =>
    match a.amount, b.amount with
    | some (n, d), some (n', d') => n * d' == n' * d
    | _, _ => false

def isEmpty : Scalar → Bool
  | null => true
  | truth b => !b
  | whole n => n == 0
  | real x => x == 0
  | text s => s.isEmpty
  | moment _ => false
  | bytes bs => bs.isEmpty

end Scalar

namespace Value

abbrev null : Value := .scalar .null
abbrev text (s : String) : Value := .scalar (.text s)
abbrev whole (n : Int) : Value := .scalar (.whole n)
abbrev real (x : Float) : Value := .scalar (.real x)
abbrev truth (b : Bool) : Value := .scalar (.truth b)

def setLiteral (members : List Scalar) : String :=
  if members.isEmpty then "set()"
  else "\x7b" ++ ", ".intercalate (members.map Scalar.literal) ++ "\x7d"

mutual
/-- The literal of a value inside `depth` others that are being shown. -/
def literalAt (depth : Nat) : Value → String
  | scalar s => s.literal
  | list items => "[" ++ literalItems (depth + 1) items ++ "]"
  | mapping entries => "\x7b" ++ literalEntries (depth + 1) entries ++ "\x7d"
  | pair a b => "(" ++ literalAt (depth + 1) a ++ ", " ++ literalAt (depth + 1) b ++ ")"
  | set members => setLiteral members
  | again above v =>
    if above < depth then
      match v with
      | mapping _ => "\x7b...\x7d"
      | _ => "[...]"
    else literalAt depth v

def literalItems (depth : Nat) : List Value → String
  | [] => ""
  | [v] => literalAt depth v
  | v :: vs => literalAt depth v ++ ", " ++ literalItems depth vs

def literalEntries (depth : Nat) : List (Scalar × Value) → String
  | [] => ""
  | [(k, v)] => k.literal ++ ": " ++ literalAt depth v
  | (k, v) :: es => k.literal ++ ": " ++ literalAt depth v ++ ", " ++ literalEntries depth es
end

/-- The form that shows what kind of value it is: texts are quoted. -/
def literal (v : Value) : String := v.literalAt 0

/-- The bare text: texts and moments stand for themselves. -/
def display : Value → String
  | scalar (.text s) => s
  | scalar (.moment m) => m.text
  | v => v.literal

/-- The items of a list of two, or of a pair. -/
def two? : Value → Option (Value × Value)
  | list [a, b] | pair a b => some (a, b)
  | _ => none

def bare : Value → Value
  | again _ v => v
  | v => v

/-- Absent for most purposes: null, false, zero, and whatever has no parts. -/
def isEmpty : Value → Bool
  | scalar s => s.isEmpty
  | list items => items.isEmpty
  | mapping entries => entries.isEmpty
  | pair .. => false
  | set members => members.isEmpty
  | again .. => false

end Value

/-- The entries of a mapping under construction: a key that is there already keeps its place and
takes the new value. -/
def putEntry (entries : List (Scalar × Value)) (k : Scalar) (v : Value) : List (Scalar × Value) :=
  match entries with
  | [] => [(k, v)]
  | (k', v') :: rest => if k.sameKey k' then (k', v) :: rest else (k', v') :: putEntry rest k v

def entryAt? (entries : List (Scalar × Value)) (key : String) : Option Value :=
  match entries with
  | [] => none
  | (k, v) :: rest => if k = .text key then some v.bare else entryAt? rest key

end Montage
