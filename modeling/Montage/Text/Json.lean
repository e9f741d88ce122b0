import Montage.Text.Quoted
import Montage.Number.Shortest
/-!
The JSON texts that the command line prints: members in the order given, other than ASCII escaped
by UTF-16 units, on one line or indented by two spaces a level.
-/
namespace Montage

inductive Json where
  | null
  | truth (b : Bool)
  | whole (n : Int)
  | real (x : Float)
  | text (s : String)
  | list (items : List Json)
  | record (members : List (String × Json))
  deriving Inhabited

namespace Json

def unit (n : Nat) : List Char := '\\' :: 'u' :: Quoted.hex 4 n

def units (c : Char) : List Char :=
  let n := codeOf c
  if n < 0x10000 then unit n
  else unit (0xd800 + (n - 0x10000) / 0x400) ++ unit (0xdc00 + (n - 0x10000) % 0x400)

def escape (c : Char) : List Char :=
  if c = '"' ∨ c = '\\' then ['\\', c]
  else if c = '\n' then ['\\', 'n']
  else if c = '\r' then ['\\', 'r']
  else if c = '\t' then ['\\', 't']
  else if c = '\x08' then ['\\', 'b']
  else if c = '\x0c' then ['\\', 'f']
  else if ' ' ≤ c ∧ c ≤ '~' then [c]
  else units c

def quoted (s : String) : String := String.ofList ('"' :: s.toList.flatMap escape ++ ['"'])

mutual
def line : Json → String
  | null => "null"
  | truth b => if b then "true" else "false"
  | whole n => toString n
  | real x => Shortest.text x
  | text s => quoted s
  | list items => "[" ++ lineItems items ++ "]"
  | record members => "\x7b" ++ lineMembers members ++ "\x7d"

def lineItems : List Json → String
  | [] => ""
  | [j] => line j
  | j :: js => line j ++ ", " ++ lineItems js

def lineMembers : List (String × Json) → String
  | [] => ""
  | [(k, j)] => quoted k ++ ": " ++ line j
  | (k, j) :: ms => quoted k ++ ": " ++ line j ++ ", " ++ lineMembers ms
end

def indent (depth : Nat) : String := "\n" ++ String.ofList (List.replicate (2 * depth) ' ')

mutual
def block (depth : Nat) : Json → String
  | null => "null"
  | truth b => if b then "true" else "false"
  | whole n => toString n
  | real x => Shortest.text x
  | text s => quoted s
  | list [] => "[]"
  | list (j :: js) => "[" ++ blockItems (depth + 1) (j :: js) ++ indent depth ++ "]"
  | record [] => "\x7b\x7d"
  | record (m :: ms) => "\x7b" ++ blockMembers (depth + 1) (m :: ms) ++ indent depth ++ "\x7d"

def blockItems (depth : Nat) : List Json → String
  | [] => ""
  | [j] => indent depth ++ block depth j
  | j :: js => indent depth ++ block depth j ++ "," ++ blockItems depth js

def blockMembers (depth : Nat) : List (String × Json) → String
  | [] => ""
  | [(k, j)] => indent depth ++ quoted k ++ ": " ++ block depth j
  | (k, j) :: ms =>
    indent depth ++ quoted k ++ ": " ++ block depth j ++ "," ++ blockMembers depth ms
end

end Json
end Montage
