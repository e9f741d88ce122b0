/-!
Filters: a name and arguments that are written out as they are, in order, between colons. Free text
such as a file path is escaped before it becomes an argument.
-/
namespace Montage

structure Filter where
  name : String
  args : List String := []
  deriving DecidableEq, Repr

/-- A backslash goes before every backslash, colon and single quote. -/
def escapeChar (c : Char) : List Char :=
  if c = '\\' ∨ c = ':' ∨ c = '\'' then ['\\', c] else [c]

def escapeValue (s : String) : String := String.ofList (s.toList.flatMap escapeChar)

def named (key value : String) : String := key ++ "=" ++ value

namespace Filter

def make (name : String) (positional : List String) (options : List (String × String)) : Filter :=
  ⟨name, positional ++ options.map fun o => named o.1 o.2⟩

def text (f : Filter) : String :=
  if f.args.isEmpty then f.name else f.name ++ "=" ++ ":".intercalate f.args

/-- What follows `key` in `cs`. -/
def after? : List Char → List Char → Option (List Char)
  | [], cs => some cs
  | _ :: _, [] => none
  | k :: ks, c :: cs => if k = c then after? ks cs else none

/-- The value of the first argument that is named `key`. -/
def value? (f : Filter) (key : String) : Option String :=
  f.args.findSome? fun a => (after? (key.toList ++ ['=']) a.toList).map String.ofList

end Filter

end Montage
