import Montage.Fault
import Montage.Manifest.Value
import Montage.Number.Amount
import Montage.Text.Blank
/-!
Reading the entries of a manifest. An entry should be a mapping, but nothing says it is: a list can
be searched for an item and a text for a part, and only then does it turn out that neither has
anything under a key.
-/
namespace Montage.Entry

/-- What a value is made of: items of a list, keys of a mapping, characters of a text. -/
def partsOf? (v : Value) : Option (List Value) :=
  match v.bare with
  | .list items => some (items.map Value.bare)
  | .mapping entries => some (entries.map fun e => .scalar e.1)
  | .pair a b => some [a.bare, b.bare]
  | .set members => some (members.map .scalar)
  | .scalar (.text s) => some (s.toList.map fun c => .text (String.ofList [c]))
  | .scalar (.bytes bs) => some (bs.map fun b => .whole b.toNat)
  | _ => none

/-- Whether `key` is found in a value. -/
def has (key : String) : Value → Except Fault Bool
  | .mapping entries => .ok (entryAt? entries key).isSome
  | .scalar (.text s) => .ok (holds key.toList s.toList)
  | .scalar _ => .error (.unusable .notSearchable)
  | v => .ok (((partsOf? v).getD []).any fun part => match part with
    | .scalar s => s == .text key
    | _ => false)

/-- What stands under a key that has been found. -/
def under (key : String) : Value → Except Fault Value
  | .mapping entries => .ok ((entryAt? entries key).getD .null)
  | _ => .error (.unusable .notIndexable)

/-- The value of the first of some keys that is found. -/
def first (keys : List String) (v : Value) : Except Fault (Option Value) :=
  match keys with
  | [] => .ok none
  | key :: keys => do
    if ← has key v then return some (← under key v) else first keys v

/-- The value under a key, if there is one; only mappings may be asked. -/
def get? (key : String) : Value → Except Fault (Option Value)
  | .mapping entries => .ok (entryAt? entries key)
  | _ => .error (.unusable .noEntries)

/-- A value that is absent when it is null. -/
def present : Option Value → Option Value
  | some (.scalar .null) => none
  | v => v

/-- A number as a double. Truth values are no numbers; a whole number may be too large. -/
def number (place field : String) : Value → Except Fault Float
  | .scalar (.whole n) =>
    match (Amount.whole n).toFloat? with
    | some x => .ok x
    | none => .error .tooLarge
  | .scalar (.real x) => .ok x
  | v => .error (.rejected (.numberNeeded place field v.literal))

/-- The items of a value that should be a list. An empty value has none; any other value will do
that is made of parts. -/
def items : Option Value → Except Fault (List Value)
  | none => .ok []
  | some v =>
    if v.isEmpty then .ok []
    else match partsOf? v with
      | some parts => .ok parts
      | none => .error (.unusable .notIterable)

/-- The two parts of an item that is to become an entry. -/
def pair (index : Nat) (v : Value) : Except Fault (Scalar × Value) :=
  match partsOf? v with
  | none => .error (.unusable .notAPair)
  | some [.scalar k, x] => .ok (k, x)
  | some [_, _] => .error (.unusable .notHashable)
  | some parts => .error (.misused (.pairLength index parts.length))

def pairs (index : Nat) (entries : List (Scalar × Value)) :
    List Value → Except Fault (List (Scalar × Value))
  | [] => .ok entries
  | v :: vs => do
    let (k, x) ← pair index v
    pairs (index + 1) (putEntry entries k x) vs

/-- The entries of a value that should be a mapping; items of two parts will also do. -/
def entries (v : Option Value) : Except Fault (List (Scalar × Value)) :=
  match v with
  | some (.mapping es) => .ok es
  | v => do pairs 0 [] (← items v)

end Montage.Entry
