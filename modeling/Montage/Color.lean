import Montage.Fault
import Montage.Text.Blank
/-!
Colours of text overlays: the names white and black, or six hexadecimal digits after an optional
`0x` and any number of `#`. Written for a filter they have one form, `0x` and six capital digits.
-/
namespace Montage

structure Color where
  red : Nat
  green : Nat
  blue : Nat
  deriving DecidableEq, Repr

namespace Color

def nibble? (c : Char) : Option Nat :=
  if '0' ≤ c ∧ c ≤ '9' then some (c.toNat - 48)
  else if 'a' ≤ c ∧ c ≤ 'f' then some (c.toNat - 87)
  else if 'A' ≤ c ∧ c ≤ 'F' then some (c.toNat - 55)
  else none

def ofDigits? : List Char → Option Color
  | [a, b, c, d, e, f] => do
    let a ← nibble? a
    let b ← nibble? b
    let c ← nibble? c
    let d ← nibble? d
    let e ← nibble? e
    let f ← nibble? f
    some ⟨16 * a + b, 16 * c + d, 16 * e + f⟩
  | _ => none

/-- What is left of a trimmed text without its leading marks. -/
def bare (cs : List Char) : List Char :=
  let rest := match cs with
    | '0' :: 'x' :: more => more
    | '0' :: 'X' :: more => more
    | _ => cs
  rest.dropWhile (· == '#')

def ofHex (s : String) : Except Fault Color :=
  let cs := bare (trim s.toList)
  match ofDigits? cs with
  | some c => .ok c
  | none => .error (.misused (.color (String.ofList cs)))

def parse (s : String) : Except Fault Color :=
  let name := lower (trim s.toList)
  if name = "white".toList then .ok ⟨255, 255, 255⟩
  else if name = "black".toList then .ok ⟨0, 0, 0⟩
  else ofHex s

def capital (n : Nat) : Char := if n < 10 then Char.ofNat (48 + n) else Char.ofNat (55 + n)

def pair (n : Nat) : List Char := [capital (n / 16), capital (n % 16)]

def text (c : Color) : String :=
  String.ofList ('0' :: 'x' :: (pair c.red ++ pair c.green ++ pair c.blue))

end Color

def filterColor (s : String) : Except Fault String := (Color.parse s).map Color.text

end Montage
