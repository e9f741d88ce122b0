import Montage.Text.Half
import Montage.Text.Visible
/-!
Texts shown between quotes in messages. Single quotes are taken unless the text holds one and no
double quote; what cannot be seen is shown by its code.
-/
namespace Montage.Quoted

def hexDigit (n : Nat) : Char := if n < 10 then Char.ofNat (48 + n) else Char.ofNat (87 + n)

/-- The last `width` hexadecimal digits of `n`. -/
def hex : Nat → Nat → List Char
  | 0, _ => []
  | width + 1, n => hex width (n / 16) ++ [hexDigit (n % 16)]

def code (c : Char) : List Char :=
  let n := codeOf c
  if n < 0x100 then '\\' :: 'x' :: hex 2 n
  else if n < 0x10000 then '\\' :: 'u' :: hex 4 n
  else '\\' :: 'U' :: hex 8 n

def mark (cs : List Char) : Char := if '\'' ∈ cs ∧ '"' ∉ cs then '"' else '\''

def escape (quote c : Char) : List Char :=
  if c = quote ∨ c = '\\' then ['\\', c]
  else if c = '\n' then ['\\', 'n']
  else if c = '\t' then ['\\', 't']
  else if c = '\r' then ['\\', 'r']
  else if isVisible c then [c]
  else code c

def chars (cs : List Char) : List Char :=
  let q := mark cs
  q :: cs.flatMap (escape q) ++ [q]

def text (s : String) : String := String.ofList (chars s.toList)

/-- Bytes between quotes, by their ASCII characters as far as those can be seen. -/
def bytes (bs : List UInt8) : String :=
  let cs := bs.map fun b => Char.ofNat b.toNat
  let q := mark cs
  let shown (c : Char) : List Char := if c.toNat < 0x80 then escape q c else code c
  String.ofList ('b' :: q :: cs.flatMap shown ++ [q])

/-- A list of quoted texts, as messages give the valid choices. -/
def list (names : List String) : String := "[" ++ ", ".intercalate (names.map text) ++ "]"

end Montage.Quoted
