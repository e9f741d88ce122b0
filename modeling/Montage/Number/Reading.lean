import Montage.Fault
import Montage.Number.Amount
import Montage.Text.Blank
import Montage.Text.Word
/-!
Numbers read from texts that may hold anything. Blanks around a number are passed over, and digits
of any script count. A whole number may carry the mark of its base; a decimal fraction may be one of
the words for infinity and NaN.
-/
namespace Montage

def plainDigit (c : Char) : Char :=
  match digitValue? c with
  | some d => Char.ofNat (48 + d)
  | none => c

namespace Reading

def digitIn? (base : Nat) (c : Char) : Option Nat :=
  let d? :=
    if c.isDigit then some (c.toNat - 48)
    else if 'a' ≤ c ∧ c ≤ 'z' then some (c.toNat - 87)
    else if 'A' ≤ c ∧ c ≤ 'Z' then some (c.toNat - 55)
    else none
  d?.filter (· < base)

def withoutMark (base : Nat) : List Char → List Char
  | '0' :: c :: cs =>
    if (base = 2 ∧ (c = 'b' ∨ c = 'B')) ∨ (base = 8 ∧ (c = 'o' ∨ c = 'O')) ∨
      (base = 16 ∧ (c = 'x' ∨ c = 'X')) then cs
    else '0' :: c :: cs
  | cs => cs

def whole (base : Nat) (cs : List Char) : Except Fault Int :=
  let (negative, rest) := Decimal.splitSign ((trim cs).map plainDigit)
  let rest := withoutMark base rest
  let ds := (rest.map (digitIn? base)).takeWhile Option.isSome
  if base = 10 ∧ mostDigits < ds.length then .error (.misused (.tooManyDigits ds.length))
  else if ds.isEmpty ∨ ds.length < rest.length then
    .error (.misused (.notWhole base (String.ofList cs)))
  else .ok (Exact.signed negative (ds.foldl (fun n d => base * n + d.getD 0) 0))

def word? (cs : List Char) : Option Float :=
  let word := String.ofList cs
  if word ∈ ["inf", "infinity"] then some (1 / 0)
  else if word = "nan" then some (0 / 0)
  else none

def real (cs : List Char) : Except Fault Float :=
  let (negative, rest) := Decimal.splitSign ((trim cs).map plainDigit)
  match word? (lower rest) <|> Decimal.unsigned? rest with
  | some x => .ok (if negative then -x else x)
  | none => .error (.misused (.notDecimal (String.ofList cs)))

end Reading
end Montage
