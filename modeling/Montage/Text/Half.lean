/-!
Half pairs. The codes from D800 to DFFF stand for halves of a character and name none alone. A text
may be given one all the same; it then holds the private character that lies 0x100000 above the
code, which is shown wherever characters are shown by their codes.
-/
namespace Montage

def isHalfCode (n : Nat) : Bool := 0xd800 ≤ n && n < 0xe000

/-- The character that a text holds for a code. -/
def charOfCode (n : Nat) : Char := Char.ofNat (if isHalfCode n then 0x100000 + n else n)

def codeOf (c : Char) : Nat :=
  let n := c.toNat
  if isHalfCode (n - 0x100000) then n - 0x100000 else n

/-- The first run of halves in a text: the places of its first and last one, and the first code. -/
def halfRun? (cs : List Char) : Option (Nat × Nat × Nat) :=
  let isHalf (c : Char) : Bool := isHalfCode (codeOf c)
  let ahead := (cs.takeWhile (!isHalf ·)).length
  match (cs.drop ahead).takeWhile isHalf with
  | [] => none
  | c :: more => some (ahead, ahead + more.length, codeOf c)

/-- Halves that stand for single bytes; the name of a file or a word for another program may hold
them. -/
def isByteCode (n : Nat) : Bool := 0xdc80 ≤ n && n < 0xdd00

/-- The same for a word that may hold bytes: the first run of halves from one on that is no byte. -/
def strayRun? (cs : List Char) : Option (Nat × Nat × Nat) :=
  let isStray (c : Char) : Bool := isHalfCode (codeOf c) && !isByteCode (codeOf c)
  let ahead := (cs.takeWhile (!isStray ·)).length
  (halfRun? (cs.drop ahead)).map fun (first, last, code) => (ahead + first, ahead + last, code)

theorem codeOf_halves : ∀ n < 0x800, codeOf (charOfCode (0xd800 + n)) = 0xd800 + n := by
  intro n h
  have valid : (0x100000 + (0xd800 + n)).isValidChar := by
    unfold Nat.isValidChar
    omega
  have code : (Char.ofNat (0x100000 + (0xd800 + n))).toNat = 0x100000 + (0xd800 + n) := by
    rw [Char.ofNat, dif_pos valid]
    rfl
  have half : isHalfCode (0xd800 + n) = true := by
    simp only [isHalfCode, Bool.and_eq_true, decide_eq_true_eq]
    omega
  simp only [charOfCode, half, if_true, codeOf, code, Nat.add_sub_cancel_left]

end Montage
