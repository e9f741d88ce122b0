import Mathlib.Data.List.Forall2
import Mathlib.Data.List.Infix
import Montage.Text.Capital

/-! The two ways of writing a text in small letters. One knows the capitals of all scripts and the
other only those that turn into ASCII letters, so no ASCII word can tell them apart. -/
namespace Montage

def Ascii (cs : List Char) : Prop := ∀ c ∈ cs, c.toNat < 128

instance (cs : List Char) : Decidable (Ascii cs) := List.decidableBAll _ cs

/-- Two characters that are the same as far as ASCII words go. -/
def Alike (a b : Char) : Prop := a = b ∨ 128 ≤ a.toNat ∧ 128 ≤ b.toNat

/-- The small letters of the run lie beyond ASCII. -/
def CapitalRun.foreign (r : CapitalRun) : Bool :=
  128 ≤ r.first + r.ahead &&
    (r.last + r.ahead < 0xd800 || (0xe000 ≤ r.first + r.ahead && r.last + r.ahead < 0x110000))

/-- Only the sign for kelvin turns into an ASCII letter from outside. -/
theorem capitalRunsForeign :
    capitalRuns.all fun r => r.last < 128 || r.first == 0x212a && r.last == 0x212a || r.foreign := by
  decide +kernel

theorem foreignCode {r : CapitalRun} {n : Nat} (foreign : r.foreign = true) (holds : r.holds n = true) :
    128 ≤ (Char.ofNat (n + r.ahead).toNat).toNat := by
  simp only [CapitalRun.foreign,CapitalRun.holds,Bool.and_eq_true,Bool.or_eq_true,
    decide_eq_true_eq] at foreign holds
  have valid : (n + r.ahead).toNat.isValidChar := by
    unfold Nat.isValidChar
    omega
  have code : (Char.ofNat (n + r.ahead).toNat).toNat = (n + r.ahead).toNat := by
    rw [Char.ofNat,dif_pos valid]
    rfl
  omega

theorem smallAlike (c : Char) : List.Forall₂ Alike (lowerChar c) (small c) := by
  have same {xs ys : List Char} (equal : xs = ys) : List.Forall₂ Alike xs ys :=
    equal ▸ List.forall₂_same.mpr fun _ _ => .inl rfl
  by_cases ascii : c.toNat < 128
  · have listed : ∀ n < 128, lowerChar (Char.ofNat n) = small (Char.ofNat n) := by decide +kernel
    have here := listed c.toNat ascii
    rw [Char.ofNat_toNat] at here
    exact same here
  by_cases kelvin : c = '\u212a'
  · rw [kelvin]
    exact same (by decide +kernel)
  unfold small
  split
  · exact same rfl
  · rename_i dotted
    have plain : lowerChar c = [c] := by
      have letter : ¬ ('A' ≤ c ∧ c ≤ 'Z') := fun between =>
        ascii (Nat.lt_of_le_of_lt (between.2 : c.toNat ≤ 90) (by decide))
      rw [lowerChar,if_neg letter,if_neg kelvin,if_neg dotted]
    rw [plain]
    split
    · rename_i r found
      have holds := List.find?_some found
      have known := List.all_eq_true.mp capitalRunsForeign r (List.mem_of_find?_eq_some found)
      refine .cons (.inr ⟨Nat.le_of_not_lt ascii,foreignCode ?_ holds⟩) .nil
      simp only [CapitalRun.holds,Bool.and_eq_true,decide_eq_true_eq] at holds
      simp only [Bool.or_eq_true,Bool.and_eq_true,decide_eq_true_eq,beq_iff_eq] at known
      rcases known with (low | ⟨first,last⟩) | foreign
      · omega
      · have code : c.toNat = 0x212a := by omega
        exact absurd (Char.toNat_inj.mp code) kelvin
      · exact foreign
    · exact same rfl

theorem lowerAlike (cs : List Char) : List.Forall₂ Alike (lower cs) (inSmall cs) := by
  induction cs with
  | nil => exact .nil
  | cons c cs ih => exact List.rel_append (smallAlike c) ih

section
variable {word xs ys : List Char}

theorem alikeWord (ascii : Ascii word) (alike : List.Forall₂ Alike xs word) :
    xs = word := by
  induction alike with
  | nil => rfl
  | cons here rest ih =>
    obtain ⟨first,later⟩ := List.forall_mem_cons.mp ascii
    rcases here with same | ⟨_,beyond⟩
    · rw [same,ih later]
    · exact absurd first (Nat.not_lt.mpr beyond)

theorem alikePart (ascii : Ascii word) (alike : List.Forall₂ Alike xs ys)
    (inside : word <:+: ys) : word <:+: xs := by
  obtain ⟨before,after,rfl⟩ := inside
  have front := List.forall₂_take_append _ _ _ alike
  have middle := List.forall₂_drop_append _ _ _ front
  rw [← alikeWord ascii middle]
  exact (List.drop_suffix _ _).isInfix.trans (List.take_prefix _ _).isInfix

end

theorem alikeFlip {xs ys : List Char} (alike : List.Forall₂ Alike xs ys) :
    List.Forall₂ Alike ys xs :=
  alike.flip.imp fun _ _ pair => pair.imp Eq.symm And.symm

/-- An ASCII word is a text in small letters in either way or in none. -/
theorem lowerWord {word : List Char} (ascii : Ascii word) (cs : List Char) :
    lower cs = word ↔ inSmall cs = word := by
  have alike := lowerAlike cs
  constructor
  · rintro rfl
    exact alikeWord ascii (alikeFlip alike)
  · rintro rfl
    exact alikeWord ascii alike

theorem lowerPart {word : List Char} (ascii : Ascii word) (cs : List Char) :
    word <:+: lower cs ↔ word <:+: inSmall cs :=
  ⟨alikePart ascii (alikeFlip (lowerAlike cs)),alikePart ascii (lowerAlike cs)⟩

end Montage
