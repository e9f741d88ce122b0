import Mathlib.Data.List.Forall2
import Montage.Color
import Montage.Proofs.Answer
import Montage.Proofs.Text.Blank
import Montage.Proofs.Text.Capital

/-! What a colour is spelled as. A text names a colour, or it spells one by six digits after marks
that count for nothing; what is read from it is what it denotes. Written out, a colour has one
spelling, which denotes that colour again. -/
namespace Montage

namespace Color

def capitals : List Char := "0123456789ABCDEF".toList

def smalls : List Char := "0123456789abcdef".toList

/-- The value of a digit is its place among the digits. -/
def Digit (n : Nat) (c : Char) : Prop := capitals[n]? = some c ∨ smalls[n]? = some c

instance (n : Nat) (c : Char) : Decidable (Digit n c) := inferInstanceAs (Decidable (_ ∨ _))

theorem Digit.bound {n : Nat} {c : Char} (digit : Digit n c) : n < 16 := by
  rcases digit with found | found
  · exact (List.getElem?_eq_some_iff.mp found).1
  · exact (List.getElem?_eq_some_iff.mp found).1

theorem digitIff (c : Char) : (∃ n, Digit n c) ↔ c ∈ capitals ++ smalls := by
  unfold Digit
  rw [List.mem_append,List.mem_iff_getElem?,List.mem_iff_getElem?,exists_or]

theorem Digit.mem {n : Nat} {c : Char} (digit : Digit n c) : c ∈ capitals ++ smalls :=
  (digitIff c).mp ⟨n,digit⟩

theorem nibbleAscii {n : Nat} {c : Char} (read : nibble? c = some n) : c.toNat < 128 := by
  have below (limit : Char) (within : c ≤ limit) : c.toNat ≤ limit.toNat := within
  unfold nibble? at read
  split at read
  · rename_i digit
    exact Nat.lt_of_le_of_lt (below '9' digit.2) (by decide)
  split at read
  · rename_i letter
    exact Nat.lt_of_le_of_lt (below 'f' letter.2) (by decide)
  split at read
  · rename_i letter
    exact Nat.lt_of_le_of_lt (below 'F' letter.2) (by decide)
  · cases read

theorem nibbleIff {n : Nat} {c : Char} : nibble? c = some n ↔ Digit n c := by
  constructor
  · intro read
    have listed : ∀ k < 128, (nibble? (Char.ofNat k)).all fun n => Digit n (Char.ofNat k) := by
      decide +kernel
    have here := listed c.toNat (nibbleAscii read)
    rw [Char.ofNat_toNat,read] at here
    exact of_decide_eq_true here
  · intro digit
    have read : ∀ n < 16, (capitals[n]?.all fun c => nibble? c = some n) ∧
        smalls[n]?.all fun c => nibble? c = some n := by decide
    obtain ⟨capital,small⟩ := read n digit.bound
    rcases digit with found | found
    · simpa [found] using capital
    · simpa [found] using small

/-- Marks that may stand before the digits. -/
def starts : List (List Char) := [[],['0','x'],['0','X']]

/-- Six digits are spelled, two for each of the three amounts. -/
inductive Hexadecimal (v : String) : Color → Prop where
  | digits {start marks digits : List Char} {r r' g g' b b' : Nat}
      (spelled : trim v.toList = start ++ marks ++ digits) (start : start ∈ starts)
      (marks : ∀ c ∈ marks, c = '#') (values : List.Forall₂ Digit [r,r',g,g',b,b'] digits) :
      Hexadecimal v ⟨16 * r + r',16 * g + g',16 * b + b'⟩

inductive Denotes (v : String) : Color → Prop where
  | white (named : inSmall (trim v.toList) = "white".toList) : Denotes v ⟨255,255,255⟩
  | black (named : inSmall (trim v.toList) = "black".toList) : Denotes v ⟨0,0,0⟩
  | digits {c : Color} (spelled : Hexadecimal v c) : Denotes v c

theorem ofDigitsIff {cs : List Char} {c : Color} : ofDigits? cs = some c ↔
    ∃ r r' g g' b b', List.Forall₂ Digit [r,r',g,g',b,b'] cs ∧
      c = ⟨16 * r + r',16 * g + g',16 * b + b'⟩ := by
  constructor
  · intro read
    unfold ofDigits? at read
    split at read
    · simp only [Option.bind_eq_bind,Option.bind_eq_some_iff,nibbleIff] at read
      obtain ⟨r,hr,r',hr',g,hg,g',hg',b,hb,b',hb',last⟩ := read
      exact ⟨r,r',g,g',b,b',.cons hr (.cons hr' (.cons hg (.cons hg' (.cons hb (.cons hb' .nil))))),
        (Option.some.inj last).symm⟩
    · cases read
  · rintro ⟨r,r',g,g',b,b',values,rfl⟩
    cases values with | cons hr values =>
    cases values with | cons hr' values =>
    cases values with | cons hg values =>
    cases values with | cons hg' values =>
    cases values with | cons hb values =>
    cases values with | cons hb' values =>
    cases values
    rw [← nibbleIff] at hr hr' hg hg' hb hb'
    simp [ofDigits?,hr,hr',hg,hg',hb,hb']

/-- Marks before the digits count for nothing. -/
theorem bareSource (cs : List Char) : ∃ start marks, start ∈ starts ∧ (∀ c ∈ marks, c = '#') ∧
    cs = start ++ marks ++ bare cs := by
  have hashes (rest : List Char) : ∀ c ∈ rest.takeWhile (· == '#'), c = '#' := fun c mem =>
    beq_iff_eq.mp (List.mem_takeWhile_imp (p := (· == '#')) mem)
  unfold bare
  split
  · rename_i rest
    exact ⟨['0','x'],_,by decide,hashes rest,by simp⟩
  · rename_i rest
    exact ⟨['0','X'],_,by decide,hashes rest,by simp⟩
  · exact ⟨[],_,by decide,hashes cs,by simp⟩

theorem bareSpelled {start marks digits : List Char} (starting : start ∈ starts)
    (hashes : ∀ c ∈ marks, c = '#') (each : ∀ c ∈ digits, c ∈ capitals ++ smalls) :
    bare (start ++ marks ++ digits) = digits := by
  have gone : marks.dropWhile (· == '#') = [] := List.dropWhile_eq_nil_iff.mpr fun c mem =>
    beq_iff_eq.mpr (hashes c mem)
  have kept : digits.dropWhile (· == '#') = digits := by
    refine List.dropWhile_eq_self_iff.mpr fun some hash => ?_
    exact ne_of_mem_of_not_mem (each _ (List.getElem_mem some)) (by decide) (beq_iff_eq.mp hash)
  have rest : (marks ++ digits).dropWhile (· == '#') = digits := by
    rw [List.dropWhile_append,gone,List.isEmpty_nil,if_pos rfl,kept]
  have letter {c : Char} (mark : c ≠ '#') (digit : c ∉ capitals ++ smalls) :
      c ∉ marks ++ digits := fun mem =>
    (List.mem_append.mp mem).elim (fun mem => mark (hashes c mem)) (fun mem => digit (each c mem))
  rw [List.append_assoc]
  simp only [starts,List.mem_cons,List.not_mem_nil,or_false] at starting
  rcases starting with rfl | rfl | rfl
  · unfold bare
    rw [List.nil_append]
    split
    · rename_i same
      exact absurd (same ▸ by simp) (letter (by decide : 'x' ≠ '#') (by decide))
    · rename_i same
      exact absurd (same ▸ by simp) (letter (by decide : 'X' ≠ '#') (by decide))
    · exact rest
  · exact rest
  · exact rest

theorem ofHexIff {v : String} {c : Color} : ofHex v = .ok c ↔ Hexadecimal v c := by
  have answer : ofHex v = .ok c ↔ ofDigits? (bare (trim v.toList)) = some c := by
    unfold ofHex
    dsimp only
    split
    · rename_i found
      rw [found,Except.ok.injEq,Option.some.injEq]
    · rename_i none
      simp [none]
  rw [answer,ofDigitsIff]
  constructor
  · rintro ⟨r,r',g,g',b,b',values,rfl⟩
    obtain ⟨start,marks,starting,hashes,spelled⟩ := bareSource (trim v.toList)
    exact .digits spelled starting hashes values
  · rintro ⟨spelled,starting,hashes,values⟩
    have each : ∀ c ∈ _, c ∈ capitals ++ smalls := fun c mem => by
      obtain ⟨n,_,digit⟩ := pairedRight values mem
      exact digit.mem
    rw [spelled,bareSpelled starting hashes each]
    exact ⟨_,_,_,_,_,_,values,rfl⟩

/-- A text of digits is longer than the two names. -/
theorem Hexadecimal.unnamed {v : String} {c : Color} (spelled : Hexadecimal v c) {name : List Char}
    (short : name.length < 6) : lower (trim v.toList) ≠ name := by
  cases spelled with
  | digits spelled _ _ values =>
    have longer := lowerLonger (trim v.toList)
    have six := values.length_eq
    rw [spelled,List.length_append,← six] at longer
    intro same
    rw [← same,spelled] at short
    simp only [List.length_cons,List.length_nil] at longer
    omega

theorem parseIff {v : String} {c : Color} : parse v = .ok c ↔ Denotes v c := by
  have white : lower (trim v.toList) = "white".toList ↔ inSmall (trim v.toList) = "white".toList :=
    lowerWord (by decide) _
  have black : lower (trim v.toList) = "black".toList ↔ inSmall (trim v.toList) = "black".toList :=
    lowerWord (by decide) _
  have apart : "black".toList ≠ "white".toList := by decide
  unfold parse
  dsimp only
  constructor
  · intro read
    split at read
    · cases read
      exact .white (white.mp ‹_›)
    split at read
    · cases read
      exact .black (black.mp ‹_›)
    · exact .digits (ofHexIff.mp read)
  · rintro (named | named | spelled)
    · rw [if_pos (white.mpr named)]
    · have named := black.mpr named
      rw [if_neg (named.trans_ne apart),if_pos named]
    · rw [if_neg (spelled.unnamed (by decide)),if_neg (spelled.unnamed (by decide)),
        ofHexIff.mpr spelled]

structure Bounded (c : Color) : Prop where
  red : c.red < 256
  green : c.green < 256
  blue : c.blue < 256

theorem Hexadecimal.bounded {v : String} {c : Color} (spelled : Hexadecimal v c) : c.Bounded := by
  cases spelled with
  | @digits _ _ _ r r' g g' b b' _ _ _ values =>
    have bound : ∀ n ∈ [r,r',g,g',b,b'], n < 16 := fun n mem => by
      obtain ⟨c,_,digit⟩ := pairedLeft values mem
      exact digit.bound
    simp only [List.forall_mem_cons] at bound
    constructor <;> dsimp only <;> omega

theorem Denotes.bounded {v : String} {c : Color} (denotes : Denotes v c) : c.Bounded := by
  cases denotes with
  | white => exact ⟨by decide,by decide,by decide⟩
  | black => exact ⟨by decide,by decide,by decide⟩
  | digits spelled => exact spelled.bounded

theorem parseBounded {s : String} {c : Color} (ok : parse s = .ok c) : c.Bounded :=
  (parseIff.mp ok).bounded

/-- The form in which colours are written. -/
def Normal (s : String) : Prop :=
  ∃ digits, s.toList = '0' :: 'x' :: digits ∧ digits.length = 6 ∧ ∀ c ∈ digits, c ∈ capitals

theorem capitalDigit : ∀ n < 16, capitals[n]? = some (capital n) := by decide

theorem pairCapitals {n : Nat} (bound : n < 256) : ∀ c ∈ pair n, c ∈ capitals := by
  have high := List.mem_of_getElem? (capitalDigit (n / 16) (by omega))
  have low := List.mem_of_getElem? (capitalDigit (n % 16) (by omega))
  exact List.forall_mem_cons.mpr ⟨high,List.forall_mem_singleton.mpr low⟩

theorem textNormal {c : Color} (bounded : c.Bounded) : Normal c.text := by
  refine ⟨pair c.red ++ pair c.green ++ pair c.blue,?_,rfl,?_⟩
  · rw [text,String.toList_ofList]
  · exact List.forall_mem_append.mpr ⟨List.forall_mem_append.mpr
      ⟨pairCapitals bounded.red,pairCapitals bounded.green⟩,pairCapitals bounded.blue⟩

theorem Normal.trimmed {s : String} (normal : Normal s) : trim s.toList = s.toList := by
  obtain ⟨digits,letters,_,each⟩ := normal
  have plain : ('0' :: 'x' :: capitals).all fun c => isBlank c = false := by decide
  refine (trimmedOf fun c mem => of_decide_eq_true (List.all_eq_true.mp plain c ?_)).trim
  rw [letters] at mem
  exact List.cons_subset_cons _ (List.cons_subset_cons _ each) mem

theorem textSpells {c : Color} (bounded : c.Bounded) : Hexadecimal c.text c := by
  have digit {n : Nat} (bound : n < 16) : Digit n (capital n) := .inl (capitalDigit n bound)
  have values : List.Forall₂ Digit
      [c.red / 16,c.red % 16,c.green / 16,c.green % 16,c.blue / 16,c.blue % 16]
      (pair c.red ++ pair c.green ++ pair c.blue) := by
    obtain ⟨red,green,blue⟩ := bounded
    exact .cons (digit (by omega)) (.cons (digit (by omega)) (.cons (digit (by omega))
      (.cons (digit (by omega)) (.cons (digit (by omega)) (.cons (digit (by omega)) .nil)))))
  have spelled : trim c.text.toList =
      ['0','x'] ++ [] ++ (pair c.red ++ pair c.green ++ pair c.blue) := by
    rw [(textNormal bounded).trimmed,text,String.toList_ofList]
    rfl
  have spells := Hexadecimal.digits spelled (by decide) (List.forall_mem_nil _) values
  rwa [Nat.div_add_mod,Nat.div_add_mod,Nat.div_add_mod] at spells

/-- The texts that name a colour or spell one. -/
def Grammatical (v : String) : Prop :=
  inSmall (trim v.toList) = "white".toList ∨ inSmall (trim v.toList) = "black".toList ∨
  ∃ start marks digits, trim v.toList = start ++ marks ++ digits ∧ start ∈ starts ∧
    (∀ c ∈ marks, c = '#') ∧ digits.length = 6 ∧ ∀ c ∈ digits, c ∈ capitals ++ smalls

theorem valueDigit {c : Char} (mem : c ∈ capitals ++ smalls) : Digit ((nibble? c).getD 0) c := by
  obtain ⟨n,digit⟩ := (digitIff c).mpr mem
  rwa [nibbleIff.mpr digit]

theorem grammaticalIff (v : String) : Grammatical v ↔ ∃ c, Denotes v c := by
  constructor
  · rintro (named | named | ⟨start,marks,digits,spelled,starting,hashes,six,each⟩)
    · exact ⟨_,.white named⟩
    · exact ⟨_,.black named⟩
    · have values : List.Forall₂ Digit (digits.map fun c => (nibble? c).getD 0) digits :=
        List.forall₂_map_left_iff.mpr (List.forall₂_same.mpr fun c mem => valueDigit (each c mem))
      match digits, six with
      | [_,_,_,_,_,_], _ => exact ⟨_,.digits (.digits spelled starting hashes values)⟩
  · rintro ⟨c,named | named | spelled⟩
    · exact .inl named
    · exact .inr (.inl named)
    · obtain ⟨spelled,starting,hashes,values⟩ := spelled
      refine .inr (.inr ⟨_,_,_,spelled,starting,hashes,values.length_eq.symm,fun c mem => ?_⟩)
      obtain ⟨n,_,digit⟩ := pairedRight values mem
      exact digit.mem

theorem Denotes.unique {v : String} {c d : Color} (first : Denotes v c) (second : Denotes v d) :
    d = c :=
  Except.ok.inj ((parseIff.mpr second).symm.trans (parseIff.mpr first))

end Color

theorem filterColorIff {v out : String} :
    filterColor v = .ok out ↔ ∃ c, Color.Denotes v c ∧ c.text = out := by
  constructor
  · intro ok
    obtain ⟨c,parsed,rfl⟩ := mapOk ok
    exact ⟨c,Color.parseIff.mp parsed,rfl⟩
  · rintro ⟨c,denotes,rfl⟩
    unfold filterColor
    rw [Color.parseIff.mpr denotes]
    rfl

/-- A colour that can be read has one normal form, which is read as the same colour. -/
theorem filterColorNormal (v : String) :
    ((∃ out, filterColor v = .ok out) ↔ Color.Grammatical v) ∧
    ∀ out, filterColor v = .ok out → Color.Normal out ∧
      (∃ c, (∀ d, Color.Denotes v d ↔ d = c) ∧ Color.ofHex out = .ok c) ∧
      filterColor out = .ok out := by
  constructor
  · rw [Color.grammaticalIff]
    constructor
    · rintro ⟨out,ok⟩
      obtain ⟨c,denotes,_⟩ := filterColorIff.mp ok
      exact ⟨c,denotes⟩
    · rintro ⟨c,denotes⟩
      exact ⟨c.text,filterColorIff.mpr ⟨c,denotes,rfl⟩⟩
  · intro out ok
    obtain ⟨c,denotes,rfl⟩ := filterColorIff.mp ok
    have spells := Color.textSpells denotes.bounded
    have only (d : Color) : Color.Denotes v d ↔ d = c :=
      ⟨denotes.unique,fun same => same ▸ denotes⟩
    exact ⟨Color.textNormal denotes.bounded,⟨c,only,Color.ofHexIff.mpr spells⟩,
      filterColorIff.mpr ⟨c,.digits spells,rfl⟩⟩

theorem tealNormal : filterColor " 0X##00808f\n" = .ok "0x00808F" ∧ Color.Normal "0x00808F" ∧
    (∃ c, (∀ d, Color.Denotes " 0X##00808f\n" d ↔ d = c) ∧ Color.ofHex "0x00808F" = .ok c) ∧
    filterColor "0x00808F" = .ok "0x00808F" :=
  have read : filterColor " 0X##00808f\n" = .ok "0x00808F" := by decide +kernel
  ⟨read,(filterColorNormal _).2 _ read⟩

/-- The sign for kelvin is a capital of the letter k. -/
example : filterColor "BLAC\u212a" = .ok "0x000000" := by decide +kernel

end Montage
