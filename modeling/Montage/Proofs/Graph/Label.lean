import Montage.Graph.Basic
import Mathlib.Data.List.Nodup
import Mathlib.Data.List.Forall2

/-! Labels by their texts. A stream is told by its leading digit; numbered labels differ by their
number, and labels of two families by what stands before it. -/
namespace Montage

theorem digitsInjective {m n : Nat} (same : toString m = toString n) : m = n := by
  have digits : Nat.toDigits 10 m = Nat.toDigits 10 n := by
    have lists := congrArg String.toList same
    simpa using lists
  rw [← Nat.ofDigitChars_ten_toDigits (n := m),digits,Nat.ofDigitChars_ten_toDigits]

theorem numberedInjective {stem : String} {m n : Nat}
    (same : stem ++ toString m = stem ++ toString n) : m = n :=
  digitsInjective ((String.append_right_inj stem).mp same)

theorem asciiDigit {c : Char} (digit : c.isDigit = true) : isDigit c = true := by
  simp only [Char.isDigit,Bool.and_eq_true,decide_eq_true_eq] at digit
  have low : 48 ≤ c.toNat := digit.1
  have high : c.toNat ≤ 57 := digit.2
  unfold isDigit digitRuns inRuns
  rw [if_neg (by omega)]
  simp only [Bool.or_eq_true,decide_eq_true_eq]
  exact .inl (by omega)

theorem numberDigits (n : Nat) : ∀ c ∈ (toString n).toList, isDigit c = true := by
  intro c mem
  refine asciiDigit (Nat.isDigit_of_mem_toDigits (by omega) (by omega) ?_ (b := 10) (n := n))
  simpa using mem

theorem streamOf {n : Nat} {k : Char} (known : k = 'v' ∨ k = 'a') (rest : List Char)
    (same : rest = (toString n).toList ++ [':',k]) : isStreamChars rest = true := by
  have colon : isDigit ':' = false := by decide
  subst same
  unfold isStreamChars
  rw [List.takeWhile_append_of_pos (numberDigits n),List.dropWhile_append_of_pos (numberDigits n)]
  simp only [List.takeWhile_cons,List.dropWhile_cons,colon,Bool.false_eq_true,if_false,
    List.append_nil]
  cases digits : (toString n).toList with
  | nil => simp at digits
  | cons d ds => rcases known with rfl | rfl <;> rfl

theorem videoStream (n : Nat) : isStream s!"{n}:v" = true := by
  refine streamOf (n := n) (.inl rfl) _ ?_
  change (toString n ++ ":v").toList = _
  rw [String.toList_append]
  rfl

theorem audioStream (n : Nat) : isStream s!"{n}:a" = true := by
  refine streamOf (n := n) (.inr rfl) _ ?_
  change (toString n ++ ":a").toList = _
  rw [String.toList_append]
  rfl

/-- A label up to its first digit. -/
def stem (label : String) : List Char := label.toList.takeWhile (!isDigit ·)

theorem stemNumbered {s : String} (letters : ∀ c ∈ s.toList, (!isDigit c) = true) (n : Nat) :
    stem (s ++ toString n) = s.toList := by
  unfold stem
  rw [String.toList_append,List.takeWhile_append_of_pos letters]
  have digits := numberDigits n
  cases chars : (toString n).toList with
  | nil => simp
  | cons d ds =>
    rw [chars] at digits
    simp [digits d List.mem_cons_self]

theorem noStream {s : String} (some : stem s ≠ []) : isStream s = false := by
  unfold stem at some
  unfold isStream isStreamChars
  cases chars : s.toList with
  | nil => simp [chars] at some
  | cons c cs =>
    rw [chars] at some
    have letter : isDigit c = false := by
      by_contra digit
      simp [digit] at some
    rw [List.takeWhile_cons,letter]
    rfl

/-- The labels `s0`, `s1`, … -/
def numbered (s : String) (count : Nat) : List String :=
  (List.range count).map fun i => s ++ toString i

theorem numberedDistinct (s : String) (count : Nat) : (numbered s count).Nodup :=
  List.nodup_range.map fun _ _ same => numberedInjective same

theorem numberedStem {s : String} (letters : ∀ c ∈ s.toList, (!isDigit c) = true) (count : Nat) :
    ∀ l ∈ numbered s count, stem l = s.toList := by
  intro l mem
  obtain ⟨i,_,same⟩ := List.mem_map.mp mem
  exact same ▸ stemNumbered letters i

structure Family (s : List Char) (labels : List String) : Prop where
  distinct : labels.Nodup
  stems : ∀ l ∈ labels, stem l = s

theorem familyNumbered {s : String} (letters : ∀ c ∈ s.toList, (!isDigit c) = true)
    (count : Nat) : Family s.toList (numbered s count) :=
  ⟨numberedDistinct s count,numberedStem letters count⟩

theorem familyEmpty (s : List Char) : Family s [] := ⟨List.nodup_nil,by simp⟩

theorem familySingle (l : String) : Family (stem l) [l] := ⟨List.nodup_singleton l,by simp⟩

theorem familiesDistinct {stems : List (List Char)} {labels : List (List String)}
    (families : List.Forall₂ Family stems labels) (differ : stems.Nodup) :
    labels.flatten.Nodup ∧ ∀ l ∈ labels.flatten, stem l ∈ stems := by
  induction families with
  | nil => simp
  | @cons s ls stems labels family families ih =>
    obtain ⟨fresh,differ⟩ := List.nodup_cons.mp differ
    obtain ⟨distinct,inside⟩ := ih differ
    rw [List.flatten_cons]
    constructor
    · refine List.nodup_append.mpr ⟨family.distinct,distinct,?_⟩
      rintro l here m rest rfl
      exact fresh (family.stems l here ▸ inside l rest)
    · intro l mem
      rcases List.mem_append.mp mem with here | rest
      · exact family.stems l here ▸ List.mem_cons_self
      · exact List.mem_cons_of_mem _ (inside l rest)

end Montage
