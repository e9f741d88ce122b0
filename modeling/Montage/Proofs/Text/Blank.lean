import Mathlib.Data.List.DropRight
import Mathlib.Data.List.Infix
import Montage.Text.Blank

/-! Trimmed texts and lines. Trimming leaves a text alone that has no blanks at its ends, and lines
that were joined by line feeds are the lines of the joined text. -/
namespace Montage

structure Trimmed (cs : List Char) : Prop where
  front : ∀ given : cs ≠ [], isBlank (cs.head given) = false
  back : ∀ given : cs ≠ [], isBlank (cs.getLast given) = false

theorem trimEq (cs : List Char) : trim cs = (cs.dropWhile isBlank).rdropWhile isBlank := rfl

theorem trimmedTrim (cs : List Char) : Trimmed (trim cs) := by
  have kept : trim cs <+: cs.dropWhile isBlank := List.rdropWhile_prefix _ _
  constructor
  · intro given
    have more : cs.dropWhile isBlank ≠ [] := fun none => given (List.prefix_nil.mp (none ▸ kept))
    have first := List.head_dropWhile_not isBlank more
    rwa [← kept.head given] at first
  · intro given
    exact Bool.eq_false_iff.mpr (List.rdropWhile_last_not isBlank _ given)

theorem Trimmed.trim {cs : List Char} (trimmed : Trimmed cs) : trim cs = cs := by
  have front : cs.dropWhile isBlank = cs := by
    refine List.dropWhile_eq_self_iff.mpr fun some blank => ?_
    have first := trimmed.front (List.ne_nil_of_length_pos some)
    rw [List.head_eq_getElem,blank] at first
    cases first
  rw [trimEq,front]
  exact List.rdropWhile_eq_self_iff.mpr fun given => Bool.eq_false_iff.mp (trimmed.back given)

theorem trimmedOf {cs : List Char} (each : ∀ c ∈ cs, isBlank c = false) : Trimmed cs :=
  ⟨fun given => each _ (List.head_mem given),fun given => each _ (List.getLast_mem given)⟩

theorem trimInside (cs : List Char) : trim cs <:+: cs :=
  (List.rdropWhile_prefix _ _).isInfix.trans (List.dropWhile_suffix _).isInfix

theorem lowerLonger (cs : List Char) : cs.length ≤ (lower cs).length := by
  induction cs with
  | nil => exact Nat.le_refl 0
  | cons c cs ih =>
    have some : 1 ≤ (lowerChar c).length := by
      unfold lowerChar
      repeat' split
      all_goals simp
    have step : lower (c :: cs) = lowerChar c ++ lower cs := List.flatMap_cons
    rw [step,List.length_append,List.length_cons]
    omega

theorem holdsIff (part cs : List Char) : holds part cs = true ↔ part <:+: cs := by
  induction cs with
  | nil => simp [holds]
  | cons c cs ih =>
    rw [holds,Bool.or_eq_true,ih,List.isPrefixOf_iff_prefix]
    exact List.infix_cons_iff.symm

/-- Nothing in the text ends a line. -/
def Unbroken (cs : List Char) : Prop := ∀ c ∈ cs, isBreak c = false

instance (cs : List Char) : Decidable (Unbroken cs) := List.decidableBAll _ cs

theorem Unbroken.inside {part cs : List Char} (unbroken : Unbroken cs) (inside : part <:+: cs) :
    Unbroken part := fun c mem => unbroken c (inside.subset mem)

theorem linesFromUnbroken {cs line : List Char} (begun : Unbroken line) :
    ∀ l ∈ linesFrom cs line, Unbroken l := by
  have whole {line : List Char} (begun : Unbroken line) : Unbroken line.reverse :=
    fun c mem => begun c (List.mem_reverse.mp mem)
  have none : Unbroken [] := List.forall_mem_nil _
  induction cs, line using linesFrom.induct with
  | case1 line empty =>
    rw [linesFrom,if_pos empty]
    exact List.forall_mem_nil _
  | case2 line given =>
    rw [linesFrom,if_neg given]
    exact List.forall_mem_singleton.mpr (whole begun)
  | case3 cs line ih =>
    rw [linesFrom]
    exact List.forall_mem_cons.mpr ⟨whole begun,ih none⟩
  | case4 c cs line pair ends ih =>
    rw [linesFrom,if_pos ends]
    · exact List.forall_mem_cons.mpr ⟨whole begun,ih none⟩
    · exact pair
  | case5 c cs line pair goes ih =>
    rw [linesFrom,if_neg goes]
    · exact ih (List.forall_mem_cons.mpr ⟨Bool.eq_false_iff.mpr goes,begun⟩)
    · exact pair

theorem linesUnbroken (cs : List Char) : ∀ l ∈ lines cs, Unbroken l :=
  linesFromUnbroken (List.forall_mem_nil _)

theorem linesFromPast {l : List Char} (unbroken : Unbroken l) (rest line : List Char) :
    linesFrom (l ++ rest) line = linesFrom rest (l.reverse ++ line) := by
  induction l generalizing line with
  | nil => rfl
  | cons c l ih =>
    obtain ⟨here,later⟩ := List.forall_mem_cons.mp unbroken
    rw [List.cons_append,linesFrom,if_neg (Bool.eq_false_iff.mp here),ih later]
    · simp
    · intro _ same _
      rw [same] at here
      cases here

/-- Lines are found again after they were joined; an empty one at the end would be lost. -/
theorem linesJoined {ls : List (List Char)} (each : ∀ l ∈ ls, l ≠ [] ∧ Unbroken l) :
    lines (['\n'].intercalate ls) = ls := by
  induction ls with
  | nil => rfl
  | cons l ls ih =>
    obtain ⟨⟨given,unbroken⟩,later⟩ := List.forall_mem_cons.mp each
    have ends : isBreak '\n' = true := rfl
    cases ls with
    | nil =>
      have alone := linesFromPast unbroken [] []
      rw [List.append_nil,List.append_nil] at alone
      rw [List.intercalate_singleton,lines,alone,linesFrom,if_neg (by simpa using given),
        List.reverse_reverse]
    | cons m ls =>
      rw [List.intercalate_cons_cons,List.append_assoc,List.singleton_append,lines,
        linesFromPast unbroken,linesFrom,if_pos ends,List.append_nil,List.reverse_reverse]
      · exact congrArg _ (ih later)
      · exact fun _ same _ => absurd same (by decide)

end Montage
