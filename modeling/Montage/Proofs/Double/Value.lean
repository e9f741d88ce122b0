import Montage.Proofs.Double.Scale
import Montage.Proofs.Double.Text

/-! Exact values. The text of a time with three places stands for a value within half a millisecond
of the time, and of two times the earlier has no later text. An overflown time has a text too, and
an infinite value. -/
namespace Montage
open Float.Model Float.Model.UnpackedFloat

/-- The exact value of a finite double. -/
def ratio (x : Float) : ℚ :=
  match Exact.ofFloat x with
  | .finite negative m e => Exact.signed negative (Exact.top m e) / Exact.bottom e
  | _ => 0

/-- The exact value, where the infinities have theirs. -/
noncomputable def extended (x : Float) : EReal :=
  match Exact.ofFloat x with
  | .infinite negative => if negative then ⊥ else ⊤
  | _ => (ratio x : ℝ)

section
variable {x y : Float}

theorem ratioPlace (finite : x.isFinite = true) : ratio x = place x / ones := by
  obtain ⟨negative,m,e,read,positive,same⟩ := exactPlace finite
  have wide := onesPositive
  have bottom : (Exact.bottom e : ℚ) ≠ 0 := by exact_mod_cast positive.ne'
  have scale : (ones : ℚ) ≠ 0 := by exact_mod_cast wide.ne'
  unfold ratio
  rw [read,div_eq_div_iff bottom scale]
  exact_mod_cast same

theorem ratioRises (hx : x.isFinite = true) (hy : y.isFinite = true) :
    ratio x ≤ ratio y ↔ x ≤ y := by
  have scale : (0 : ℚ) < ones := by exact_mod_cast onesPositive
  rw [ratioPlace hx,ratioPlace hy,div_le_div_iff_of_pos_right scale,leIff,Int.cast_le]
  exact ⟨fun le => ⟨finiteNumber hx,finiteNumber hy,le⟩,fun le => le.2.2⟩

theorem extendedFinite (finite : x.isFinite = true) : extended x = ((ratio x : ℝ) : EReal) := by
  obtain ⟨negative,m,e,read,_,_⟩ := exactPlace finite
  unfold extended
  rw [read]

theorem infiniteRead (number : x.isNaN = false) (infinite : ¬ x.isFinite = true) :
    (Exact.ofFloat x = .infinite true ∧ place x = -beyond) ∨
      (Exact.ofFloat x = .infinite false ∧ place x = beyond) := by
  obtain ⟨s,h⟩ := infiniteCases number infinite
  have places := (infinitePlace h).2
  unfold Exact.ofFloat
  rw [h]
  cases s with
  | negative => exact .inl ⟨rfl,places⟩
  | positive => exact .inr ⟨rfl,places⟩

theorem extendedBottom (read : Exact.ofFloat x = .infinite true) : extended x = ⊥ := by
  unfold extended
  rw [read]
  rfl

theorem extendedTop (read : Exact.ofFloat x = .infinite false) : extended x = ⊤ := by
  unfold extended
  rw [read]
  rfl

theorem extendedRises (le : x ≤ y) : extended x ≤ extended y := by
  obtain ⟨hx,hy,places⟩ := (leIff x y).mp le
  have wide := beyondPositive
  by_cases left : x.isFinite = true
  · have inside := (finiteIff x).mp left
    by_cases right : y.isFinite = true
    · rw [extendedFinite left,extendedFinite right]
      exact_mod_cast (ratioRises left right).mpr le
    rcases infiniteRead hy right with ⟨_,at'⟩ | ⟨read,_⟩
    · omega
    · exact extendedTop read ▸ le_top
  rcases infiniteRead hx left with ⟨read,_⟩ | ⟨_,at'⟩
  · exact extendedBottom read ▸ bot_le
  · have most := placeAtMost hy
    have right : ¬ y.isFinite = true := fun finite => by
      have inside := (finiteIff y).mp finite
      omega
    rcases infiniteRead hy right with ⟨_,at''⟩ | ⟨read,_⟩
    · omega
    · exact extendedTop read ▸ le_top

theorem extendedMin (hx : x.isNaN = false) (hy : y.isNaN = false) :
    extended (firstMin x y) = min (extended x) (extended y) := by
  unfold firstMin
  split
  · rename_i less
    exact (min_eq_right (extendedRises (leOfLess less))).symm
  · rename_i notLess
    exact (min_eq_left (extendedRises ((notLtIff hy hx).mp notLess))).symm

end

namespace Decimal
variable {x y : Float}

/-- What a decimal text stands for, also where it names an infinity. -/
noncomputable def reading? (s : String) : Option EReal :=
  match value? s with
  | some v => some ((v : ℝ) : EReal)
  | none => if s = "inf" then some ⊤ else if s = "-inf" then some ⊥ else none

/-- What the text of a time stands for. -/
noncomputable def told (x : Float) : EReal :=
  if x.isFinite then (((shown 3 x / 10 ^ 3 : ℚ) : ℝ) : EReal) else extended x

theorem readingTold (number : x.isNaN = false) : reading? (secondsText x) = some (told x) := by
  unfold reading? told
  by_cases finite : x.isFinite = true
  · rw [if_pos finite,secondsText,fixedValue finite (by omega)]
  rw [if_neg finite]
  have above : value? "inf" = none := by decide +kernel
  have below : value? "-inf" = none := by decide +kernel
  rcases infiniteRead number finite with ⟨read,_⟩ | ⟨read,_⟩
  · have text : secondsText x = "-inf" := by
      unfold secondsText fixed fixedChars
      rw [read]
      rfl
    rw [text,below,extendedBottom read]
    rfl
  · have text : secondsText x = "inf" := by
      unfold secondsText fixed fixedChars
      rw [read]
      rfl
    rw [text,above,extendedTop read]
    rfl

theorem toldRises (hy : y.isFinite = true) (le : x ≤ y) : told x ≤ told y := by
  obtain ⟨number,_,places⟩ := (leIff x y).mp le
  unfold told
  rw [if_pos hy]
  by_cases finite : x.isFinite = true
  · have scale : (0 : ℚ) ≤ 10 ^ 3 := by positivity
    have units : (shown 3 x : ℚ) ≤ shown 3 y := by exact_mod_cast shownRises places
    rw [if_pos finite]
    exact_mod_cast div_le_div_of_nonneg_right units scale
  rw [if_neg finite]
  rcases infiniteRead number finite with ⟨read,_⟩ | ⟨_,at'⟩
  · exact extendedBottom read ▸ bot_le
  · have inside := (finiteIff y).mp hy
    omega

theorem shownClose (places : Nat) (finite : x.isFinite = true) :
    |(shown places x / 10 ^ places : ℚ) - ratio x| ≤ 1 / (2 * 10 ^ places) := by
  have scale : (0 : ℚ) < ones := by exact_mod_cast onesPositive
  have tens : (0 : ℚ) < 10 ^ places := by positivity
  have near : |2 * ((shown places x : ℚ) * ones) - 2 * (place x * 10 ^ places)| ≤ ones := by
    exact_mod_cast shownNear places x
  rw [← mul_sub,abs_mul,abs_of_pos (by norm_num : (0 : ℚ) < 2)] at near
  rw [ratioPlace finite,div_sub_div _ _ tens.ne' scale.ne',abs_div,
    abs_of_pos (mul_pos tens scale),div_le_div_iff₀ (mul_pos tens scale) (by positivity),
    mul_comm (10 ^ places : ℚ) (place x)]
  calc _ = 2 * |(shown places x : ℚ) * ones - place x * 10 ^ places| * 10 ^ places := by ring
    _ ≤ ones * 10 ^ places := mul_le_mul_of_nonneg_right near tens.le
    _ = _ := by ring

/-- Half a millisecond apart at most. -/
def Near (u v : EReal) : Prop := u ≤ v + (0.0005 : ℝ) ∧ v ≤ u + (0.0005 : ℝ)

theorem toldNear (x : Float) : Near (told x) (extended x) := by
  unfold told
  by_cases finite : x.isFinite = true
  · obtain ⟨low,high⟩ := abs_le.mp (shownClose 3 finite)
    have half : (0.0005 : ℝ) = ((1 / (2 * 10 ^ 3) : ℚ) : ℝ) := by norm_num
    rw [if_pos finite,extendedFinite finite]
    unfold Near
    rw [half]
    constructor
    · exact_mod_cast (by linarith : (shown 3 x / 10 ^ 3 : ℚ) ≤ ratio x + 1 / (2 * 10 ^ 3))
    · exact_mod_cast (by linarith : ratio x ≤ (shown 3 x / 10 ^ 3 : ℚ) + 1 / (2 * 10 ^ 3))
  · have half : (0 : EReal) ≤ ((0.0005 : ℝ) : EReal) := by
      exact_mod_cast (by norm_num : (0 : ℝ) ≤ 0.0005)
    rw [if_neg finite]
    exact ⟨le_add_of_nonneg_right half,le_add_of_nonneg_right half⟩

end Decimal
end Montage
