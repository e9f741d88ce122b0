import Montage.Proofs.Answer
import Montage.Proofs.Double.Scale
import Montage.Proofs.Double.Text
import Montage.Render.Effects

/-! Strengths of effects. From none to a hundred a zoom grows by half of its size, a blur by its
greatest radius or sigma. Every step between is rounded, and none of the roundings turns the order
round; so what holds at both ends of the range holds of all that is between them. -/
namespace Montage

section
variable {i j : Float}

/-- A part of `c`, in hundredths. -/
theorem partRises {c : Float} (finite : c.isFinite = true) (least : 0 ≤ c) (low : 0 ≤ i)
    (le : i ≤ j) (high : j ≤ 100) : i / 100 * c ≤ j / 100 * c := by
  have first := finiteBetween low (leTrans le high) rfl rfl
  have last := finiteBetween (leTrans low le) high rfl rfl
  have hundredth {x : Float} (low : 0 ≤ x) (high : x ≤ 100) : (x / 100).isFinite = true := by
    have inside := finiteBetween low high rfl rfl
    have above : 0 / 100 ≤ x / 100 := quotientRises low rfl inside rfl (by decide)
    have below : x / 100 ≤ 100 / 100 := quotientRises high inside rfl rfl (by decide)
    exact finiteBetween above below rfl rfl
  exact productRises (quotientRises le first last rfl (by decide)) (hundredth low (leTrans le high))
    (hundredth (leTrans low le) high) finite least

theorem partFinite {c : Float} (finite : c.isFinite = true) (least : 0 ≤ c)
    (none : (0 / 100 * c).isFinite = true) (all : (100 / 100 * c).isFinite = true)
    (low : 0 ≤ i) (high : i ≤ 100) : (i / 100 * c).isFinite = true :=
  finiteBetween (partRises finite least (by decide) low high)
    (partRises finite least low high (by decide)) none all

theorem scaleRises (low : 0 ≤ i) (le : i ≤ j) (high : j ≤ 100) :
    amplifyScale i ≤ amplifyScale j := by
  have first := partFinite (c := 0.5) rfl (by decide) rfl rfl low (leTrans le high)
  have last := partFinite (c := 0.5) rfl (by decide) rfl rfl (leTrans low le) high
  exact sumRisesBehind (partRises rfl (by decide) low le high) first last rfl

theorem sigmaRises (low : 0 ≤ i) (le : i ≤ j) (high : j ≤ 100) :
    softenSigma i ≤ softenSigma j :=
  partRises rfl (by decide) low le high

theorem radiusShown (low : 0 ≤ i) (high : i ≤ 100) :
    softenRadius i = .ok (max 1 (Decimal.shown 0 (i / 100 * 5))) := by
  have finite := partFinite (c := 5) rfl (by decide) rfl rfl low high
  exact bindTotal (wholeOk.mpr (Decimal.wholeNearestShown finite)) rfl

theorem radiusRises (low : 0 ≤ i) (le : i ≤ j) (high : j ≤ 100) :
    ∃ r r', softenRadius i = .ok r ∧ softenRadius j = .ok r' ∧ r ≤ r' := by
  have part := partRises (c := 5) rfl (by decide) low le high
  have rises : Decimal.shown 0 (i / 100 * 5) ≤ Decimal.shown 0 (j / 100 * 5) :=
    Decimal.shownRises ((leIff _ _).mp part).2.2
  exact ⟨_,_,radiusShown low (leTrans le high),radiusShown (leTrans low le) high,
    max_le_max_left 1 rises⟩

theorem scaleWithin (low : 0 ≤ i) (high : i ≤ 100) : 1 ≤ amplifyScale i ∧ amplifyScale i ≤ 1.5 :=
  ⟨leTrans (by decide +kernel) (scaleRises (by decide) low high),
    leTrans (scaleRises low high (by decide)) (by decide +kernel)⟩

theorem sigmaWithin (low : 0 ≤ i) (high : i ≤ 100) : 0 ≤ softenSigma i ∧ softenSigma i ≤ 10 :=
  ⟨leTrans (by decide +kernel) (sigmaRises (by decide) low high),
    leTrans (sigmaRises low high (by decide)) (by decide +kernel)⟩

theorem radiusWithin (low : 0 ≤ i) (high : i ≤ 100) :
    ∃ r, softenRadius i = .ok r ∧ 1 ≤ r ∧ r ≤ 5 := by
  obtain ⟨_,r,none,found,above⟩ := radiusRises (i := 0) (by decide) low high
  obtain ⟨_,_,found',full,below⟩ := radiusRises (j := 100) low high (by decide)
  have least : softenRadius 0 = .ok 1 := by decide +kernel
  have most : softenRadius 100 = .ok 5 := by decide +kernel
  cases least.symm.trans none
  cases most.symm.trans full
  cases found.symm.trans found'
  exact ⟨r,found,above,below⟩

end

end Montage
