import Montage.Proofs.Double.Compact
import Montage.Proofs.Render.Policy

/-! Measured strengths. An intensity that is let in gives a zoom, a radius and a sigma in their
ranges, and the texts of the filters keep to the ranges when they are read back. -/
namespace Montage

/-- A text stands for nothing outside of the two numbers that the value is between. -/
theorem compactBetween {x a b : Float} (above : a ≤ x) (below : x ≤ b) (ha : a.isFinite = true)
    (hb : b.isFinite = true) : ∃ v, Decimal.value? (Decimal.compactText x) = some v ∧
      (Decimal.shown 4 a / 10 ^ 4 : ℚ) ≤ v ∧ v ≤ (Decimal.shown 4 b / 10 ^ 4 : ℚ) :=
  ⟨_,Decimal.compactValue (finiteBetween above below ha hb),Decimal.shownUnitsRise 4 above,
    Decimal.shownUnitsRise 4 below⟩

theorem zoomShown (e : Effect) (width height rate : Int) :
    (zoomFilter e width height rate).value? "z" = some (inQuotes ("if(" ++
      gate "in_time" e.start e.stop ++ "," ++ Decimal.compactText (amplifyScale e.intensity) ++
        ",1)")) :=
  (Filter.valueMake (by decide) (by simp)).trans rfl

theorem sigmaShown (e : Effect) :
    (gaussBlurFilter e).value? "sigma" = some (Decimal.compactText (softenSigma e.intensity)) :=
  (Filter.valueMake (by decide) (by simp)).trans rfl

namespace Effect

/-- What comes of the strength of an effect is in its range, also as a text. -/
structure Measured (e : Effect) : Prop where
  scale : 1 ≤ amplifyScale e.intensity ∧ amplifyScale e.intensity ≤ 1.5
  radius : ∃ r, softenRadius e.intensity = .ok r ∧ 1 ≤ r ∧ r ≤ 5
  sigma : 0 ≤ softenSigma e.intensity ∧ softenSigma e.intensity ≤ 10
  zoomed : e.kind = "amplify" → ∀ policy width height rate, ∃ f z v,
    effectFilters e policy width height rate = .ok [f] ∧
    f.value? "z" = some (inQuotes ("if(" ++ gate "in_time" e.start e.stop ++ "," ++ z ++ ",1)")) ∧
    Decimal.value? z = some v ∧ 1 ≤ v ∧ v ≤ 1.5
  blurred : e.kind = "soften" → ∀ policy width height rate, policy ≠ "first" → ∃ f s v,
    effectFilters e policy width height rate = .ok [f] ∧ f.value? "sigma" = some s ∧
    Decimal.value? s = some v ∧ 0 ≤ v ∧ v ≤ 10

variable {e e' : Effect}

theorem measured (ok : e.checkIntensity = .ok ()) : e.Measured := by
  obtain ⟨low,high⟩ := admitted ok
  have scale := scaleWithin low high
  have sigma := sigmaWithin low high
  refine ⟨scale,radiusWithin low high,sigma,fun amplify policy width height rate => ?_,
    fun soften policy width height rate other => ?_⟩
  · have one : Decimal.shown 4 1 = 10000 := by decide +kernel
    have half : Decimal.shown 4 1.5 = 15000 := by decide +kernel
    obtain ⟨v,read,above,below⟩ := compactBetween scale.1 scale.2 rfl rfl
    rw [one] at above
    rw [half] at below
    refine ⟨zoomFilter e width height rate,_,v,if_pos amplify,zoomShown e width height rate,read,
      ?_,?_⟩
    · norm_num at above
      exact above
    · norm_num at below ⊢
      exact below
  · have none : Decimal.shown 4 0 = 0 := by decide +kernel
    have ten : Decimal.shown 4 10 = 100000 := by decide +kernel
    obtain ⟨v,read,above,below⟩ := compactBetween sigma.1 sigma.2 rfl rfl
    rw [none] at above
    rw [ten] at below
    refine ⟨gaussBlurFilter e,_,v,?_,sigmaShown e,read,?_,?_⟩
    · rw [effectFiltersSoften soften,if_neg other]
      rfl
    · norm_num at above
      exact above
    · norm_num at below
      exact below

theorem strengthsOrdered (ok : e.checkIntensity = .ok ()) (ok' : e'.checkIntensity = .ok ())
    (le : e.intensity ≤ e'.intensity) : e.Measured ∧ e'.Measured ∧
      amplifyScale e.intensity ≤ amplifyScale e'.intensity ∧
      (∃ r r', softenRadius e.intensity = .ok r ∧ softenRadius e'.intensity = .ok r' ∧ r ≤ r') ∧
      softenSigma e.intensity ≤ softenSigma e'.intensity := by
  obtain ⟨low,_⟩ := admitted ok
  obtain ⟨_,high⟩ := admitted ok'
  exact ⟨measured ok,measured ok',scaleRises low le high,radiusRises low le high,
    sigmaRises low le high⟩

def haze : Effect := ⟨"haze","soften",33.3,0,4⟩

def closeUp : Effect := ⟨"close-up","amplify",99.99,1,3⟩

theorem hazeOrdered : haze.checkIntensity = .ok () ∧ closeUp.checkIntensity = .ok () ∧
    haze.intensity ≤ closeUp.intensity ∧ haze.Measured ∧ closeUp.Measured ∧
    amplifyScale haze.intensity ≤ amplifyScale closeUp.intensity ∧
    (∃ r r', softenRadius haze.intensity = .ok r ∧ softenRadius closeUp.intensity = .ok r' ∧
      r ≤ r') ∧ softenSigma haze.intensity ≤ softenSigma closeUp.intensity := by
  have ok : haze.checkIntensity = .ok () := by decide +kernel
  have ok' : closeUp.checkIntensity = .ok () := by decide +kernel
  have le : haze.intensity ≤ closeUp.intensity := by decide +kernel
  exact ⟨ok,ok',le,strengthsOrdered ok ok' le⟩

end Effect
end Montage
