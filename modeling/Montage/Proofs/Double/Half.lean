import Montage.Proofs.Double.Grid
import Montage.Proofs.Double.Scale

/-! Half a second. Below `2 ^ 51` the steps between doubles are a quarter of a second at most, so
that half a second added is never lost and half a second taken away is taken away exactly. -/
namespace Montage
open Float.Model Float.Model.UnpackedFloat

theorem furthestWhole : IsWhole 2251799813685248 (2 ^ 51 : Nat) := ofNatWhole (n := 2 ^ 51) (by omega)

theorem finiteNear {x : Float} (least : 0 ≤ x) (near : x < 2251799813685248) :
    x.isFinite = true :=
  finiteBetween least (leOfLess near) rfl rfl

theorem stepBelow {x : Float} (least : 0 ≤ x) (near : x < 2251799813685248) :
    ∃ m k : Nat, place x = (m * 2 ^ k : Nat) ∧ m < 2 ^ 53 ∧ k ≤ 1072 := by
  obtain ⟨_,_,upper⟩ := (ltIff x _).mp near
  obtain ⟨k,last,eq⟩ := onesEq
  obtain ⟨j,rfl⟩ : ∃ j, k = j + 2 := ⟨k - 2,by omega⟩
  refine (show j = 1072 by omega) ▸ placeStepsBelow (j := j) least (finiteNear least near) ?_
  rw [furthestWhole.place,eq] at upper
  rw [show 2 ^ 53 * 2 ^ j = 2 ^ 51 * 2 ^ (j + 2) by ring]
  exact_mod_cast upper

/-- The sum comes to the next double at least. -/
theorem halfMore {x : Float} (least : 0 ≤ x) (near : x < 2251799813685248) : x < x + 0.5 := by
  obtain ⟨m,k,at',small,low⟩ := stepBelow least near
  obtain ⟨j,last,half,_⟩ := halfEq
  obtain ⟨number,sum⟩ := sumPlace (finiteNear least near) (y := 0.5) rfl
  have next := roundedSteps (n := m + 1) (k := k) (d := 1) (by omega) (by omega) Nat.one_pos
  rw [Nat.mul_one] at next
  have step : 2 ^ k ≤ 2 ^ j := Nat.pow_le_pow_right (by omega) (by omega)
  have grows : (m + 1) * 2 ^ k = m * 2 ^ k + 2 ^ k := by ring
  have most : rounded ((m + 1) * 2 ^ k : Nat) 1 ≤ rounded (place x + place 0.5) 1 := by
    refine roundedMono Nat.one_pos Nat.one_pos ?_
    rw [at',half]
    omega
  have some : 0 < 2 ^ k := by positivity
  refine (ltIff _ _).mpr ⟨(numberOfLess near).1,number,?_⟩
  rw [sum]
  omega

/-- What is added may be infinite. -/
theorem sumMoreThan {x y : Float} (least : 0 ≤ x) (near : x < 2251799813685248) (half : 0.5 ≤ y) :
    x < x + y := by
  have finite := finiteNear least near
  by_cases last : y.isFinite = true
  · exact lessOfLess (halfMore least near) (sumRisesBehind half rfl last finite)
  · obtain ⟨number,above⟩ := sumBeyond finite (leTrans (by decide) half) last
    exact (ltIff _ _).mpr ⟨finiteNumber finite,number,above ▸ ((finiteIff x).mp finite).2.2⟩

theorem halfLess {x : Float} (least : 0.5 ≤ x) (near : x < 2251799813685248) :
    (x - 0.5).isNaN = false ∧ place (x - 0.5) = place x - place 0.5 := by
  have positive : 0 ≤ x := leTrans (by decide) least
  obtain ⟨m,k,at',small,low⟩ := stepBelow positive near
  obtain ⟨j,last,half,_⟩ := halfEq
  obtain ⟨_,_,enough⟩ := (leIff _ _).mp least
  obtain ⟨steps,scale⟩ : ∃ steps, 2 ^ j = steps * 2 ^ k := by
    refine ⟨2 ^ (j - k),?_⟩
    rw [← Nat.pow_add]
    congr 1
    omega
  have whole : place x - place 0.5 = ((m : Int) - steps) * (2 ^ k : Nat) := by
    rw [at',half,scale]
    push_cast
    ring
  have within : steps ≤ m := by
    rw [at',half,scale] at enough
    exact Nat.le_of_mul_le_mul_right (by exact_mod_cast enough) (by positivity)
  exact differenceUnits (finiteNear positive near) rfl whole (by omega) (by omega)

theorem halfBefore {x : Float} (least : 0.5 ≤ x) (near : x < 2251799813685248) : x - 0.5 < x := by
  obtain ⟨number,less⟩ := halfLess least near
  obtain ⟨j,_,half,_⟩ := halfEq
  have some : 0 < 2 ^ j := by positivity
  exact (ltIff _ _).mpr ⟨number,(numberOfLe least).2,by omega⟩

/-- What is half a second before `x` at the latest, is at `x` at the latest half a second on, also
where half a second is less than the steps between doubles. -/
theorem halfBack {x y : Float} (least : 0.5 ≤ x) (finite : x.isFinite = true) (positive : 0 ≤ y)
    (before : y ≤ x - 0.5) : y + 0.5 ≤ x := by
  obtain ⟨m,k,at',small,full⟩ := placeSteps (leTrans (by decide) least) finite
  obtain ⟨j,last,half,_⟩ := halfEq
  obtain ⟨_,_,enough⟩ := (leIff _ _).mp least
  obtain ⟨numberY,_,places⟩ := (leIff _ _).mp before
  have exact : rounded (place x) 1 = place x := roundedExact (canonical x) finite
  have back := backAndForth (k := k) (j := j) small (full.imp_right (by omega))
    (by rw [at',half] at enough; exact_mod_cast enough) (by omega) (by rwa [← at'])
  have below := (differencePlace finite (y := 0.5) rfl).2
  have finiteY : y.isFinite = true :=
    finiteBetween positive (leTrans before (differenceLe finite rfl (by decide))) rfl finite
  obtain ⟨number,sum⟩ := sumPlace finiteY (y := 0.5) rfl
  refine (leIff _ _).mpr ⟨number,(numberOfLe least).2,?_⟩
  rw [← at',← half,← below] at back
  calc place (y + 0.5) = rounded (place y + place 0.5) 1 := sum
    _ ≤ rounded (place (x - 0.5) + place 0.5) 1 :=
      roundedMono Nat.one_pos Nat.one_pos (by omega)
    _ ≤ place x := back

theorem halfShort {x : Float} (positive : 0 ≤ x) (short : x < 0.5) : x - 0.5 ≤ 0 := by
  have finite : x.isFinite = true := finiteStart positive short
  exact (notLtIff rfl (differencePlace finite rfl).1).mp (differenceNone finite rfl (leOfLess short))

end Montage
