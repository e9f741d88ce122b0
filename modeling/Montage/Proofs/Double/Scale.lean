import Montage.Fault
import Montage.Proofs.Double.Number

/-! Scaling and shifting keep the order of doubles, and every finite double has whole numbers beside
it. -/
namespace Montage
open Float.Model Float.Model.UnpackedFloat

theorem quotientRises {x y c : Float} (le : x ≤ y) (hx : x.isFinite = true)
    (hy : y.isFinite = true) (hc : c.isFinite = true) (positive : 0 < c) : x / c ≤ y / c := by
  have above := placePast positive
  obtain ⟨left,atLeft⟩ := quotientPlace hx hc above
  obtain ⟨right,atRight⟩ := quotientPlace hy hc above
  refine (leIff _ _).mpr ⟨left,right,?_⟩
  rw [atLeft,atRight]
  refine roundedMono (by omega) (by omega) ?_
  exact Int.mul_le_mul_of_nonneg_right
    (Int.mul_le_mul_of_nonneg_right ((leIff x y).mp le).2.2 (by omega)) (by omega)

theorem roundedPlace {x : Float} (finite : x.isFinite = true) : rounded (place x) 1 = place x :=
  roundedExact (canonical x) finite

theorem quotientFalls {x c : Float} (least : 0 ≤ x) (hx : x.isFinite = true)
    (hc : c.isFinite = true) (one : ones ≤ place c) : x / c ≤ x := by
  have wide := onesPositive
  have positive := placeLeast least
  obtain ⟨number,at'⟩ := quotientPlace hx hc (by omega)
  refine (leIff _ _).mpr ⟨number,finiteNumber hx,?_⟩
  refine le_of_eq_of_le at' (le_of_le_of_eq ?_ (roundedPlace hx))
  refine roundedMono (by omega) Nat.one_pos ?_
  rw [Nat.cast_one,Int.mul_one]
  exact Int.mul_le_mul_of_nonneg_left (by omega) positive

theorem quotientNegative {x c : Float} (most : x ≤ 0) (hc : c.isFinite = true) (positive : 0 < c) :
    x / c ≤ 0 := by
  obtain ⟨number,_,places⟩ := (leIff x 0).mp most
  have above := placePast positive
  change place x ≤ 0 at places
  by_cases finite : x.isFinite = true
  · obtain ⟨number',at'⟩ := quotientPlace finite hc above
    have scaled : place x * ones ≤ 0 :=
      Int.mul_nonpos_of_nonpos_of_nonneg places (Int.natCast_nonneg _)
    exact (leIff _ _).mpr ⟨number',rfl,at' ▸ roundedMost scaled _⟩
  · have wide := beyondPositive
    obtain ⟨s,h⟩ := infiniteCases number finite
    rw [(infinitePlace h).2] at places
    have below : StandsAt (UnpackedFloat.div Format.binary64 x.toModel.unpack c.toModel.unpack)
        (-beyond) := by
      change c.toModel.unpack.isFinite = true at hc
      change 0 < placeOf c.toModel.unpack at above
      rw [h]
      cases s with
      | positive =>
        simp only [Sign.apply] at places
        omega
      | negative =>
        cases k : c.toModel.unpack with
        | notANumber => simp [k,UnpackedFloat.isFinite] at hc
        | infinity t => simp [k,UnpackedFloat.isFinite] at hc
        | zero t => simp [k,placeOf] at above
        | finite t n f some =>
          cases t with
          | negative =>
            have := placePositive n f some
            simp only [k,placeOf,Sign.apply] at above
            omega
          | positive => exact packedInfinity .negative
    exact (leIff _ _).mpr ⟨below.1,rfl,below.2.trans_le (Int.neg_nonpos_of_nonneg wide.le)⟩

theorem productRises {x y c : Float} (le : x ≤ y) (hx : x.isFinite = true)
    (hy : y.isFinite = true) (hc : c.isFinite = true) (least : 0 ≤ c) : x * c ≤ y * c := by
  have above := placeLeast least
  obtain ⟨left,atLeft⟩ := productPlace hx hc
  obtain ⟨right,atRight⟩ := productPlace hy hc
  refine (leIff _ _).mpr ⟨left,right,?_⟩
  rw [atLeft,atRight]
  refine roundedMono onesPositive onesPositive ?_
  exact Int.mul_le_mul_of_nonneg_right
    (Int.mul_le_mul_of_nonneg_right ((leIff x y).mp le).2.2 above) (by omega)

theorem sumRises {x y c : Float} (le : x ≤ y) (hx : x.isFinite = true) (hy : y.isFinite = true)
    (hc : c.isFinite = true) : x + c ≤ y + c := by
  obtain ⟨left,atLeft⟩ := sumPlace hx hc
  obtain ⟨right,atRight⟩ := sumPlace hy hc
  refine (leIff _ _).mpr ⟨left,right,?_⟩
  rw [atLeft,atRight]
  refine roundedMono Nat.one_pos Nat.one_pos ?_
  have places := ((leIff x y).mp le).2.2
  omega

theorem sumRisesBehind {x y c : Float} (le : x ≤ y) (hx : x.isFinite = true)
    (hy : y.isFinite = true) (hc : c.isFinite = true) : c + x ≤ c + y := by
  obtain ⟨left,atLeft⟩ := sumPlace hc hx
  obtain ⟨right,atRight⟩ := sumPlace hc hy
  refine (leIff _ _).mpr ⟨left,right,?_⟩
  rw [atLeft,atRight]
  refine roundedMono Nat.one_pos Nat.one_pos ?_
  have places := ((leIff x y).mp le).2.2
  omega

theorem finiteOfTenfold {x : Float} (finite : (x * 10).isFinite = true) : x.isFinite = true := by
  change (Float.Model.pack (UnpackedFloat.mul Format.binary64 x.toModel.unpack
    (10 : Float).toModel.unpack)).unpack.isFinite = true at finite
  change x.toModel.unpack.isFinite = true
  cases h : x.toModel.unpack with
  | notANumber => exact absurd (h ▸ finite) (by decide)
  | infinity s => cases s <;> exact absurd (h ▸ finite) (by decide)
  | zero s => rfl
  | finite s m e positive => rfl

theorem finiteOfShifted {x : Float} (finite : (x + 0.5).isFinite = true) : x.isFinite = true := by
  change (Float.Model.pack (UnpackedFloat.add Format.binary64 x.toModel.unpack
    (0.5 : Float).toModel.unpack)).unpack.isFinite = true at finite
  change x.toModel.unpack.isFinite = true
  cases h : x.toModel.unpack with
  | notANumber => exact absurd (h ▸ finite) (by decide)
  | infinity s => cases s <;> exact absurd (h ▸ finite) (by decide)
  | zero s => rfl
  | finite s m e positive => rfl

/-- Of two times, the earlier can be rounded to a tenth if the later can. -/
theorem tenthsFinite {x y : Float} (least : 0 ≤ x) (le : x ≤ y)
    (finite : (y * 10 + 0.5).isFinite = true) : (x * 10 + 0.5).isFinite = true := by
  have tenfold := finiteOfShifted finite
  have last := finiteOfTenfold tenfold
  have first := finiteBetween least le rfl last
  have low : 0 * 10 ≤ x * 10 := productRises least rfl first rfl (by decide)
  have high : x * 10 ≤ y * 10 := productRises le first last rfl (by decide)
  have scaled := finiteBetween low high rfl tenfold
  exact finiteBetween (sumRises low rfl scaled rfl) (sumRises high scaled tenfold rfl) rfl finite

theorem wholeIff (round : Bool → Nat → Nat → Int) (x : Float) :
    (∃ n, wholeBy round x = .ok n) ↔ x.isFinite = true := by
  unfold wholeBy Exact.ofFloat
  change _ ↔ x.toModel.unpack.isFinite = true
  cases x.toModel.unpack <;> simp [UnpackedFloat.isFinite]

theorem quotientShort (negative : Bool) {m : Nat} {e : Int} (d : Nat) (small : m < 2 ^ 53)
    (most : e ≤ 971) :
    ((Exact.signed negative (Exact.top m e)).tdiv d).natAbs < 10 ^ mostDigits := by
  have size : (Exact.signed negative (Exact.top m e)).natAbs = Exact.top m e := by
    cases negative <;> simp [Exact.signed]
  have limit : 53 + e.toNat ≤ mostDigits := by
    unfold mostDigits
    omega
  rw [Int.natAbs_tdiv,size]
  calc Exact.top m e / _ ≤ m * 2 ^ e.toNat := Nat.div_le_self _ _
    _ < 2 ^ 53 * 2 ^ e.toNat := Nat.mul_lt_mul_of_pos_right small (Nat.two_pow_pos _)
    _ = 2 ^ (53 + e.toNat) := (Nat.pow_add 2 53 _).symm
    _ ≤ 10 ^ (53 + e.toNat) := Nat.pow_le_pow_left (by omega) _
    _ ≤ 10 ^ mostDigits := Nat.pow_le_pow_right (by omega) limit

/-- The whole part of a double has some three hundred digits at most. -/
theorem wholePartShort {x : Float} {n : Int} (ok : wholeTowardZero x = .ok n) :
    n.natAbs < 10 ^ mostDigits := by
  have shape := canonical x
  unfold wholeTowardZero wholeBy Exact.ofFloat at ok
  revert ok shape
  cases x.toModel.unpack with
  | notANumber => exact fun ok => nomatch ok
  | infinity s => exact fun ok => nomatch ok
  | zero s =>
    intro ok _
    cases Except.ok.inj ok
    exact quotientShort _ _ (by omega) (by omega)
  | finite s m e p =>
    rintro ok ⟨small,_,most,_⟩
    cases Except.ok.inj ok
    exact quotientShort _ _ small most

end Montage
