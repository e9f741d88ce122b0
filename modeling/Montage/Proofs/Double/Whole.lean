import Montage.Proofs.Double.Number
import Montage.Timeline.Basic

/-! Whole numbers as doubles. Below `2 ^ 53` sums and differences of whole numbers are whole numbers
again, without rounding; a duration of whole seconds stays as it is when it is rounded to a tenth.
Zero has two signs, so that it alone is not told by its value. -/
namespace Montage
open Float.Model Float.Model.UnpackedFloat

structure IsWhole (x : Float) (n : Int) : Prop where
  number : x.isNaN = false
  place : place x = n * ones

theorem samePlaces {x y : Float} (hx : x.isNaN = false) (hy : y.isNaN = false)
    (same : place x = place y) (some : place x ≠ 0) : x = y := by
  obtain ⟨_,_,eq | ⟨rfl,_⟩ | ⟨rfl,_⟩⟩ := Float.beq_iff_ne_nan_and_eq.mp (beqPlace hx hy same)
  · exact eq
  · exact absurd rfl some
  · exact absurd rfl some

theorem roundedUnits {n : Int} {k d : Nat} (small : n.natAbs < 2 ^ 53) (low : k ≤ 1074)
    (positive : 0 < d) : rounded (n * (2 ^ k : Nat) * d) d = n * (2 ^ k : Nat) := by
  have exact := nearestPointExact (k := k) small positive
  have inside : n.natAbs * 2 ^ k < beyond := by
    have below := magnitudeBelow (m := n.natAbs) (e := (k : Int) - 1074) small (by omega)
    rwa [show ((k : Int) - 1074 + 1074).toNat = k by omega] at below
  obtain ⟨m,rfl | rfl⟩ := Int.eq_nat_or_neg n
  · rw [Int.natAbs_natCast] at exact inside
    rw [← roundedSign .positive (m * 2 ^ k * d) d (by simp [Sign.apply]),exact,
      Nat.min_eq_left inside.le]
    simp [Sign.apply]
  · rw [Int.natAbs_neg,Int.natAbs_natCast] at exact inside
    rw [← roundedSign .negative (m * 2 ^ k * d) d (by simp [Sign.apply]),exact,
      Nat.min_eq_left inside.le]
    simp [Sign.apply]

theorem finiteUnits {x : Float} {n : Int} {k : Nat} (number : x.isNaN = false)
    (units : place x = n * (2 ^ k : Nat)) (small : n.natAbs < 2 ^ 53) (low : k ≤ 1074) :
    x.isFinite = true := by
  have below := magnitudeBelow (m := n.natAbs) (e := (k : Int) - 1074) small (by omega)
  rw [show ((k : Int) - 1074 + 1074).toNat = k by omega] at below
  have size : (n * (2 ^ k : Nat)).natAbs = n.natAbs * 2 ^ k := by
    rw [Int.natAbs_mul,Int.natAbs_natCast]
  rw [finiteIff,units]
  exact ⟨number,by omega,by omega⟩

theorem roundedWhole {n : Int} {d : Nat} (small : n.natAbs < 2 ^ 53) (positive : 0 < d) :
    rounded (n * ones * d) d = n * ones := by
  obtain ⟨k,last,eq⟩ := onesEq
  rw [eq]
  exact roundedUnits small (by omega) positive

/-- On a grid that is coarse enough there is nothing to round. -/
theorem sumUnits {x y : Float} {n : Int} {k : Nat} (hx : x.isFinite = true)
    (hy : y.isFinite = true) (units : place x + place y = n * (2 ^ k : Nat))
    (small : n.natAbs < 2 ^ 53) (low : k ≤ 1074) :
    (x + y).isNaN = false ∧ place (x + y) = place x + place y := by
  obtain ⟨number,at'⟩ := sumPlace hx hy
  have exact := roundedUnits small low Nat.one_pos
  rw [Nat.cast_one,Int.mul_one,← units] at exact
  exact ⟨number,at'.trans exact⟩

theorem differenceUnits {x y : Float} {n : Int} {k : Nat} (hx : x.isFinite = true)
    (hy : y.isFinite = true) (units : place x - place y = n * (2 ^ k : Nat))
    (small : n.natAbs < 2 ^ 53) (low : k ≤ 1074) :
    (x - y).isNaN = false ∧ place (x - y) = place x - place y := by
  obtain ⟨number,at'⟩ := differencePlace hx hy
  have exact := roundedUnits small low Nat.one_pos
  rw [Nat.cast_one,Int.mul_one,← units] at exact
  exact ⟨number,at'.trans exact⟩

/-- `x` is `n` times `2 ^ k` units. -/
structure Units (k : Nat) (x : Float) (n : Int) : Prop where
  number : x.isNaN = false
  place : place x = n * (2 ^ k : Nat)

namespace Units
variable {k : Nat} {x y : Float} {m n : Int}

theorem finite (units : Units k x n) (low : k ≤ 1074) (small : n.natAbs < 2 ^ 53) :
    x.isFinite = true :=
  finiteUnits units.number units.place small low

theorem sum (hx : Units k x m) (hy : Units k y n) (low : k ≤ 1074) (smallX : m.natAbs < 2 ^ 53)
    (smallY : n.natAbs < 2 ^ 53) (small : (m + n).natAbs < 2 ^ 53) : Units k (x + y) (m + n) := by
  have units : Montage.place x + Montage.place y = (m + n) * (2 ^ k : Nat) := by
    rw [hx.place,hy.place,Int.add_mul]
  obtain ⟨number,at'⟩ := sumUnits (hx.finite low smallX) (hy.finite low smallY) units small low
  exact ⟨number,at'.trans units⟩

theorem difference (hx : Units k x m) (hy : Units k y n) (low : k ≤ 1074)
    (smallX : m.natAbs < 2 ^ 53) (smallY : n.natAbs < 2 ^ 53) (small : (m - n).natAbs < 2 ^ 53) :
    Units k (x - y) (m - n) := by
  have units : Montage.place x - Montage.place y = (m - n) * (2 ^ k : Nat) := by
    rw [hx.place,hy.place,Int.sub_mul]
  obtain ⟨number,at'⟩ := differenceUnits (hx.finite low smallX) (hy.finite low smallY) units small
    low
  exact ⟨number,at'.trans units⟩

theorem le (hx : Units k x m) (hy : Units k y n) : x ≤ y ↔ m ≤ n := by
  have scale : (0 : Int) < (2 ^ k : Nat) := by positivity
  rw [leIff,hx.place,hy.place]
  exact ⟨fun h => Int.le_of_mul_le_mul_right h.2.2 scale,
    fun h => ⟨hx.number,hy.number,Int.mul_le_mul_of_nonneg_right h scale.le⟩⟩

theorem lt (hx : Units k x m) (hy : Units k y n) : x < y ↔ m < n := by
  have scale : (0 : Int) < (2 ^ k : Nat) := by positivity
  rw [ltIff,hx.place,hy.place]
  exact ⟨fun h => Int.lt_of_mul_lt_mul_right h.2.2 scale.le,
    fun h => ⟨hx.number,hy.number,Int.mul_lt_mul_of_pos_right h scale⟩⟩

end Units

/-- The units of a whole number are `ones`. -/
theorem wholeUnits {x : Float} {n : Int} {k : Nat} (eq : ones = 2 ^ k) :
    IsWhole x n ↔ Units k x n :=
  ⟨fun whole => ⟨whole.number,eq ▸ whole.place⟩,fun units => ⟨units.number,eq ▸ units.place⟩⟩

namespace IsWhole
variable {x y : Float} {m n : Int}

theorem finite (whole : IsWhole x n) (small : n.natAbs < 2 ^ 53) : x.isFinite = true := by
  obtain ⟨k,last,eq⟩ := onesEq
  exact ((wholeUnits eq).mp whole).finite last.le small

theorem sum (hx : IsWhole x m) (hy : IsWhole y n) (smallX : m.natAbs < 2 ^ 53)
    (smallY : n.natAbs < 2 ^ 53) (small : (m + n).natAbs < 2 ^ 53) : IsWhole (x + y) (m + n) := by
  obtain ⟨k,last,eq⟩ := onesEq
  rw [wholeUnits eq] at hx hy ⊢
  exact hx.sum hy last.le smallX smallY small

theorem difference (hx : IsWhole x m) (hy : IsWhole y n) (smallX : m.natAbs < 2 ^ 53)
    (smallY : n.natAbs < 2 ^ 53) (small : (m - n).natAbs < 2 ^ 53) : IsWhole (x - y) (m - n) := by
  obtain ⟨k,last,eq⟩ := onesEq
  rw [wholeUnits eq] at hx hy ⊢
  exact hx.difference hy last.le smallX smallY small

theorem product (hx : IsWhole x m) (hy : IsWhole y n) (smallX : m.natAbs < 2 ^ 53)
    (smallY : n.natAbs < 2 ^ 53) (small : (m * n).natAbs < 2 ^ 53) : IsWhole (x * y) (m * n) := by
  obtain ⟨number,at'⟩ := productPlace (hx.finite smallX) (hy.finite smallY)
  refine ⟨number,?_⟩
  rw [at',hx.place,hy.place,← roundedWhole small onesPositive]
  ring_nf

theorem le (hx : IsWhole x m) (hy : IsWhole y n) : x ≤ y ↔ m ≤ n := by
  obtain ⟨k,_,eq⟩ := onesEq
  rw [wholeUnits eq] at hx hy
  exact hx.le hy

theorem lt (hx : IsWhole x m) (hy : IsWhole y n) : x < y ↔ m < n := by
  obtain ⟨k,_,eq⟩ := onesEq
  rw [wholeUnits eq] at hx hy
  exact hx.lt hy

theorem value (hx : IsWhole x m) (hy : IsWhole x n) : m = n := by
  have scale : (ones : Int) ≠ 0 := by exact_mod_cast onesPositive.ne'
  exact Int.eq_of_mul_eq_mul_right scale (hx.place.symm.trans hy.place)

/-- Only zero has two doubles. -/
theorem same (hx : IsWhole x n) (hy : IsWhole y n) (some : n ≠ 0) : x = y := by
  refine samePlaces hx.number hy.number (hx.place.trans hy.place.symm) ?_
  rw [hx.place]
  exact Int.mul_ne_zero some (by exact_mod_cast onesPositive.ne')

theorem max (hx : IsWhole x m) (hy : IsWhole y n) : IsWhole (firstMax x y) (Max.max m n) := by
  unfold firstMax
  split
  · rename_i less
    rwa [Int.max_eq_right (hx.lt hy |>.mp less).le]
  · rename_i notLess
    rwa [Int.max_eq_left (Int.not_lt.mp (notLess ∘ (hx.lt hy).mpr))]

theorem min (hx : IsWhole x m) (hy : IsWhole y n) : IsWhole (firstMin x y) (Min.min m n) := by
  unfold firstMin
  split
  · rename_i less
    rwa [Int.min_eq_right (hy.lt hx |>.mp less).le]
  · rename_i notLess
    rwa [Int.min_eq_left (Int.not_lt.mp (notLess ∘ (hy.lt hx).mpr))]

end IsWhole

theorem differenceSelf {x : Float} (finite : x.isFinite = true) : x - x = 0 := by
  have none : UnpackedFloat.sub Format.binary64 x.toModel.unpack x.toModel.unpack =
      .zero .positive := by
    change x.toModel.unpack.isFinite = true at finite
    revert finite
    cases x.toModel.unpack with
    | notANumber => exact fun finite => nomatch finite
    | infinity s => exact fun finite => nomatch finite
    | zero s => cases s <;> exact fun _ => rfl
    | finite s m e p =>
      intro _
      simp only [UnpackedFloat.sub,Int.sub_self]
      rfl
  change Float.ofModel (Float.Model.pack (UnpackedFloat.sub Format.binary64 _ _)) = 0
  rw [none]
  rfl

theorem ofNatWhole {n : Nat} (small : n < 2 ^ 53) : IsWhole (Float.ofNat n) n := by
  have size : n.toUInt64.toNat = n := by
    rw [Nat.toUInt64,UInt64.toNat_ofNat']
    omega
  have unit : IsWhole 1 1 := by
    refine ⟨rfl,?_⟩
    unfold ones
    decide +kernel
  have read : IsWhole n.toUInt64.toFloat n := by
    obtain ⟨number,at'⟩ := standsAtNormalized (z := n.toUInt64.toNat) (e := 0) (by omega)
    obtain ⟨k,last,eq⟩ := onesEq
    have exact := roundedWhole (n := n) (d := 1) (by omega) Nat.one_pos
    rw [Nat.cast_one,Int.mul_one] at exact
    refine ⟨number,at'.trans ?_⟩
    rw [show ((0 : Int) + 1074).toNat = k by omega,← eq,size,exact]
  have product := read.product unit (by omega) (by omega) (by omega)
  rw [Int.mul_one] at product
  change IsWhole (Float.ofScientific n false 0) n
  unfold Float.ofScientific
  rw [dif_pos ⟨small,by omega⟩]
  exact product

/-- The digits of a large number are more than a mantissa has already. -/
theorem standsAtDigits {n : Nat} (large : 2 ^ 53 ≤ n) :
    StandsAt (UnpackedFloat.ofScientific Format.binary64 n 0) (rounded (n * ones) 1) := by
  have some : n ≠ 0 := by omega
  have bits : Format.binary64.mantissaBits = 53 := rfl
  have most : (0 : Int) ≤ 2 ^ Format.binary64.exponentBits := by positivity
  have wide : 52 ≤ (n <<< Format.binary64.mantissaBits * 10 ^ (0 : Int).toNat).log2 := by
    rw [Nat.shiftLeft_eq,Nat.le_log2 (by positivity)]
    calc 2 ^ 52 ≤ n := by omega
      _ ≤ _ := by
        rw [Nat.mul_assoc]
        exact Nat.le_mul_of_pos_right n (by positivity)
  have at' := placeRounded (e := -Format.binary64.mantissaBits + 0) (d := 1) .positive Nat.one_pos
    (Nat.div_one _) (.inl wide)
  rw [Nat.mod_one] at at'
  have units : n <<< Format.binary64.mantissaBits * 10 ^ (0 : Int).toNat *
      2 ^ (-(Format.binary64.mantissaBits : Int) + 0 + 1074).toNat = n * ones := by
    obtain ⟨k,last,eq⟩ := onesEq
    rw [eq,Nat.shiftLeft_eq,Int.toNat_zero,Nat.pow_zero,Nat.mul_one,Nat.mul_assoc,← Nat.pow_add]
    congr 2
    omega
  unfold UnpackedFloat.ofScientific
  rw [dif_neg some,if_neg (by omega),if_neg (by omega),if_pos le_rfl]
  unfold StandsAt UnpackedFloat.mul
  have divisor : (-1074 - (-(Format.binary64.mantissaBits : Int) + 0)).toNat = 0 := by omega
  rw [units,divisor,Nat.pow_zero,Nat.mul_one] at at'
  have sign := roundedSign (z := n * ones) .positive (n * ones) 1 (by simp [Sign.apply])
  rw [sign] at at'
  exact at'

theorem ofNatPlace (n : Nat) :
    (Float.ofNat n).isNaN = false ∧ place (Float.ofNat n) = rounded (n * ones) 1 := by
  rcases Nat.lt_or_ge n (2 ^ 53) with small | large
  · have whole := ofNatWhole small
    have exact := roundedWhole (n := n) (d := 1) (by omega) Nat.one_pos
    rw [Nat.cast_one,Int.mul_one] at exact
    exact ⟨whole.number,by rw [whole.place,exact]⟩
  · change (Float.ofScientific n false 0).isNaN = false ∧ place (Float.ofScientific n false 0) = _
    unfold Float.ofScientific
    rw [dif_neg (by omega)]
    exact standsAtDigits large

theorem ofNatRises {m n : Nat} (le : m ≤ n) : Float.ofNat m ≤ Float.ofNat n := by
  obtain ⟨left,atLeft⟩ := ofNatPlace m
  obtain ⟨right,atRight⟩ := ofNatPlace n
  refine (leIff _ _).mpr ⟨left,right,?_⟩
  rw [atLeft,atRight]
  exact roundedMono Nat.one_pos Nat.one_pos (by gcongr)

theorem zeroWhole : IsWhole 0 0 := ofNatWhole (n := 0) (by omega)
theorem oneWhole : IsWhole 1 1 := ofNatWhole (n := 1) (by omega)
theorem fiveWhole : IsWhole 5 5 := ofNatWhole (n := 5) (by omega)
theorem tenWhole : IsWhole 10 10 := ofNatWhole (n := 10) (by omega)

theorem ofIntWhole {n : Int} (positive : 0 ≤ n) (small : n < 2 ^ 53) :
    IsWhole (Float.ofInt n) n := by
  obtain ⟨m,rfl⟩ := Int.eq_ofNat_of_zero_le positive
  exact ofNatWhole (by omega)

/-- The exact value of a double and its place are the same ratio. -/
theorem exactPlace {x : Float} (finite : x.isFinite = true) :
    ∃ negative m e, Exact.ofFloat x = .finite negative m e ∧ 0 < Exact.bottom e ∧
      Exact.signed negative (Exact.top m e) * ones = place x * Exact.bottom e := by
  have shape := canonical x
  change x.toModel.unpack.isFinite = true at finite
  unfold Exact.ofFloat place
  revert finite shape
  cases x.toModel.unpack with
  | notANumber => exact fun _ finite => nomatch finite
  | infinity s => exact fun _ finite => nomatch finite
  | zero s =>
    intro _ _
    exact ⟨_,_,_,rfl,by decide,by cases s <;> simp [Exact.top,Exact.signed,placeOf]⟩
  | finite s m e p =>
    rintro ⟨_,least,_⟩ _
    obtain ⟨k,last,eq⟩ := onesEq
    have powers : 2 ^ e.toNat * ones = 2 ^ (e + 1074).toNat * 2 ^ (-e).toNat := by
      rw [eq,← Nat.pow_add,← Nat.pow_add]
      congr 1
      omega
    have units : Exact.top m e * ones = m * 2 ^ (e + 1074).toNat * Exact.bottom e := by
      unfold Exact.top Exact.bottom
      rw [Nat.mul_assoc,Nat.mul_assoc]
      exact congrArg (m * ·) powers
    have same : (Exact.top m e : Int) * ones = (m * 2 ^ (e + 1074).toNat : Nat) * Exact.bottom e := by
      exact_mod_cast units
    refine ⟨_,_,_,rfl,Nat.pow_pos (by omega),?_⟩
    cases s with
    | positive => exact same
    | negative =>
      have negated := congrArg (- ·) same
      simp only [← Int.neg_mul] at negated
      exact negated

theorem wholeBelowPlace {x : Float} (finite : x.isFinite = true) :
    wholeBelow x = .ok (place x / ones) := by
  obtain ⟨negative,m,e,read,positive,same⟩ := exactPlace finite
  have wide := onesPositive
  unfold wholeBelow wholeBy
  rw [read]
  refine congrArg Except.ok ?_
  calc Exact.signed negative (Exact.top m e) / (Exact.bottom e : Int)
      = Exact.signed negative (Exact.top m e) * ones / (Exact.bottom e * ones) :=
        (Int.mul_ediv_mul_of_pos_left _ _ (by omega)).symm
    _ = place x * Exact.bottom e / (ones * Exact.bottom e) := by rw [same,Int.mul_comm (ones : Int)]
    _ = place x / ones := Int.mul_ediv_mul_of_pos_left _ _ (by omega)

theorem halfEq : ∃ k, k = 1073 ∧ place 0.5 = (2 ^ k : Nat) ∧ ones = 2 * 2 ^ k := by
  refine ⟨1073,rfl,by decide +kernel,?_⟩
  obtain ⟨k,last,eq⟩ := onesEq
  rw [eq,last,← Nat.pow_succ']

/-- A second and half a second, in steps of `2 ^ k` units. -/
theorem halfSteps {i : Nat} (low : i ≤ 1073) :
    ∃ k, k + i = 1073 ∧ ones = 2 ^ (i + 1) * 2 ^ k ∧ place 0.5 = (2 ^ i * 2 ^ k : Nat) := by
  obtain ⟨j,last,half,double⟩ := halfEq
  obtain ⟨k,rfl⟩ := Nat.exists_eq_add_of_le (last ▸ low)
  refine ⟨k,by omega,?_,?_⟩
  · rw [double]
    ring
  · rw [half,Nat.pow_add]

/-- The half that is added is what rounding down takes off again. -/
theorem wholeTenths {x : Float} {n : Int} (whole : IsWhole x n) (positive : 0 ≤ n)
    (small : n < 2 ^ 48) : wholeBelow (x * 10 + 0.5) = .ok (10 * n) := by
  have tens := whole.product tenWhole (by omega) (by omega) (by omega)
  obtain ⟨k,last,half,double⟩ := halfEq
  have sum : place (x * 10) + place 0.5 = (20 * n + 1) * (2 ^ (k) : Nat) := by
    rw [tens.place,half,double]
    push_cast
    ring
  obtain ⟨number,at'⟩ := sumUnits (tens.finite (by omega)) (y := 0.5) rfl sum (by omega) (by omega)
  rw [sum] at at'
  have finite := finiteUnits number at' (by omega) (by omega)
  rw [wholeBelowPlace finite,at',double]
  push_cast
  rw [Int.mul_ediv_mul_of_pos_left _ _ (by positivity)]
  congr 1
  omega

theorem roundTenthWhole {x : Float} {n : Int} (whole : IsWhole x n) (positive : 0 ≤ n)
    (small : n < 2 ^ 48) : ∃ y, roundTenth x = .ok y ∧ IsWhole y n := by
  have tens := ofIntWhole (n := 10 * n) (by omega) (by omega)
  have wide := onesPositive
  obtain ⟨number,at'⟩ := quotientPlace (tens.finite (by omega)) (tenWhole.finite (by omega))
    (by rw [tenWhole.place]; omega)
  refine ⟨Float.ofInt (10 * n) / 10,?_,number,?_⟩
  · unfold roundTenth
    rw [wholeTenths whole positive small]
    rfl
  · have exact := roundedWhole (n := n) (d := 10 * ones) (by omega) (by omega)
    rw [at',tens.place,tenWhole.place,show ((10 : Int) * ones).toNat = 10 * ones by omega,← exact]
    congr 1
    push_cast
    ring

end Montage
