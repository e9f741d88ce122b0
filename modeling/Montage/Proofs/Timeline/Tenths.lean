import Montage.Proofs.Answer
import Montage.Proofs.Double.Grid
import Montage.Proofs.Double.Scale
import Montage.Proofs.Timeline.Length

/-! Tenths of a second. A length is a whole number of tenths, fifty or those of the last end. An end
may come to lie beyond the length by rounding errors, and has no more tenths then than the length:
what the errors add is far less than the half that the last tenth lacks. -/
namespace Montage

/-- The tenths to which a time is rounded. -/
def tenths (x : Float) : Int := place (x * 10 + 0.5) / ones

def tenth (n : Int) : Float := Float.ofInt n / 10

/-- Before `2 ^ 41`. -/
structure Early (x : Float) : Prop where
  least : 0 ≤ x
  most : x ≤ 2199023255552

theorem nearWhole : IsWhole 1099511627776 (2 ^ 40 : Nat) := ofNatWhole (n := 2 ^ 40) (by omega)

theorem latestWhole : IsWhole 2199023255552 (2 ^ 41 : Nat) := ofNatWhole (n := 2 ^ 41) (by omega)

theorem roundTenthEq {x : Float} (finite : (x * 10 + 0.5).isFinite = true) :
    roundTenth x = .ok (tenth (tenths x)) := by
  unfold roundTenth
  rw [wholeBelowPlace finite]
  rfl

theorem roundTenthSource {x y : Float} (ok : roundTenth x = .ok y) :
    (x * 10 + 0.5).isFinite = true ∧ y = tenth (tenths x) := by
  obtain ⟨n,whole,_⟩ := bindOk ok
  have finite := (wholeIff _ _).mp ⟨n,wholeOk.mp whole⟩
  exact ⟨finite,Except.ok.inj (ok.symm.trans (roundTenthEq finite))⟩

theorem tenthsRises {x y : Float} (le : x ≤ y) (hx : (x * 10 + 0.5).isFinite = true)
    (hy : (y * 10 + 0.5).isFinite = true) : tenths x ≤ tenths y := by
  have scale : (0 : Int) < ones := by exact_mod_cast onesPositive
  have first := finiteOfShifted hx
  have last := finiteOfShifted hy
  have high := productRises (c := 10) le (finiteOfTenfold first) (finiteOfTenfold last) rfl (by decide)
  have sums := sumRises (c := 0.5) high first last rfl
  exact Int.ediv_le_ediv scale ((leIff _ _).mp sums).2.2

theorem tenthPlace {n : Int} (positive : 0 ≤ n) (small : n < 2 ^ 53) :
    (tenth n).isNaN = false ∧ place (tenth n) = rounded (n * ones * ones) (10 * ones) := by
  have tens := ofIntWhole positive small
  have wide := onesPositive
  obtain ⟨number,at'⟩ := quotientPlace (tens.finite (by omega)) (tenWhole.finite (by omega))
    (by rw [tenWhole.place]; omega)
  rw [tens.place,tenWhole.place,show ((10 : Int) * ones).toNat = 10 * ones by omega] at at'
  exact ⟨number,at'⟩

theorem tenthRises {m n : Int} (positive : 0 ≤ m) (le : m ≤ n) (small : n < 2 ^ 53) :
    tenth m ≤ tenth n := by
  have first := ofIntWhole positive (le.trans_lt small)
  have last := ofIntWhole (positive.trans le) small
  exact quotientRises ((first.le last).mpr le) (first.finite (by omega)) (last.finite (by omega))
    (tenWhole.finite (by omega)) (by decide)

/-- No bound is needed where the whole number is a double. -/
theorem tenthGrows {m n : Int} (positive : 0 ≤ m) (le : m ≤ n)
    (finite : (Float.ofInt n).isFinite = true) : tenth m ≤ tenth n := by
  obtain ⟨i,rfl⟩ := Int.eq_ofNat_of_zero_le positive
  obtain ⟨j,rfl⟩ := Int.eq_ofNat_of_zero_le (positive.trans le)
  have first : 0 ≤ Float.ofNat i := ofNatRises (Nat.zero_le i)
  have last := ofNatRises (Int.ofNat_le.mp le)
  exact quotientRises last (finiteBetween first last rfl finite) finite rfl (by decide)

theorem tenthNegative {n : Int} (negative : n < 0) : tenth n ≤ 0 := by
  refine quotientNegative ?_ rfl (by decide)
  obtain ⟨m,rfl⟩ := Int.eq_negSucc_of_lt_zero negative
  obtain ⟨number,at'⟩ := negPlace (Float.ofNat (m + 1))
  obtain ⟨number',above⟩ := ofNatPlace (m + 1)
  have least : 0 ≤ place (Float.ofNat (m + 1)) := above ▸ roundedLeast (by positivity) 1
  exact (leIff _ _).mpr ⟨number.trans number',rfl,at'.trans_le (Int.neg_nonpos_of_nonneg least)⟩

/-- The whole seconds before a time. -/
theorem wholeBelowLe {x : Float} (least : 0 ≤ x) (finite : x.isFinite = true) :
    0 ≤ Float.ofInt (place x / ones) ∧ Float.ofInt (place x / ones) ≤ x := by
  have wide := onesPositive
  have positive := placeLeast least
  obtain ⟨n,whole⟩ := Int.eq_ofNat_of_zero_le (Int.ediv_nonneg (b := ones) positive (by omega))
  have below : (n : Int) * ones ≤ place x := by
    rw [← whole]
    exact Int.ediv_mul_le _ (by omega)
  obtain ⟨number,at'⟩ := ofNatPlace n
  rw [whole]
  refine ⟨(leIff _ _).mpr ⟨rfl,number,?_⟩,(leIff _ _).mpr ⟨number,finiteNumber finite,?_⟩⟩
  · exact at' ▸ roundedLeast (by positivity) 1
  · refine le_of_eq_of_le at' (le_of_le_of_eq ?_ (roundedPlace finite))
    exact roundedMono Nat.one_pos Nat.one_pos (by omega)

theorem tenthFinite {x : Float} (least : 0 ≤ x) (finite : x.isFinite = true) :
    (tenth (place x / ones)).isFinite = true := by
  obtain ⟨above,below⟩ := wholeBelowLe least finite
  have whole := finiteBetween above below rfl finite
  refine finiteBetween (a := 0 / 10) ?_ (quotientFalls above whole rfl ?_) rfl whole
  · exact quotientRises above rfl whole rfl (by decide)
  · rw [tenWhole.place]
    omega

theorem tenthFifty : tenth 50 = 5 := by decide +kernel

/-- Up to `2 ^ 40` seconds. -/
theorem roomBounds {n : Int} (least : 50 ≤ n) (most : n ≤ 10995116277760) :
    0 ≤ tenth n ∧ tenth n ≤ 1099511627776 :=
  ⟨leTrans (y := tenth 50) (by decide +kernel) (tenthRises (by omega) least (by omega)),
    leTrans (tenthRises (by omega) most (by omega)) (by decide +kernel)⟩

theorem tenthsWhole {x : Float} {n : Int} (whole : IsWhole x n) (positive : 0 ≤ n)
    (small : n < 2 ^ 48) (finite : (x * 10 + 0.5).isFinite = true) : tenths x = 10 * n :=
  Except.ok.inj ((wholeBelowPlace finite).symm.trans (wholeTenths whole positive small))

theorem tenthsFive : tenths 5 = 50 := tenthsWhole fiveWhole (by omega) (by omega) (by decide +kernel)

namespace Early
variable {x y : Float}

theorem finite (early : Early x) : x.isFinite = true :=
  finiteBetween early.least early.most rfl rfl

theorem tenfold (early : Early x) : (x * 10 + 0.5).isFinite = true :=
  tenthsFinite early.least early.most (by decide +kernel)

theorem scaled (early : Early x) : 0 ≤ x * 10 :=
  leTrans (y := 0 * 10) (by decide) (productRises early.least rfl early.finite rfl (by decide))

theorem rises (early : Early y) (least : 0 ≤ x) (le : x ≤ y) : tenths x ≤ tenths y :=
  tenthsRises le (tenfold ⟨least,leTrans le early.most⟩) early.tenfold

theorem bounds (early : Early x) : 0 ≤ tenths x ∧ tenths x < 2 ^ 45 := by
  have last : Early 2199023255552 := ⟨by decide,by decide⟩
  have first : Early 0 := ⟨by decide,by decide⟩
  have low := early.rises (by decide) early.least
  have high := last.rises early.least early.most
  rw [tenthsWhole zeroWhole le_rfl (by omega) first.tenfold] at low
  rw [tenthsWhole latestWhole (by omega) (by omega) last.tenfold] at high
  constructor <;> omega

end Early

/-- The step of the doubles before `2 ^ 45`; a second is 256 of them. -/
theorem stepEq : ∃ k, k = 1066 ∧ ones = 256 * 2 ^ k ∧ place 0.5 = (128 * 2 ^ k : Nat) := by
  obtain ⟨k,last,eq,half⟩ := halfSteps (i := 7) (by omega)
  exact ⟨k,by omega,eq,half⟩

theorem earlyPlace {x : Float} {k : Nat} (early : Early x) (last : k = 1066) :
    0 ≤ place x ∧ place x ≤ (2 ^ 49 * 2 ^ k : Nat) := by
  obtain ⟨j,_,eq,_⟩ := stepEq
  obtain rfl : j = k := by omega
  have low := placeLeast early.least
  have high := ((leIff _ _).mp early.most).2.2
  rw [latestWhole.place,eq] at high
  refine ⟨low,?_⟩
  rw [show 2 ^ 49 * 2 ^ j = 2 ^ 41 * (256 * 2 ^ j) by ring]
  exact_mod_cast high

theorem tenthNear {n : Int} {k : Nat} (low : k ≤ 1073) (positive : 0 ≤ n) (small : n < 2 ^ 53)
    (most : n * ones ≤ (2 ^ 53 * 2 ^ k * 10 : Nat)) :
    place (tenth n) * 10 < n * ones + 10 * (2 ^ k : Nat) ∧
      n * ones < place (tenth n) * 10 + 10 * (2 ^ k : Nat) := by
  have scale : (0 : Int) < ones := by exact_mod_cast onesPositive
  have wide := onesPositive
  have least : 0 ≤ n * ones * ones := by positivity
  have most' : n * ones * ones ≤ (2 ^ 53 * 2 ^ k * (10 * ones) : Nat) := by
    rw [← Nat.mul_assoc,Int.natCast_mul _ ones]
    exact Int.mul_le_mul_of_nonneg_right most scale.le
  have less := roundedLess (by omega) low least most'
  have more := roundedMore (by omega) low least most'
  rw [(tenthPlace positive small).2]
  push_cast at less more
  constructor
  · refine Int.lt_of_mul_lt_mul_right (a := (ones : Int)) ?_ scale.le
    push_cast
    linarith
  · refine Int.lt_of_mul_lt_mul_right (a := (ones : Int)) ?_ scale.le
    push_cast
    linarith

theorem tenthLess {n : Int} {k : Nat} (last : k = 1066) (positive : 0 ≤ n) (small : n < 2 ^ 45) :
    place (tenth n) * 10 < n * ones + 10 * (2 ^ k : Nat) := by
  obtain ⟨j,_,eq,_⟩ := stepEq
  obtain rfl : j = k := by omega
  have scale : (0 : Int) < ones := by exact_mod_cast onesPositive
  have step : (0 : Int) ≤ 2 ^ j := by positivity
  refine (tenthNear (by omega) positive (by omega) ?_).1
  refine (Int.mul_le_mul_of_nonneg_right small.le scale.le).trans ?_
  rw [eq]
  push_cast
  omega

/-- Three roundings lie between an end and its tenths. -/
theorem tenthsWithin {x : Float} {n : Int} {k : Nat} (last : k = 1066) (early : Early x)
    (least : 50 ≤ n) (small : n < 2 ^ 45)
    (close : place x ≤ place (tenth n) + 2 * (2 ^ k : Nat)) : tenths x ≤ n := by
  obtain ⟨j,_,eq,half⟩ := stepEq
  obtain rfl : j = k := by omega
  obtain ⟨positive,most⟩ := earlyPlace early last
  have length := tenthLess last (by omega) small
  have scaled := finiteOfShifted early.tenfold
  have low := placeLeast early.scaled
  have tens := multipleLess (k := j) early.finite tenWhole rfl (by omega) (by omega) (by omega)
  have sum := sumLess (y := 0.5) (k := j) scaled rfl (by omega) (by omega) (by omega)
  have scale : (0 : Int) < ones := by exact_mod_cast onesPositive
  refine Int.lt_add_one_iff.mp (Int.ediv_lt_of_lt_mul scale ?_)
  rw [Int.add_mul,Int.one_mul]
  omega

/-- A timeline that ends at `ends` is `n` tenths of a second long. -/
structure Measured (ends : List Float) (n : Int) : Prop where
  length : lengthOf ends = .ok (tenth n)
  least : 50 ≤ n
  small : n < 2 ^ 45
  above : ∀ x ∈ ends, tenths x ≤ n
  reached : n = 50 ∨ ∃ x ∈ ends, tenths x = n

theorem measured {ends : List Float} (some : ends ≠ []) (early : ∀ x ∈ ends, Early x) :
    ∃ n, Measured ends n := by
  obtain ⟨x,xs,rfl⟩ := List.exists_cons_of_ne_nil some
  have last := greatestMem x xs
  have latest := early _ last
  have above := leGreatest fun y mem => finiteNumber (early y mem).finite
  obtain ⟨positive,small⟩ := latest.bounds
  have length : lengthOf (x :: xs) = .ok (firstMax 5 (tenth (tenths (greatest x xs)))) :=
    bindTotal (roundTenthEq latest.tenfold) rfl
  have rest (n : Int) (le : tenths (greatest x xs) ≤ n) : ∀ y ∈ x :: xs, tenths y ≤ n :=
    fun y mem => (latest.rises (early y mem).least (above y mem)).trans le
  rcases lt_or_ge 50 (tenths (greatest x xs)) with more | less
  · have longer : 5 < tenth (tenths (greatest x xs)) :=
      lessOfLess (y := tenth 51) (by decide +kernel) (tenthRises (by omega) more (by omega))
    refine ⟨_,?_,more.le,small,rest _ le_rfl,.inr ⟨_,last,rfl⟩⟩
    rw [length,firstMax,if_pos longer]
  · have five : tenth (tenths (greatest x xs)) ≤ 5 :=
      tenthFifty ▸ tenthRises positive less (by omega)
    refine ⟨50,?_,le_rfl,by omega,rest _ less,.inl rfl⟩
    rw [length,firstMax,if_neg ((notLtIff (numberOfLe five).2 (numberOfLe five).1).mpr five),
      tenthFifty]

end Montage
