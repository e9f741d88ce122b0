import Montage.Proofs.Double.Arithmetic

/-! What stays a number. An operation on doubles gives NaN only where infinities meet, so sums of
times that are not negative, spans and clamped values are numbers again. -/
namespace Montage
open Float.Model Float.Model.UnpackedFloat

theorem sumPlace {x y : Float} (hx : x.isFinite = true) (hy : y.isFinite = true) :
    (x + y).isNaN = false ∧ place (x + y) = rounded (place x + place y) 1 :=
  standsAtSum (canonical x) (canonical y) hx hy

theorem differencePlace {x y : Float} (hx : x.isFinite = true) (hy : y.isFinite = true) :
    (x - y).isNaN = false ∧ place (x - y) = rounded (place x - place y) 1 :=
  standsAtDifference (canonical x) (canonical y) hx hy

theorem productPlace {x y : Float} (hx : x.isFinite = true) (hy : y.isFinite = true) :
    (x * y).isNaN = false ∧ place (x * y) = rounded (place x * place y) ones :=
  standsAtProduct (canonical x) (canonical y) hx hy

theorem quotientPlace {x y : Float} (hx : x.isFinite = true) (hy : y.isFinite = true)
    (positive : 0 < place y) :
    (x / y).isNaN = false ∧ place (x / y) = rounded (place x * ones) (place y).toNat := by
  have shape := canonical y
  change StandsAt (UnpackedFloat.div Format.binary64 x.toModel.unpack y.toModel.unpack) _
  change y.toModel.unpack.isFinite = true at hy
  change 0 < placeOf y.toModel.unpack at positive
  unfold place
  cases h : y.toModel.unpack with
  | notANumber => simp [h,UnpackedFloat.isFinite] at hy
  | infinity s => simp [h,UnpackedFloat.isFinite] at hy
  | zero s => simp [h,placeOf] at positive
  | finite t n f some =>
    rw [h] at positive shape
    have at' := standsAtQuotient t some (canonical x) hx shape.2.1
    cases t with
    | negative =>
      have := placePositive n f some
      simp only [placeOf,Sign.apply] at positive
      omega
    | positive => exact at'

theorem placeLeast {x : Float} (least : 0 ≤ x) : 0 ≤ place x := ((leIff 0 x).mp least).2.2

theorem placePast {x : Float} (positive : 0 < x) : 0 < place x := ((ltIff 0 x).mp positive).2.2

theorem finiteNumber {x : Float} (finite : x.isFinite = true) : x.isNaN = false :=
  ((finiteIff x).mp finite).1

theorem numberOfLess {x y : Float} (less : x < y) : x.isNaN = false ∧ y.isNaN = false :=
  ⟨((ltIff x y).mp less).1,((ltIff x y).mp less).2.1⟩

theorem numberOfLe {x y : Float} (le : x ≤ y) : x.isNaN = false ∧ y.isNaN = false :=
  ⟨((leIff x y).mp le).1,((leIff x y).mp le).2.1⟩

theorem leOfLess {x y : Float} (less : x < y) : x ≤ y := by
  obtain ⟨hx,hy,places⟩ := (ltIff x y).mp less
  exact (leIff x y).mpr ⟨hx,hy,places.le⟩

theorem leTrans {x y z : Float} (first : x ≤ y) (second : y ≤ z) : x ≤ z := by
  obtain ⟨hx,_,le⟩ := (leIff x y).mp first
  obtain ⟨_,hz,le'⟩ := (leIff y z).mp second
  exact (leIff x z).mpr ⟨hx,hz,le.trans le'⟩

theorem lessOfLe {x y z : Float} (first : x ≤ y) (second : y < z) : x < z := by
  obtain ⟨number,_,le⟩ := (leIff x y).mp first
  obtain ⟨_,number',less⟩ := (ltIff y z).mp second
  exact (ltIff x z).mpr ⟨number,number',le.trans_lt less⟩

theorem lessOfLess {x y z : Float} (first : x < y) (second : y ≤ z) : x < z := by
  obtain ⟨number,_,less⟩ := (ltIff x y).mp first
  obtain ⟨_,number',le⟩ := (leIff y z).mp second
  exact (ltIff x z).mpr ⟨number,number',less.trans_le le⟩

theorem leSelf {x : Float} (number : x.isNaN = false) : x ≤ x :=
  (leIff x x).mpr ⟨number,number,le_rfl⟩

theorem beqPlaces {x y : Float} (same : (x == y) = true) : x ≤ y ∧ y ≤ x := by
  obtain ⟨notNan,_,equal⟩ := Float.beq_iff_ne_nan_and_eq.mp same
  rcases equal with rfl | ⟨rfl,rfl⟩ | ⟨rfl,rfl⟩
  · have number : x.isNaN = false := by simpa using notNan
    exact ⟨leSelf number,leSelf number⟩
  · decide
  · decide

theorem beqOfLe {x y : Float} (first : x ≤ y) (second : y ≤ x) : (x == y) = true := by
  obtain ⟨hx,hy,le⟩ := (leIff x y).mp first
  obtain ⟨_,_,le'⟩ := (leIff y x).mp second
  change x.toModel.unpack.beq y.toModel.unpack = true
  rw [UnpackedFloat.beq,comparePlaces (canonical x) (canonical y) hx hy,beq_iff_eq,
    Option.some_inj,compare_eq_iff_eq]
  exact le_antisymm le le'

theorem beqSelf {x : Float} (number : x.isNaN = false) : (x == x) = true :=
  beqOfLe (leSelf number) (leSelf number)

theorem beqPlace {x y : Float} (hx : x.isNaN = false) (hy : y.isNaN = false)
    (same : place x = place y) : (x == y) = true :=
  beqOfLe ((leIff x y).mpr ⟨hx,hy,same.le⟩) ((leIff y x).mpr ⟨hy,hx,same.ge⟩)

theorem absPlace (x : Float) : x.abs.isNaN = x.isNaN ∧ place x.abs = (place x).natAbs := by
  have shape : Canonical x.toModel.unpack.abs := by
    have shape := canonical x
    revert shape
    cases x.toModel.unpack <;> exact fun shape => shape
  change (Float.Model.pack x.toModel.unpack.abs).unpack.isNaN = x.toModel.unpack.isNaN ∧
    placeOf (Float.Model.pack x.toModel.unpack.abs).unpack = (placeOf x.toModel.unpack).natAbs
  rw [repacked shape]
  cases x.toModel.unpack with
  | notANumber => exact ⟨rfl,rfl⟩
  | infinity s => cases s <;> exact ⟨rfl,by simp [UnpackedFloat.abs,placeOf,Sign.apply]⟩
  | zero s => exact ⟨rfl,rfl⟩
  | finite s m e positive => cases s <;> exact ⟨rfl,by simp [UnpackedFloat.abs,placeOf,Sign.apply]⟩

theorem negPlace (x : Float) : (-x).isNaN = x.isNaN ∧ place (-x) = -place x := by
  have shape := negatedCanonical (canonical x)
  change (Float.Model.pack x.toModel.unpack.neg).unpack.isNaN = x.toModel.unpack.isNaN ∧
    placeOf (Float.Model.pack x.toModel.unpack.neg).unpack = -placeOf x.toModel.unpack
  rw [repacked shape,negatedPlace]
  refine ⟨?_,rfl⟩
  cases x.toModel.unpack <;> rfl

theorem infiniteCases {x : Float} (number : x.isNaN = false) (infinite : ¬ x.isFinite = true) :
    ∃ s, x.toModel.unpack = .infinity s := by
  change x.toModel.unpack.isNaN = false at number
  change ¬ x.toModel.unpack.isFinite = true at infinite
  cases h : x.toModel.unpack with
  | notANumber => simp [h,UnpackedFloat.isNaN] at number
  | zero s => simp [h,UnpackedFloat.isFinite] at infinite
  | finite s m e p => simp [h,UnpackedFloat.isFinite] at infinite
  | infinity s => exact ⟨s,rfl⟩

theorem infinitePlace {x : Float} {s : Sign} (h : x.toModel.unpack = .infinity s) :
    x.isNaN = false ∧ place x = s.apply beyond := by
  constructor
  · change x.toModel.unpack.isNaN = false
    rw [h]
    rfl
  · rw [place,h]
    rfl

theorem packedInfinity (s : Sign) : StandsAt (.infinity s) (s.apply beyond) := by
  cases s <;> exact ⟨rfl,rfl⟩

theorem finiteBetween {x a b : Float} (above : a ≤ x) (below : x ≤ b)
    (finiteBelow : a.isFinite = true) (finiteAbove : b.isFinite = true) : x.isFinite = true := by
  obtain ⟨_,number,lower⟩ := (leIff a x).mp above
  obtain ⟨_,_,upper⟩ := (leIff x b).mp below
  have left := ((finiteIff a).mp finiteBelow).2
  have right := ((finiteIff b).mp finiteAbove).2
  exact (finiteIff x).mpr ⟨number,by omega,by omega⟩

theorem placeAtMost {x : Float} (number : x.isNaN = false) : place x ≤ beyond := by
  have wide := beyondPositive
  by_cases finite : x.isFinite = true
  · have := ((finiteIff x).mp finite).2
    omega
  · obtain ⟨s,h⟩ := infiniteCases number finite
    rw [(infinitePlace h).2]
    cases s <;> simp only [Sign.apply] <;> omega

theorem finiteStart {x y : Float} (above : 0 ≤ x) (less : x < y) : x.isFinite = true := by
  obtain ⟨_,number,lower⟩ := (leIff 0 x).mp above
  obtain ⟨_,number',upper⟩ := (ltIff x y).mp less
  have none : place 0 = 0 := rfl
  have wide := beyondPositive
  have most := placeAtMost number'
  exact (finiteIff x).mpr ⟨number,by omega,by omega⟩

theorem subInfinity {u : UnpackedFloat} (s : Sign) (finite : u.isFinite = true) :
    UnpackedFloat.sub Format.binary64 u (.infinity s) = .infinity (-s) := by
  cases u with
  | notANumber => cases finite
  | infinity t => cases finite
  | zero t => rfl
  | finite t m e p => rfl

theorem infinitySub {u : UnpackedFloat} (s : Sign) (finite : u.isFinite = true) :
    UnpackedFloat.sub Format.binary64 (.infinity s) u = .infinity s := by
  cases u with
  | notANumber => cases finite
  | infinity t => cases finite
  | zero t => rfl
  | finite t m e p => rfl

theorem minusInfinite {x y : Float} {s : Sign} (finite : x.isFinite = true)
    (h : y.toModel.unpack = .infinity s) :
    (x - y).isNaN = false ∧ place (x - y) = (-s).apply beyond := by
  change StandsAt (UnpackedFloat.sub Format.binary64 x.toModel.unpack y.toModel.unpack) _
  rw [h,subInfinity s finite]
  exact packedInfinity (-s)

theorem infiniteMinus {x y : Float} {s : Sign} (h : x.toModel.unpack = .infinity s)
    (finite : y.isFinite = true) :
    (x - y).isNaN = false ∧ place (x - y) = s.apply beyond := by
  change StandsAt (UnpackedFloat.sub Format.binary64 x.toModel.unpack y.toModel.unpack) _
  rw [h,infinitySub s finite]
  exact packedInfinity s

theorem differenceNumber {x y : Float} (hx : x.isNaN = false) (hy : y.isNaN = false)
    (finite : x.isFinite = true ∨ y.isFinite = true) : (x - y).isNaN = false := by
  by_cases left : x.isFinite = true
  · by_cases right : y.isFinite = true
    · exact (differencePlace left right).1
    · obtain ⟨s,h⟩ := infiniteCases hy right
      exact (minusInfinite left h).1
  · obtain ⟨s,h⟩ := infiniteCases hx left
    exact (infiniteMinus h (finite.resolve_left left)).1

theorem differenceNaN {x y : Float} (missing : x.isNaN = true ∨ y.isNaN = true) :
    (x - y).isNaN = true := by
  have sub (u v : UnpackedFloat) (missing : u.isNaN = true ∨ v.isNaN = true) :
      UnpackedFloat.sub Format.binary64 u v = .notANumber := by
    cases u with
    | notANumber => rfl
    | _ => cases v with
      | notANumber => rfl
      | _ => exact missing.elim nofun nofun
  change (Float.Model.pack (UnpackedFloat.sub Format.binary64 x.toModel.unpack
    y.toModel.unpack)).unpack.isNaN = true
  rw [sub _ _ missing]
  rfl

theorem roundedLeast {z : Int} (least : 0 ≤ z) (d : Nat) : 0 ≤ rounded z d := by
  unfold rounded
  rw [if_neg (by omega)]
  exact Int.natCast_nonneg _

theorem roundedMost {z : Int} (most : z ≤ 0) (d : Nat) : rounded z d ≤ 0 := by
  have least := roundedLeast (Int.neg_nonneg_of_nonpos most) d
  rw [roundedNegated] at least
  omega

theorem roundedPositive {z : Int} (positive : 0 < z) : 0 < rounded z 1 := by
  have wide := beyondPositive
  have point := nearestPointPositive (n := z.natAbs) Nat.one_pos (by omega)
  unfold rounded
  rw [if_neg (by omega)]
  omega

theorem infinityMinusInfinity {x y : Float} (hx : x.toModel.unpack = .infinity .negative)
    (hy : y.toModel.unpack = .infinity .positive) :
    (y - x).isNaN = false ∧ place (y - x) = beyond := by
  change StandsAt (UnpackedFloat.sub Format.binary64 y.toModel.unpack x.toModel.unpack) _
  rw [hx,hy]
  exact packedInfinity .positive

theorem differencePositive {x y : Float} (less : x < y) : 0 < y - x := by
  obtain ⟨hx,hy,places⟩ := (ltIff x y).mp less
  have none : place 0 = 0 := rfl
  have wide := beyondPositive
  have key : (y - x).isNaN = false ∧ 0 < place (y - x) := by
    by_cases left : x.isFinite = true
    · by_cases right : y.isFinite = true
      · obtain ⟨number,at'⟩ := differencePlace right left
        exact ⟨number,at' ▸ roundedPositive (by omega)⟩
      · obtain ⟨s,h⟩ := infiniteCases hy right
        have upper := ((finiteIff x).mp left).2
        obtain ⟨number,at'⟩ := infiniteMinus h left
        rw [(infinitePlace h).2] at places
        cases s
        · simp only [Sign.apply] at places
          omega
        · exact ⟨number,at' ▸ wide⟩
    · obtain ⟨s,h⟩ := infiniteCases hx left
      rw [(infinitePlace h).2] at places
      have most := placeAtMost hy
      cases s
      · by_cases right : y.isFinite = true
        · obtain ⟨number,at'⟩ := minusInfinite right h
          exact ⟨number,at' ▸ wide⟩
        · obtain ⟨t,h'⟩ := infiniteCases hy right
          rw [(infinitePlace h').2] at places
          cases t
          · simp only [Sign.apply] at places
            omega
          · obtain ⟨number,at'⟩ := infinityMinusInfinity h h'
            exact ⟨number,at' ▸ wide⟩
      · simp only [Sign.apply] at places
        omega
  exact (ltIff 0 (y - x)).mpr ⟨rfl,key.1,by omega⟩

theorem addInfinity {u : UnpackedFloat} (s : Sign) (finite : u.isFinite = true) :
    UnpackedFloat.add Format.binary64 u (.infinity s) = .infinity s ∧
      UnpackedFloat.add Format.binary64 (.infinity s) u = .infinity s := by
  cases u with
  | notANumber => cases finite
  | infinity t => cases finite
  | zero t => exact ⟨rfl,rfl⟩
  | finite t m e p => exact ⟨rfl,rfl⟩

theorem infiniteAbove {x : Float} (least : 0 ≤ x) (infinite : ¬ x.isFinite = true) :
    x.toModel.unpack = .infinity .positive := by
  have wide := beyondPositive
  have low := placeLeast least
  obtain ⟨s,h⟩ := infiniteCases (numberOfLe least).2 infinite
  rw [(infinitePlace h).2] at low
  cases s
  · simp only [Sign.apply] at low
    omega
  · exact h

theorem sumBeyond {x y : Float} (hx : x.isFinite = true) (hy : 0 ≤ y)
    (infinite : ¬ y.isFinite = true) : (x + y).isNaN = false ∧ place (x + y) = beyond := by
  change StandsAt (UnpackedFloat.add Format.binary64 x.toModel.unpack y.toModel.unpack) beyond
  rw [infiniteAbove hy infinite,(addInfinity .positive hx).1]
  exact packedInfinity .positive

theorem sumNumber {x y : Float} (hx : 0 ≤ x) (hy : 0 ≤ y) : (x + y).isNaN = false := by
  by_cases left : x.isFinite = true
  · by_cases right : y.isFinite = true
    · exact (sumPlace left right).1
    · exact (sumBeyond left hy right).1
  · change (Float.Model.pack (UnpackedFloat.add Format.binary64 x.toModel.unpack
      y.toModel.unpack)).unpack.isNaN = false
    rw [infiniteAbove hx left]
    by_cases right : y.isFinite = true
    · rw [(addInfinity .positive right).2]
      rfl
    · rw [infiniteAbove hy right]
      rfl

theorem sumPositive {x y : Float} (hx : 0 ≤ x) (hy : 0 ≤ y) (finiteX : x.isFinite = true)
    (finiteY : y.isFinite = true) : 0 ≤ x + y := by
  obtain ⟨number,at'⟩ := sumPlace finiteX finiteY
  have least := roundedLeast (Int.add_nonneg (placeLeast hx) (placeLeast hy)) 1
  exact (leIff _ _).mpr ⟨rfl,number,at' ▸ least⟩

theorem sumNone {x y : Float} (hx : x.isFinite = true) (hy : y.isFinite = true)
    (none : place x = 0) : place (x + y) = place y := by
  rw [(sumPlace hx hy).2,none,Int.zero_add]
  exact roundedExact (canonical y) hy

theorem differenceLe {x y : Float} (hx : x.isFinite = true) (hy : y.isFinite = true) (least : 0 ≤ y) :
    x - y ≤ x := by
  obtain ⟨number,at'⟩ := differencePlace hx hy
  have low := placeLeast least
  refine (leIff _ _).mpr ⟨number,finiteNumber hx,?_⟩
  calc place (x - y) = rounded (place x - place y) 1 := at'
    _ ≤ rounded (place x) 1 := roundedMono Nat.one_pos Nat.one_pos (by omega)
    _ = place x := roundedExact (canonical x) hx

theorem differenceLeast {x y : Float} (hx : x.isFinite = true) (hy : y.isFinite = true) (le : y ≤ x) :
    0 ≤ x - y := by
  obtain ⟨number,at'⟩ := differencePlace hx hy
  have least := roundedLeast (Int.sub_nonneg_of_le ((leIff _ _).mp le).2.2) 1
  exact (leIff _ _).mpr ⟨rfl,number,at' ▸ least⟩

theorem differenceNone {x y : Float} (hx : x.isFinite = true) (hy : y.isFinite = true) (le : x ≤ y) :
    ¬ 0 < x - y := by
  obtain ⟨number,at'⟩ := differencePlace hx hy
  have most := roundedMost (Int.sub_nonpos_of_le ((leIff _ _).mp le).2.2) 1
  exact (notLtIff rfl number).mpr ((leIff _ _).mpr ⟨number,rfl,at' ▸ most⟩)

theorem firstMaxNumber {a : Float} (number : a.isNaN = false) (b : Float) :
    (firstMax a b).isNaN = false := by
  unfold firstMax
  split
  · exact (numberOfLess ‹_›).2
  · exact number

/-- The first argument decides whether the greater of two is a number; no result is below it. -/
theorem leFirstMax {a : Float} (number : a.isNaN = false) (b : Float) : a ≤ firstMax a b := by
  unfold firstMax
  split
  · exact leOfLess ‹_›
  · exact leSelf number

theorem leFirstMaxRight {a b : Float} (ha : a.isNaN = false) (hb : b.isNaN = false) :
    b ≤ firstMax a b := by
  unfold firstMax
  split
  · exact leSelf hb
  · exact (notLtIff ha hb).mp ‹_›

theorem leFirstMin {a b c : Float} (left : c ≤ a) (right : c ≤ b) : c ≤ firstMin a b := by
  unfold firstMin
  split <;> assumption

theorem firstMaxAgain (a b : Float) : firstMax (firstMax a b) b = firstMax a b := by
  unfold firstMax
  by_cases less : a < b
  · rw [if_pos less,ite_self]
  · rw [if_neg less,if_neg less]

/-- The lesser of two is NaN if the first is, but never above the second. -/
theorem notAbove (a b : Float) : ¬ b < firstMin a b := by
  unfold firstMin
  split
  · exact fun less => (notLtIff (numberOfLess less).1 (numberOfLess less).1).mpr
      (leSelf (numberOfLess less).1) less
  · assumption

theorem clampedZero {t b : Float} (low : b ≤ 0) : firstMax 0 (firstMin t b) = 0 :=
  if_neg fun above => notAbove t b (lessOfLe low above)

theorem clampedLe {t b : Float} (positive : 0 ≤ b) : firstMax 0 (firstMin t b) ≤ b := by
  unfold firstMax
  split
  · rename_i above
    exact (notLtIff (numberOfLe positive).2 (numberOfLess above).2).mp (notAbove t b)
  · exact positive

end Montage
