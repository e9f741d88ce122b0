import Montage.Proofs.Double.Rounding

/-! Sums, differences, products and quotients of doubles as places on the line. Each is the exact
result, rounded once; so each keeps the order of its arguments, as exact arithmetic does. -/
namespace Montage
open Float.Model Float.Model.UnpackedFloat

theorem nearestPointSame {n d n' d' : Nat} (positive : 0 < d) (positive' : 0 < d')
    (same : n * d' = n' * d) : nearestPoint n d = nearestPoint n' d' :=
  Nat.le_antisymm (nearestPointMono positive positive' same.le)
    (nearestPointMono positive' positive same.ge)

theorem nearestPointZero (d : Nat) : nearestPoint 0 d = 0 := by
  simp [nearestPoint,nearestEven]

theorem roundedNone (d : Nat) : rounded 0 d = 0 := by
  simp [rounded,nearestPointZero]

theorem roundedNegated (z : Int) (d : Nat) : rounded (-z) d = -rounded z d := by
  unfold rounded
  rw [Int.natAbs_neg]
  rcases lt_trichotomy z 0 with less | zero | more
  · rw [if_neg (by omega),if_pos less,Int.neg_neg]
  · subst zero
    simp [nearestPointZero]
  · rw [if_pos (by omega),if_neg (by omega)]

theorem roundedSign {z : Int} (s : Sign) (n : Nat) (d : Nat) (same : z = s.apply n) :
    s.apply (min (nearestPoint n d) beyond : Nat) = rounded z d := by
  subst same
  have least : rounded (n : Int) d = (min (nearestPoint n d) beyond : Nat) := by
    unfold rounded
    rw [if_neg (by omega),Int.natAbs_natCast]
  cases s
  · rw [show Sign.negative.apply (n : Int) = -(n : Int) from rfl,roundedNegated,least]
    rfl
  · exact least.symm

theorem roundedMono {z z' : Int} {d d' : Nat} (positive : 0 < d) (positive' : 0 < d')
    (le : z * d' ≤ z' * d) : rounded z d ≤ rounded z' d' := by
  have toNat (a : Int) (b : Nat) : (a * b).natAbs = a.natAbs * b := by
    rw [Int.natAbs_mul,Int.natAbs_natCast]
  have left := toNat z d'
  have right := toNat z' d
  unfold rounded
  by_cases negative : z < 0
  · rw [if_pos negative]
    by_cases negative' : z' < 0
    · rw [if_pos negative']
      have below : z * d' ≤ 0 := Int.mul_nonpos_of_nonpos_of_nonneg (by omega) (by omega)
      have below' : z' * d ≤ 0 := Int.mul_nonpos_of_nonpos_of_nonneg (by omega) (by omega)
      have magnitudes : z'.natAbs * d ≤ z.natAbs * d' := by omega
      have := nearestPointMono positive' positive magnitudes
      omega
    · rw [if_neg negative']
      omega
  · rw [if_neg negative]
    have above : 0 ≤ z * d' := Int.mul_nonneg (by omega) (by omega)
    have atLeast : 0 ≤ z' := by
      by_contra less
      have : z' * d < 0 := Int.mul_neg_of_neg_of_pos (by omega) (by omega)
      omega
    rw [if_neg (by omega)]
    have above' : 0 ≤ z' * d := Int.mul_nonneg atLeast (by omega)
    have magnitudes : z.natAbs * d' ≤ z'.natAbs * d := by omega
    have := nearestPointMono positive positive' magnitudes
    omega

theorem roundedExact {u : UnpackedFloat} (shape : Canonical u) (finite : u.isFinite = true) :
    rounded (placeOf u) 1 = placeOf u := by
  cases u with
  | notANumber => cases finite
  | infinity s => cases finite
  | zero s => exact roundedNone 1
  | finite s m e positive =>
    have inside := magnitudeBelow shape.1 shape.2.2.1
    have exact := nearestPointExact (k := (e + 1074).toNat) shape.1 Nat.one_pos
    rw [Nat.mul_one] at exact
    rw [placeOf,← roundedSign s (m * 2 ^ (e + 1074).toNat) 1 rfl,exact,
      Nat.min_eq_left (by omega)]

theorem repacked {u : UnpackedFloat} (shape : Canonical u) : (Float.Model.pack u).unpack = u := by
  cases u with
  | notANumber => rfl
  | infinity s => cases s <;> rfl
  | zero s => cases s <;> rfl
  | finite s m e positive =>
    rw [unpackPack s m e positive shape.1 shape.2.1 shape.2.2.2,if_pos shape.2.2.1]

/-- Stored as a double, `u` is no NaN and stands at `z`. -/
def StandsAt (u : UnpackedFloat) (z : Int) : Prop :=
  (Float.Model.pack u).unpack.isNaN = false ∧ placeOf (Float.Model.pack u).unpack = z

theorem standsAtItself {u : UnpackedFloat} (shape : Canonical u) (finite : u.isFinite = true) :
    StandsAt u (placeOf u) := by
  unfold StandsAt
  rw [repacked shape]
  refine ⟨?_,rfl⟩
  cases u <;> first | rfl | cases finite

theorem standsAtRound {m : Nat} {e : Int} (s : Sign) (positive : 0 < m) (least : -1074 ≤ e) :
    StandsAt (UnpackedFloat.round Format.binary64 s m e)
      (rounded (s.apply (m * 2 ^ (e + 1074).toNat : Nat)) 1) := by
  unfold StandsAt UnpackedFloat.round
  rw [targetEq]
  dsimp only [decreaseExponent]
  generalize shifted : (e - max ((m.log2 : Int) + e - 52) (-1074)).toNat = k
  rw [Nat.shiftLeft_eq]
  have log := log2Scaled (n := m) (d := 1) k (by simpa using positive.ne')
  simp only [Nat.div_one] at log
  have at' := placeRounded (m := m * 2 ^ k) (n := m * 2 ^ k) (d := 1) (e := e - k) s Nat.one_pos
    (Nat.div_one _) (by omega)
  rw [Nat.mod_one] at at'
  have whole : (-1074 - (e - (k : Int))).toNat = 0 := by omega
  have units : m * 2 ^ k * 2 ^ (e - (k : Int) + 1074).toNat = m * 2 ^ (e + 1074).toNat := by
    rw [Nat.mul_assoc,← Nat.pow_add]
    congr 2
    omega
  rw [whole,units,Nat.pow_zero,Nat.mul_one] at at'
  rw [← roundedSign s _ 1 rfl]
  exact at'

theorem standsAtNormalized {z e : Int} (least : -1074 ≤ e) :
    StandsAt (UnpackedFloat.normalize Format.binary64 z e .positive)
      (rounded (z * (2 ^ (e + 1074).toNat : Nat)) 1) := by
  unfold UnpackedFloat.normalize
  rcases lt_trichotomy z 0 with less | zero | more
  · rw [compare_lt_iff_lt.mpr less]
    have at' := standsAtRound (m := (-z).toNat) .negative (by omega) least
    have same : Sign.negative.apply ((-z).toNat * 2 ^ (e + 1074).toNat : Nat) =
        z * (2 ^ (e + 1074).toNat : Nat) := by
      change -(((-z).toNat * 2 ^ (e + 1074).toNat : Nat) : Int) = _
      rw [Int.natCast_mul,Int.toNat_of_nonneg (by omega)]
      ring
    rwa [same] at at'
  · subst zero
    rw [compare_eq_iff_eq.mpr rfl,Int.zero_mul]
    rw [roundedNone]
    change StandsAt (.zero .positive) 0
    exact ⟨rfl,rfl⟩
  · rw [compare_gt_iff_gt.mpr more]
    have at' := standsAtRound (m := z.toNat) .positive (by omega) least
    have same : Sign.positive.apply (z.toNat * 2 ^ (e + 1074).toNat : Nat) =
        z * (2 ^ (e + 1074).toNat : Nat) := by
      change ((z.toNat * 2 ^ (e + 1074).toNat : Nat) : Int) = _
      rw [Int.natCast_mul,Int.toNat_of_nonneg (by omega)]
    rwa [same] at at'

theorem aligned {s : Sign} {m : Nat} {e f : Int} (least : -1074 ≤ f) (below : f ≤ e) :
    s.apply (m * 2 ^ (e + 1074).toNat : Nat) =
      s.apply ((decreaseExponent m e f).1 : Nat) * (2 ^ (f + 1074).toNat : Nat) := by
  have units : m * 2 ^ (e + 1074).toNat = m * 2 ^ (e - f).toNat * 2 ^ (f + 1074).toNat := by
    rw [Nat.mul_assoc,← Nat.pow_add]
    congr 2
    omega
  dsimp only [decreaseExponent]
  rw [Nat.shiftLeft_eq,units]
  cases s
  · change -((_ : Nat) : Int) = -((_ : Nat) : Int) * _
    rw [Int.natCast_mul (_ * _),Int.neg_mul]
  · exact Int.natCast_mul _ _

theorem standsAtSum {u v : UnpackedFloat} (left : Canonical u) (right : Canonical v)
    (finiteLeft : u.isFinite = true) (finiteRight : v.isFinite = true) :
    StandsAt (UnpackedFloat.add Format.binary64 u v) (rounded (placeOf u + placeOf v) 1) := by
  cases u with
  | notANumber => cases finiteLeft
  | infinity s => cases finiteLeft
  | zero s =>
    rw [show placeOf (.zero s) = 0 from rfl,Int.zero_add,roundedExact right finiteRight]
    cases v with
    | notANumber => cases finiteRight
    | infinity t => cases finiteRight
    | zero t => cases s <;> cases t <;> exact ⟨rfl,rfl⟩
    | finite t n f h => exact standsAtItself right rfl
  | finite s m e h =>
    cases v with
    | notANumber => cases finiteRight
    | infinity t => cases finiteRight
    | zero t =>
      rw [show placeOf (.zero t) = 0 from rfl,Int.add_zero,roundedExact left finiteLeft]
      exact standsAtItself left rfl
    | finite t n f h' =>
      have least : -1074 ≤ min e f := le_min left.2.1 right.2.1
      have at' := standsAtNormalized (z := s.apply ((decreaseExponent m e (min e f)).1 : Nat) +
        t.apply ((decreaseExponent n f (min e f)).1 : Nat)) least
      rwa [Int.add_mul,← aligned least (min_le_left e f),← aligned least (min_le_right e f)] at at'

theorem differenceOf (u v : UnpackedFloat) :
    UnpackedFloat.sub Format.binary64 u v = UnpackedFloat.add Format.binary64 u v.neg := by
  cases u with
  | notANumber => rfl
  | infinity s => cases v <;> rfl
  | zero s => cases v <;> rfl
  | finite s m e h =>
    cases v with
    | notANumber => rfl
    | infinity t => rfl
    | zero t => rfl
    | finite t n f h' =>
      cases t
      · simp only [UnpackedFloat.sub,UnpackedFloat.add,UnpackedFloat.neg]
        change UnpackedFloat.normalize _ (_ - -_) _ _ = UnpackedFloat.normalize _ (_ + _) _ _
        rw [Int.sub_neg]
        rfl
      · rfl

theorem negatedCanonical {u : UnpackedFloat} (shape : Canonical u) : Canonical u.neg := by
  cases u <;> exact shape

theorem negatedFinite (u : UnpackedFloat) : u.neg.isFinite = u.isFinite := by
  cases u <;> rfl

theorem negatedPlace (u : UnpackedFloat) : placeOf u.neg = -placeOf u := by
  cases u with
  | notANumber => rfl
  | zero s => rfl
  | infinity s =>
    cases s
    · exact (Int.neg_neg _).symm
    · rfl
  | finite s m e h =>
    cases s
    · exact (Int.neg_neg _).symm
    · rfl

theorem standsAtDifference {u v : UnpackedFloat} (left : Canonical u) (right : Canonical v)
    (finiteLeft : u.isFinite = true) (finiteRight : v.isFinite = true) :
    StandsAt (UnpackedFloat.sub Format.binary64 u v) (rounded (placeOf u - placeOf v) 1) := by
  rw [differenceOf,Int.sub_eq_add_neg,← negatedPlace]
  exact standsAtSum left (negatedCanonical right) finiteLeft (by rwa [negatedFinite])

/-- The place of one. -/
@[irreducible]
def ones : Nat := 2 ^ 1074

theorem onesEq : ∃ k, k = 1074 ∧ ones = 2 ^ k := ⟨1074,rfl,by unfold ones; rfl⟩

theorem onesPositive : 0 < ones := by
  obtain ⟨k,_,eq⟩ := onesEq
  rw [eq]
  positivity

theorem signProduct (s t : Sign) (m n : Nat) :
    s.apply m * t.apply n = (s * t).apply (m * n : Nat) := by
  cases s <;> cases t
  · change -(m : Int) * -(n : Int) = ((m * n : Nat) : Int)
    rw [Int.neg_mul_neg,Int.natCast_mul]
  · change -(m : Int) * (n : Int) = -((m * n : Nat) : Int)
    rw [Int.neg_mul,Int.natCast_mul]
  · change (m : Int) * -(n : Int) = -((m * n : Nat) : Int)
    rw [Int.mul_neg,Int.natCast_mul]
  · exact (Int.natCast_mul m n).symm

theorem standsAtZero (s : Sign) (d : Nat) : StandsAt (.zero s) (rounded 0 d) := by
  rw [roundedNone]
  cases s <;> exact ⟨rfl,rfl⟩

theorem standsAtProduct {u v : UnpackedFloat} (left : Canonical u) (right : Canonical v)
    (finiteLeft : u.isFinite = true) (finiteRight : v.isFinite = true) :
    StandsAt (UnpackedFloat.mul Format.binary64 u v) (rounded (placeOf u * placeOf v) ones) := by
  cases u with
  | notANumber => cases finiteLeft
  | infinity s => cases finiteLeft
  | zero s =>
    rw [show placeOf (.zero s) = 0 from rfl,Int.zero_mul]
    cases v with
    | notANumber => cases finiteRight
    | infinity t => cases finiteRight
    | zero t => exact standsAtZero (s * t) ones
    | finite t n f h => exact standsAtZero (s * t) ones
  | finite s m e h =>
    cases v with
    | notANumber => cases finiteRight
    | infinity t => cases finiteRight
    | zero t =>
      rw [show placeOf (.zero t) = 0 from rfl,Int.mul_zero]
      exact standsAtZero (s * t) ones
    | finite t n f h' =>
      obtain ⟨_,leastLeft,_,fullLeft⟩ := left
      obtain ⟨_,leastRight,_,fullRight⟩ := right
      have some : m * n ≠ 0 := (Nat.mul_pos h h').ne'
      have enough : 52 ≤ (m * n).log2 ∨ e + f ≤ -1074 := by
        rcases fullLeft with full | least
        · exact .inl ((Nat.le_log2 some).mpr (full.trans (Nat.le_mul_of_pos_right m h')))
        rcases fullRight with full | least'
        · exact .inl ((Nat.le_log2 some).mpr (full.trans (Nat.le_mul_of_pos_left n h)))
        · exact .inr (by omega)
      have at' := placeRounded (d := 1) (s * t) Nat.one_pos (Nat.div_one (m * n)) enough
      rw [Nat.mod_one,Nat.one_mul] at at'
      obtain ⟨k,last,eq⟩ := onesEq
      have same : m * n * 2 ^ (e + f + 1074).toNat * ones =
          m * 2 ^ (e + 1074).toNat * (n * 2 ^ (f + 1074).toNat) * 2 ^ (-1074 - (e + f)).toNat := by
        have exponents : (e + f + 1074).toNat + k =
            (e + 1074).toNat + (f + 1074).toNat + (-1074 - (e + f)).toNat := by omega
        have powers := congrArg (2 ^ ·) exponents
        simp only [Nat.pow_add 2 (_ + _),Nat.pow_add 2 _ k,Nat.pow_add 2 _ (f + 1074).toNat] at powers
        rw [eq,Nat.mul_assoc,powers]
        ring
      rw [nearestPointSame (by positivity) onesPositive same,
        roundedSign (s * t) _ ones (signProduct s t _ _)] at at'
      exact at'

theorem signQuotient (s t : Sign) : s / t = s * t := by
  cases s <;> cases t <;> rfl

/-- The exponent of a quotient is low enough for a full mantissa, unless it is least. -/
theorem quotientEnough {m n : Nat} {e f : Int} (positive : 0 < m) (positive' : 0 < n)
    (small : m < 2 ^ 53) :
    let q := min (e - f) (Format.binary64.targetExponent (totalExponent m e - totalExponent n f))
    52 ≤ (m * 2 ^ (e - f - q).toNat / n).log2 ∨ q ≤ -1074 := by
  have bits : (Format.binary64.mantissaBits : Int) = 53 := by decide
  have least : Format.binary64.minExponent = -1074 := by decide
  have target : Format.binary64.targetExponent (totalExponent m e - totalExponent n f) =
      max ((m.log2 : Int) + e - (n.log2 + f) - 53) (-1074) := by
    unfold Format.targetExponent totalExponent
    omega
  dsimp only
  rw [target]
  have top := log2Le (k := 52) small
  by_cases lowest : min (e - f) (max ((m.log2 : Int) + e - (n.log2 + f) - 53) (-1074)) ≤ -1074
  · exact .inr lowest
  left
  generalize shifted : (e - f - min (e - f) (max ((m.log2 : Int) + e - (n.log2 + f) - 53)
    (-1074))).toNat = k
  have shift : k = 53 + n.log2 - m.log2 := by omega
  have above : 2 ^ (53 + n.log2) ≤ m * 2 ^ k := by
    calc 2 ^ (53 + n.log2) = 2 ^ m.log2 * 2 ^ k := by rw [← Nat.pow_add,shift]; congr 1; omega
      _ ≤ m * 2 ^ k := Nat.mul_le_mul_right _ (Nat.log2_self_le positive.ne')
  have full : 2 ^ 52 ≤ m * 2 ^ k / n := by
    rw [Nat.le_div_iff_mul_le positive']
    calc 2 ^ 52 * n ≤ 2 ^ 52 * 2 ^ (n.log2 + 1) := Nat.mul_le_mul_left _ Nat.lt_log2_self.le
      _ = 2 ^ (53 + n.log2) := by rw [← Nat.pow_add]; congr 1; omega
      _ ≤ m * 2 ^ k := above
  exact (Nat.le_log2 (by omega)).mpr full

/-- By zero there is no quotient; the places of the divisor's sign are those of `t`. -/
theorem standsAtQuotient {u : UnpackedFloat} (t : Sign) {n : Nat} {f : Int} (h' : 0 < n)
    (left : Canonical u) (finiteLeft : u.isFinite = true) (least : -1074 ≤ f) :
    StandsAt (UnpackedFloat.div Format.binary64 u (.finite t n f h'))
      (rounded (t.apply (placeOf u * ones)) (n * 2 ^ (f + 1074).toNat)) := by
  cases u with
  | notANumber => cases finiteLeft
  | infinity s => cases finiteLeft
  | zero s =>
    have none : t.apply (placeOf (.zero s) * ones) = 0 := by cases t <;> simp [placeOf,Sign.apply]
    rw [none]
    exact standsAtZero (s / t) _
  | finite s m e h =>
    have enough := quotientEnough (e := e) (f := f) h h' left.1
    have small := left.1
    obtain ⟨_,leastLeft,_,_⟩ := left
    change StandsAt (roundWithAccuracy Format.binary64 (s / t) _ _ _) _
    dsimp only at enough
    rw [Nat.shiftLeft_eq]
    generalize target : min (e - f)
      (Format.binary64.targetExponent (totalExponent m e - totalExponent n f)) = q at enough ⊢
    have below : q ≤ e - f := by omega
    have at' := placeRounded (s / t) h' rfl enough
    obtain ⟨k,last,eq⟩ := onesEq
    have same : m * 2 ^ (e - f - q).toNat * 2 ^ (q + 1074).toNat * (n * 2 ^ (f + 1074).toNat) =
        m * 2 ^ (e + 1074).toNat * ones * (n * 2 ^ (-1074 - q).toNat) := by
      have exponents : (e - f - q).toNat + (q + 1074).toNat + (f + 1074).toNat =
          (e + 1074).toNat + k + (-1074 - q).toNat := by omega
      have powers := congrArg (2 ^ ·) exponents
      simp only [Nat.pow_add] at powers
      rw [eq]
      calc _ = m * n * (2 ^ (e - f - q).toNat * 2 ^ (q + 1074).toNat * 2 ^ (f + 1074).toNat) := by
            ring
        _ = m * n * (2 ^ (e + 1074).toNat * 2 ^ k * 2 ^ (-1074 - q).toNat) := by rw [powers]
        _ = _ := by ring
    have sign : t.apply (placeOf (.finite s m e h) * ones) =
        (s / t).apply (m * 2 ^ (e + 1074).toNat * ones : Nat) := by
      rw [signQuotient,← signProduct,placeOf]
      cases t <;> cases s <;> simp [Sign.apply]
    rw [nearestPointSame (by positivity) (by positivity) same,roundedSign (s / t) _ _ sign] at at'
    exact at'

end Montage
