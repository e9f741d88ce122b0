import Montage.Proofs.Double.Order

/-! Rounding to the doubles, as arithmetic of whole numbers. A result that falls between two
doubles goes to the nearer one, a tie to the even mantissa, and beyond the last one to infinity.
The bits that a mantissa keeps while it is shifted tell where the exact quotient lies. -/
namespace Montage
open Float.Model Float.Model.UnpackedFloat

/-- The nearest point to `n / d` units on the grid of doubles, as if it had no end. -/
def nearestPoint (n d : Nat) : Nat :=
  let j := (n / d).log2 - 52
  nearestEven n (d * 2 ^ j) * 2 ^ j

def rounded (z : Int) (d : Nat) : Int :=
  if z < 0 then -(min (nearestPoint z.natAbs d) beyond : Nat) else (min (nearestPoint z.natAbs d) beyond : Nat)

/-- The mantissa is the whole part of `n / d` and the bits say where its fraction lies. -/
def Holds (em : ExtendedMantissa) (n d : Nat) : Prop :=
  em.mantissa = n / d ∧ em.accuracy = accuracyOfFraction (n % d) d

theorem holdsAtFirst (n d : Nat) :
    Holds (.ofMantissaAndAccuracy (n / d) (accuracyOfFraction (n % d) d)) n d := by
  cases h : accuracyOfFraction (n % d) d with
  | exact => exact ⟨rfl,h.symm⟩
  | inexact o => cases o <;> exact ⟨rfl,h.symm⟩

theorem accuracyBelow {r d : Nat} (some : r ≠ 0) (less : 2 * r < d) :
    accuracyOfFraction r d = .inexact .lt := by
  rw [accuracyOfFraction,if_neg some,compare_lt_iff_lt.mpr less]

theorem accuracyHalf {r d : Nat} (some : r ≠ 0) (half : 2 * r = d) :
    accuracyOfFraction r d = .inexact .eq := by
  rw [accuracyOfFraction,if_neg some,compare_eq_iff_eq.mpr half]

theorem accuracyAbove {r d : Nat} (some : r ≠ 0) (more : d < 2 * r) :
    accuracyOfFraction r d = .inexact .gt := by
  rw [accuracyOfFraction,if_neg some,compare_gt_iff_gt.mpr more]

theorem sticky {em : ExtendedMantissa} {n d : Nat} (h : Holds em n d) :
    (em.roundBit || em.stickyBit) = decide (n % d ≠ 0) := by
  obtain ⟨m,r,s⟩ := em
  have bits := h.2
  by_cases zero : n % d = 0
  · rw [zero] at bits
    cases r <;> cases s <;> simp_all [ExtendedMantissa.accuracy,accuracyOfFraction]
  · rw [accuracyOfFraction,if_neg zero] at bits
    cases r <;> cases s <;> simp_all [ExtendedMantissa.accuracy]

theorem remainderDoubled (n d : Nat) : n % (d * 2) = n % d + d * (n / d % 2) := Nat.mod_mul

theorem holdsShifted {em : ExtendedMantissa} {n d : Nat} (h : Holds em n d) (positive : 0 < d) :
    Holds em.shiftRightOne n (d * 2) := by
  have whole : em.mantissa / 2 = n / (d * 2) := by rw [h.1,Nat.div_div_eq_div_mul]
  refine ⟨whole,?_⟩
  have rest := remainderDoubled n d
  have less := Nat.mod_lt n positive
  have lost := sticky h
  have bit : em.mantissa % 2 = n / d % 2 := by rw [h.1]
  rcases Nat.mod_two_eq_zero_or_one (n / d) with even | odd
  · rw [even] at bit rest
    by_cases zero : n % d = 0
    · have none : n % (d * 2) = 0 := by omega
      rw [decide_eq_false (by omega)] at lost
      simp only [ExtendedMantissa.shiftRightOne,lost,bit,none]
      rfl
    · rw [decide_eq_true zero] at lost
      simp only [ExtendedMantissa.shiftRightOne,lost,bit]
      rw [accuracyBelow (by omega) (by omega)]
      rfl
  · rw [odd] at bit rest
    by_cases zero : n % d = 0
    · rw [decide_eq_false (by omega)] at lost
      simp only [ExtendedMantissa.shiftRightOne,lost,bit]
      rw [accuracyHalf (by omega) (by omega)]
      rfl
    · rw [decide_eq_true zero] at lost
      simp only [ExtendedMantissa.shiftRightOne,lost,bit]
      rw [accuracyAbove (by omega) (by omega)]
      rfl

theorem holdsShiftedBy {em : ExtendedMantissa} {n d : Nat} (h : Holds em n d) (positive : 0 < d)
    (k : Nat) : Holds (em >>> k) n (d * 2 ^ k) := by
  change Holds (k.repeat ExtendedMantissa.shiftRightOne em) n (d * 2 ^ k)
  induction k with
  | zero => rwa [Nat.pow_zero,Nat.mul_one]
  | succ k ih =>
    rw [Nat.pow_succ,← Nat.mul_assoc]
    exact holdsShifted ih (by positivity)

theorem holdsRounded {em : ExtendedMantissa} {n d : Nat} (h : Holds em n d) (positive : 0 < d) :
    em.roundedMantissa = nearestEven n d := by
  rw [ExtendedMantissa.roundedMantissa,h.1,h.2,nearestEven]
  have bit := Nat.mod_two_eq_zero_or_one (n / d)
  by_cases zero : n % d = 0
  · simp only [accuracyOfFraction,zero,if_pos,Accuracy.roundToNearestEven]
    rw [if_neg (by omega)]
  rcases lt_trichotomy (2 * (n % d)) d with less | half | more
  · rw [accuracyBelow zero less,if_neg (by omega)]
    rfl
  · rw [accuracyHalf zero half]
    dsimp only [Accuracy.roundToNearestEven]
    split <;> omega
  · rw [accuracyAbove zero more,if_pos (by omega)]
    rfl

theorem targetEq (m : Nat) (e : Int) :
    Format.binary64.targetExponent (totalExponent m e) = max ((m.log2 : Int) + e - 52) (-1074) := by
  have bits : (Format.binary64.mantissaBits : Int) = 53 := by decide
  have least : Format.binary64.minExponent = -1074 := by decide
  unfold Format.targetExponent totalExponent
  omega

theorem log2Le {m k : Nat} (less : m < 2 ^ (k + 1)) : m.log2 ≤ k := by
  by_cases zero : m = 0
  · simp [zero]
  · have := (Nat.log2_lt zero).mpr less
    omega

theorem shiftExact {r : Nat} {t : Int} (small : r < 2 ^ 53) (least : -1074 ≤ t) :
    shiftToTargetExponent Format.binary64 r t .exact = (⟨r,false,false⟩,t) := by
  have bits := log2Le (k := 52) small
  have none : (max ((r.log2 : Int) + t - 52) (-1074) - t).toNat = 0 := by omega
  unfold shiftToTargetExponent shiftToExponent
  rw [targetEq]
  dsimp only
  rw [none]
  simp only [Int.natCast_zero,Int.add_zero]
  rfl

theorem shiftCarry {t : Int} (least : -1074 ≤ t) :
    shiftToTargetExponent Format.binary64 (2 ^ 53) t .exact = (⟨2 ^ 52,false,false⟩,t + 1) := by
  have one : (max (((2 ^ 53 : Nat).log2 : Int) + t - 52) (-1074) - t).toNat = 1 := by
    rw [Nat.log2_two_pow]
    omega
  unfold shiftToTargetExponent shiftToExponent
  rw [targetEq]
  dsimp only
  rw [one]
  rfl

theorem log2Div (m q : Nat) : (m / 2 ^ q).log2 = m.log2 - q := by
  induction q with
  | zero => simp
  | succ q ih =>
    rw [Nat.pow_succ,← Nat.div_div_eq_div_mul]
    have halved := Nat.log2_def (m / 2 ^ q)
    split at halved
    · omega
    · rw [Nat.div_eq_of_lt (by omega),Nat.log2_zero]
      omega

theorem log2Scaled {n d : Nat} (p : Nat) (some : n / d ≠ 0) :
    (n * 2 ^ p / d).log2 = (n / d).log2 + p := by
  have scale : 0 < 2 ^ p := by positivity
  have back : n * 2 ^ p / d / 2 ^ p = n / d := by
    rw [Nat.div_div_eq_div_mul,Nat.mul_div_mul_right _ _ scale]
  have atLeast : 2 ^ p ≤ n * 2 ^ p / d := by
    by_contra less
    exact some (by rw [← back,Nat.div_eq_of_lt (by omega)])
  have bits := log2Div (n * 2 ^ p / d) p
  have : p ≤ (n * 2 ^ p / d).log2 := (Nat.le_log2 (by omega)).mpr atLeast
  rw [back] at bits
  omega

theorem nearestEvenBounds (n d : Nat) : n / d ≤ nearestEven n d ∧ nearestEven n d ≤ n / d + 1 := by
  unfold nearestEven
  dsimp only
  split <;> omega

theorem nearestEvenScaled {n d c : Nat} (positive : 0 < c) :
    nearestEven (n * c) (d * c) = nearestEven n d := by
  unfold nearestEven
  dsimp only
  rw [Nat.mul_div_mul_right _ _ positive,Nat.mul_mod_mul_right]
  have less : d * c < 2 * (n % d * c) ↔ d < 2 * (n % d) := by
    rw [← Nat.mul_assoc]
    exact Nat.mul_lt_mul_right positive
  have half : d * c = 2 * (n % d * c) ↔ d = 2 * (n % d) := by
    rw [← Nat.mul_assoc]
    exact Nat.mul_left_inj (by omega)
  simp only [less,half]

theorem signKept (s : Sign) (e : BitVec 11) (m : BitVec 52) :
    Sign.ofBitVec (unpackSign (packComponents Format.binary64 s e m)) = s := by
  have same : unpackSign (packComponents Format.binary64 s e m) = s.toBitVec := by
    ext i hi
    have first : i = 0 := by omega
    subst first
    simp only [unpackSign,packComponents,BitVec.getElem_cast,BitVec.extractLsb,
      BitVec.getElem_extractLsb']
    change (s.toBitVec ++ e ++ m).getLsbD 63 = _
    rw [BitVec.getLsbD_append,BitVec.getLsbD_append]
    simp
  rw [same]
  cases s <;> rfl

theorem finiteEq {s : Sign} {m n : Nat} {e f : Int} {hm : 0 < m} {hn : 0 < n}
    (mantissa : m = n) (exponent : e = f) :
    UnpackedFloat.finite s m e hm = .finite s n f hn := by
  subst mantissa exponent
  rfl

theorem unpackPack (s : Sign) (m : Nat) (e : Int) (positive : 0 < m) (small : m < 2 ^ 53)
    (least : -1074 ≤ e) (full : 2 ^ 52 ≤ m ∨ e = -1074) :
    (Float.Model.pack (.finite s m e positive)).unpack =
      if e ≤ 971 then .finite s m e positive else .infinity s := by
  have bias : (Format.binary64.exponentBias : Int) = 1023 := by decide
  have width : (Format.binary64.mantissaBitsWithoutImplicit : Int) = 52 := by decide
  have biased : (e + Format.binary64.exponentBias +
      Format.binary64.mantissaBitsWithoutImplicit).toNat = (e + 1075).toNat := by omega
  change UnpackedFloat.unpack Format.binary64 (UnpackedFloat.pack Format.binary64 _) = _
  rw [UnpackedFloat.pack]
  dsimp only
  rw [biased]
  by_cases large : 971 < e
  · rw [if_pos (by omega),if_neg (by omega)]
    cases s <;> rfl
  rw [if_neg (by omega)]
  have exponent : (BitVec.ofNat 11 (e + 1075).toNat).toNat = (e + 1075).toNat := by
    rw [BitVec.toNat_ofNat]
    omega
  by_cases normal : 2 ^ 52 ≤ m
  · have bits : m.log2 = 52 := (Nat.log2_eq_iff (by omega)).mpr ⟨normal,small⟩
    have inner : BitVec.ofNat 11 (e + 1075).toNat ≠ -1#11 := by
      intro h
      have := congrArg BitVec.toNat h
      rw [exponent] at this
      change _ = 2047 at this
      omega
    have above : BitVec.ofNat 11 (e + 1075).toNat ≠ 0#11 := by
      intro h
      have := congrArg BitVec.toNat h
      rw [exponent] at this
      change _ = 0 at this
      omega
    rw [bits,if_pos (by decide),if_pos (by omega),UnpackedFloat.unpack]
    simp only [unpackMantissa_packComponents,unpackExponent_packComponents,signKept,
      if_neg inner,if_neg above]
    refine finiteEq ?_ (by omega)
    rw [fullMantissa,BitVec.toNat_ofNat]
    omega
  · have bits := log2Le (k := 51) (m := m) (by omega)
    have rest : (BitVec.ofNat 52 m).toNat = m := by
      rw [BitVec.toNat_ofNat]
      omega
    have some : BitVec.ofNat 52 m ≠ 0#52 := by
      intro h
      have := congrArg BitVec.toNat h
      rw [rest] at this
      change _ = 0 at this
      omega
    rw [if_neg (by change ¬ m.log2 + 1 = 53; omega),if_pos (by omega),UnpackedFloat.unpack]
    simp only [unpackMantissa_packComponents,unpackExponent_packComponents,signKept]
    rw [if_neg (by decide),if_pos trivial,dif_neg some]
    refine finiteEq rest ?_
    change (0 : Int) - _ + 1 = e
    omega

def withMantissa (s : Sign) (m : Nat) (e : Int) : UnpackedFloat :=
  if h : m = 0 then .zero s else .finite s m e (Nat.pos_of_ne_zero h)

theorem placePacked {s : Sign} {m : Nat} {e : Int} (small : m < 2 ^ 53) (least : -1074 ≤ e)
    (full : 2 ^ 52 ≤ m ∨ e = -1074) :
    (Float.Model.pack (withMantissa s m e)).unpack.isNaN = false ∧
      placeOf (Float.Model.pack (withMantissa s m e)).unpack =
        s.apply (min (m * 2 ^ (e + 1074).toNat) beyond : Nat) := by
  unfold withMantissa
  split
  · rename_i zero
    subst zero
    cases s <;> exact ⟨rfl,by simp [Sign.apply]; rfl⟩
  · rw [unpackPack s m e _ small least full]
    split
    · rename_i most
      have inside := magnitudeBelow small most
      refine ⟨rfl,?_⟩
      rw [Nat.min_eq_left (by omega)]
      rfl
    · rename_i more
      obtain ⟨k,last,eq⟩ := beyondEq
      have outside : beyond ≤ m * 2 ^ (e + 1074).toNat := by
        calc beyond = 2 ^ 52 * 2 ^ (k + 1) := by rw [eq]; ring
          _ ≤ 2 ^ 52 * 2 ^ (e + 1074).toNat :=
            Nat.mul_le_mul_left _ (Nat.pow_le_pow_right (by omega) (by omega))
          _ ≤ m * 2 ^ (e + 1074).toNat := Nat.mul_le_mul_right _ (by omega)
      refine ⟨rfl,?_⟩
      rw [Nat.min_eq_right outside]
      rfl

def gridExponent (m : Nat) (e : Int) : Int := max ((m.log2 : Int) + e - 52) (-1074)

theorem wholeShifted {m n d k : Nat} (whole : n / d = m) (bits : m.log2 ≤ 52 + k) :
    n / (d * 2 ^ k) < 2 ^ 53 := by
  rw [← Nat.div_div_eq_div_mul,whole]
  have log := log2Div m k
  calc m / 2 ^ k < 2 ^ ((m / 2 ^ k).log2 + 1) := Nat.lt_log2_self
    _ ≤ 2 ^ 53 := Nat.pow_le_pow_right (by omega) (by omega)

theorem roundUnpacked {m n d : Nat} {e : Int} (s : Sign) (positive : 0 < d) (whole : n / d = m)
    (enough : 52 ≤ m.log2 ∨ e ≤ -1074) :
    roundWithAccuracy Format.binary64 s m e (accuracyOfFraction (n % d) d) =
      let t := gridExponent m e
      let r := nearestEven n (d * 2 ^ (t - e).toNat)
      if r < 2 ^ 53 then withMantissa s r t else withMantissa s (2 ^ 52) (t + 1) := by
  have above : e ≤ gridExponent m e := by unfold gridExponent; omega
  have least : -1074 ≤ gridExponent m e := by unfold gridExponent; omega
  have bits : m.log2 ≤ 52 + (gridExponent m e - e).toNat := by unfold gridExponent; omega
  have first : shiftToTargetExponent Format.binary64 m e (accuracyOfFraction (n % d) d) =
      (ExtendedMantissa.ofMantissaAndAccuracy m (accuracyOfFraction (n % d) d) >>>
        (gridExponent m e - e).toNat,
        gridExponent m e) := by
    unfold shiftToTargetExponent shiftToExponent
    rw [targetEq]
    change (_,e + ((gridExponent m e - e).toNat : Int)) = _
    rw [show e + ((gridExponent m e - e).toNat : Int) = gridExponent m e by omega]
    rfl
  have kept := holdsAtFirst n d
  rw [whole] at kept
  have r := holdsRounded (holdsShiftedBy kept positive (gridExponent m e - e).toNat)
    (by positivity)
  have bounds := nearestEvenBounds n (d * 2 ^ (gridExponent m e - e).toNat)
  have inside := wholeShifted whole bits
  unfold roundWithAccuracy
  rw [first]
  dsimp only
  rw [r]
  by_cases small : nearestEven n (d * 2 ^ (gridExponent m e - e).toNat) < 2 ^ 53
  · rw [shiftExact small least,if_pos small]
    rfl
  · have carried : nearestEven n (d * 2 ^ (gridExponent m e - e).toNat) = 2 ^ 53 := by omega
    rw [carried,shiftCarry least,if_neg (by omega)]
    rfl

theorem gridFull {m n d : Nat} {e : Int} (whole : n / d = m)
    (enough : 52 ≤ m.log2 ∨ e ≤ -1074) :
    2 ^ 52 ≤ nearestEven n (d * 2 ^ (gridExponent m e - e).toNat) ∨ gridExponent m e = -1074 := by
  by_cases least : gridExponent m e = -1074
  · exact .inr least
  left
  have bits : m.log2 = 52 + (gridExponent m e - e).toNat := by
    unfold gridExponent at *
    omega
  have some : m ≠ 0 := by
    rintro rfl
    rw [Nat.log2_zero] at bits
    omega
  have full : 2 ^ 52 ≤ n / (d * 2 ^ (gridExponent m e - e).toNat) := by
    rw [← Nat.div_div_eq_div_mul,whole,Nat.le_div_iff_mul_le (by positivity),← Nat.pow_add,← bits]
    exact Nat.log2_self_le some
  exact full.trans (nearestEvenBounds n _).1

/-- The grid around a quotient, seen in units: the exponent says how many units are one step. -/
theorem nearestPointAt {m n d : Nat} {e : Int} (whole : n / d = m)
    (enough : 52 ≤ m.log2 ∨ e ≤ -1074) :
    nearestPoint (n * 2 ^ (e + 1074).toNat) (d * 2 ^ (-1074 - e).toNat) =
      nearestEven n (d * 2 ^ (gridExponent m e - e).toNat) *
        2 ^ (gridExponent m e + 1074).toNat := by
  unfold nearestPoint
  dsimp only
  by_cases fine : e ≤ -1074
  · have p : (e + 1074).toNat = 0 := by omega
    have log := log2Div m (-1074 - e).toNat
    rw [p,Nat.pow_zero,Nat.mul_one,← Nat.div_div_eq_div_mul,whole,log,Nat.mul_assoc,← Nat.pow_add]
    have steps : m.log2 - (-1074 - e).toNat - 52 = (gridExponent m e + 1074).toNat := by
      unfold gridExponent
      omega
    have shifts : (-1074 - e).toNat + (m.log2 - (-1074 - e).toNat - 52) =
        (gridExponent m e - e).toNat := by
      unfold gridExponent
      omega
    rw [shifts,steps]
  · have q : (-1074 - e).toNat = 0 := by omega
    have some : n / d ≠ 0 := by
      intro zero
      rw [← whole,zero,Nat.log2_zero] at enough
      omega
    rw [q,Nat.pow_zero,Nat.mul_one,log2Scaled _ some,whole]
    have steps : m.log2 + (e + 1074).toNat - 52 = (gridExponent m e + 1074).toNat := by
      unfold gridExponent
      omega
    have shifts : (gridExponent m e + 1074).toNat =
        (gridExponent m e - e).toNat + (e + 1074).toNat := by
      unfold gridExponent
      omega
    rw [steps]
    congr 1
    rw [shifts,Nat.pow_add,← Nat.mul_assoc,nearestEvenScaled (by positivity)]

theorem placeRounded {m n d : Nat} {e : Int} (s : Sign) (positive : 0 < d) (whole : n / d = m)
    (enough : 52 ≤ m.log2 ∨ e ≤ -1074) :
    let u := roundWithAccuracy Format.binary64 s m e (accuracyOfFraction (n % d) d)
    (Float.Model.pack u).unpack.isNaN = false ∧ placeOf (Float.Model.pack u).unpack =
      s.apply (min (nearestPoint (n * 2 ^ (e + 1074).toNat) (d * 2 ^ (-1074 - e).toNat))
        beyond : Nat) := by
  have least : -1074 ≤ gridExponent m e := by unfold gridExponent; omega
  have bits : m.log2 ≤ 52 + (gridExponent m e - e).toNat := by unfold gridExponent; omega
  have bounds := nearestEvenBounds n (d * 2 ^ (gridExponent m e - e).toNat)
  have inside := wholeShifted whole bits
  rw [roundUnpacked s positive whole enough,nearestPointAt whole enough]
  dsimp only
  split
  · rename_i small
    exact placePacked small least (gridFull whole enough)
  · have carried : nearestEven n (d * 2 ^ (gridExponent m e - e).toNat) = 2 ^ 53 := by omega
    have step : 2 ^ 53 * 2 ^ (gridExponent m e + 1074).toNat =
        2 ^ 52 * 2 ^ (gridExponent m e + 1 + 1074).toNat := by
      rw [show (gridExponent m e + 1 + 1074).toNat = (gridExponent m e + 1074).toNat + 1 by omega]
      ring
    rw [carried,step]
    exact placePacked (by omega) (by omega) (.inl (by omega))

theorem quotientMono {n d n' d' : Nat} (positive : 0 < d) (positive' : 0 < d')
    (le : n * d' ≤ n' * d) : n / d ≤ n' / d' := by
  rw [Nat.le_div_iff_mul_le positive']
  refine Nat.le_of_mul_le_mul_right ?_ positive
  calc n / d * d' * d = n / d * d * d' := by ring
    _ ≤ n * d' := Nat.mul_le_mul_right _ (Nat.div_mul_le_self n d)
    _ ≤ n' * d := le

theorem nearestEvenMono {n d n' d' : Nat} (positive : 0 < d) (positive' : 0 < d')
    (le : n * d' ≤ n' * d) : nearestEven n d ≤ nearestEven n' d' := by
  have whole := quotientMono positive positive' le
  rcases Nat.lt_or_eq_of_le whole with less | same
  · exact (nearestEvenBounds n d).2.trans (less.trans_le (nearestEvenBounds n' d').1)
  have rest : n % d * d' ≤ n' % d' * d := by
    have left := Nat.div_add_mod' n d
    have right := Nat.div_add_mod' n' d'
    have common : n / d * d * d' = n' / d' * d' * d := by rw [same]; ring
    have sums : n / d * d * d' + n % d * d' ≤ n' / d' * d' * d + n' % d' * d := by
      rw [← Nat.add_mul,← Nat.add_mul,left,right]
      exact le
    omega
  have doubled : 2 * (n % d) * d' ≤ 2 * (n' % d') * d := by
    rw [Nat.mul_assoc,Nat.mul_assoc]
    exact Nat.mul_le_mul_left 2 rest
  unfold nearestEven
  dsimp only
  rw [same]
  by_cases up : d < 2 * (n % d) ∨ d = 2 * (n % d) ∧ n' / d' % 2 = 1
  · have up' : d' < 2 * (n' % d') ∨ d' = 2 * (n' % d') ∧ n' / d' % 2 = 1 := by
      rcases up with more | ⟨half,odd⟩
      · left
        refine Nat.lt_of_mul_lt_mul_left (a := d) ?_
        calc d * d' < 2 * (n % d) * d' := Nat.mul_lt_mul_of_pos_right more positive'
          _ ≤ 2 * (n' % d') * d := doubled
          _ = d * (2 * (n' % d')) := Nat.mul_comm _ _
      · have atLeast : d' ≤ 2 * (n' % d') := by
          refine Nat.le_of_mul_le_mul_left (c := d) ?_ positive
          calc d * d' = 2 * (n % d) * d' := by rw [← half]
            _ ≤ 2 * (n' % d') * d := doubled
            _ = d * (2 * (n' % d')) := Nat.mul_comm _ _
        rcases Nat.lt_or_eq_of_le atLeast with more | same
        · exact .inl more
        · exact .inr ⟨same,odd⟩
    rw [if_pos up,if_pos up']
  · rw [if_neg up]
    split <;> omega

theorem nearestPointMono {n d n' d' : Nat} (positive : 0 < d) (positive' : 0 < d')
    (le : n * d' ≤ n' * d) : nearestPoint n d ≤ nearestPoint n' d' := by
  have whole := quotientMono positive positive' le
  have logs : (n / d).log2 ≤ (n' / d').log2 := by
    by_cases zero : n / d = 0
    · rw [zero,Nat.log2_zero]
      omega
    · have some := (Nat.pos_of_ne_zero zero).trans_le whole
      exact (Nat.le_log2 some.ne').mpr ((Nat.log2_self_le zero).trans whole)
  unfold nearestPoint
  dsimp only
  rcases Nat.lt_or_eq_of_le (Nat.sub_le_sub_right logs 52) with less | same
  · have upper : nearestEven n (d * 2 ^ ((n / d).log2 - 52)) ≤ 2 ^ 53 := by
      have inside := wholeShifted (k := (n / d).log2 - 52) (rfl : n / d = n / d) (by omega)
      have := (nearestEvenBounds n (d * 2 ^ ((n / d).log2 - 52))).2
      omega
    have lower : 2 ^ 52 ≤ nearestEven n' (d' * 2 ^ ((n' / d').log2 - 52)) := by
      refine le_trans ?_ (nearestEvenBounds n' _).1
      rw [← Nat.div_div_eq_div_mul,Nat.le_div_iff_mul_le (by positivity),← Nat.pow_add,
        show 52 + ((n' / d').log2 - 52) = (n' / d').log2 by omega]
      refine Nat.log2_self_le ?_
      intro zero
      rw [zero,Nat.log2_zero] at less
      omega
    calc _ ≤ 2 ^ 53 * 2 ^ ((n / d).log2 - 52) := Nat.mul_le_mul_right _ upper
      _ = 2 ^ 52 * 2 ^ ((n / d).log2 - 52 + 1) := by ring
      _ ≤ 2 ^ 52 * 2 ^ ((n' / d').log2 - 52) :=
        Nat.mul_le_mul_left _ (Nat.pow_le_pow_right (by omega) less)
      _ ≤ _ := Nat.mul_le_mul_right _ lower
  · rw [same]
    refine Nat.mul_le_mul_right _ (nearestEvenMono (by positivity) (by positivity) ?_)
    rw [← Nat.mul_assoc,← Nat.mul_assoc]
    exact Nat.mul_le_mul_right _ le

theorem nearestEvenWhole {q d : Nat} (positive : 0 < d) : nearestEven (q * d) d = q := by
  unfold nearestEven
  dsimp only
  rw [Nat.mul_div_cancel _ positive,Nat.mul_mod_left,if_neg (by omega)]

/-- A half of the unit at most is lost or won. -/
theorem nearestEvenNear (n : Nat) {d : Nat} (positive : 0 < d) :
    2 * n ≤ 2 * (nearestEven n d * d) + d ∧ 2 * (nearestEven n d * d) ≤ 2 * n + d := by
  have rest := Nat.mod_lt n positive
  have parts := Nat.div_add_mod' n d
  have next : (n / d + 1) * d = n / d * d + d := Nat.succ_mul _ _
  unfold nearestEven
  dsimp only
  split
  · rw [next]
    omega
  · omega

/-- What is a half of the unit away is even. -/
theorem nearestEvenTie {n d : Nat} (positive : 0 < d)
    (tie : 2 * n = 2 * (nearestEven n d * d) + d ∨ 2 * (nearestEven n d * d) = 2 * n + d) :
    nearestEven n d % 2 = 0 := by
  have rest := Nat.mod_lt n positive
  have parts := Nat.div_add_mod' n d
  have next : (n / d + 1) * d = n / d * d + d := Nat.succ_mul _ _
  unfold nearestEven at tie ⊢
  dsimp only at tie ⊢
  split at tie
  · rename_i up
    rw [next] at tie
    rw [if_pos up]
    omega
  · rename_i down
    rw [if_neg down]
    omega

theorem nearestEvenPositive {n d : Nat} (positive : 0 < d) : 0 < nearestEven n d ↔ d < 2 * n := by
  have whole := Nat.div_add_mod n d
  unfold nearestEven
  dsimp only
  rcases Nat.eq_zero_or_pos (n / d) with none | some
  · rw [none,Nat.mul_zero,Nat.zero_add] at whole
    rw [none,whole]
    split <;> omega
  · have large : d * 1 ≤ d * (n / d) := Nat.mul_le_mul_left d some
    split <;> omega

theorem nearestPointExact {m k d : Nat} (small : m < 2 ^ 53) (positive : 0 < d) :
    nearestPoint (m * 2 ^ k * d) d = m * 2 ^ k := by
  unfold nearestPoint
  dsimp only
  rw [Nat.mul_div_cancel _ positive]
  have bits : (m * 2 ^ k).log2 - 52 ≤ k := by
    by_cases zero : m = 0
    · simp [zero]
    have scaled := log2Scaled (n := m) (d := 1) k (by simpa using zero)
    simp only [Nat.div_one] at scaled
    have := log2Le (k := 52) small
    omega
  obtain ⟨i,sum⟩ := Nat.exists_eq_add_of_le bits
  generalize (m * 2 ^ k).log2 - 52 = j at sum
  have split : m * 2 ^ k * d = m * 2 ^ i * (d * 2 ^ j) := by
    rw [sum]
    ring
  rw [split,nearestEvenWhole (by positivity),sum]
  ring

theorem nearestPointPositive {n d : Nat} (positive : 0 < d) (le : d ≤ n) :
    0 < nearestPoint n d := by
  have one : nearestPoint d d ≤ nearestPoint n d :=
    nearestPointMono positive positive (Nat.mul_le_mul_right d le)
  have exact := nearestPointExact (m := 1) (k := 0) (by omega) positive
  simp only [Nat.pow_zero,Nat.one_mul] at exact
  omega

end Montage
