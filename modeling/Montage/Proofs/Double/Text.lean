import Montage.Number.Decimal
import Montage.Proofs.Double.Whole

/-! Decimal texts read back. The text of a double with a fixed number of places shows a whole number
of units of its last place, the nearest one to its exact value. -/
namespace Montage.Decimal
variable {places n : Nat} {x y : Float}

/-- Digits, and a point with digits after it or nothing. -/
def unsignedValue? (cs : List Char) : Option ℚ :=
  let ahead := cs.takeWhile Char.isDigit
  match cs.dropWhile Char.isDigit with
  | [] => if ahead = [] then none else some (digitsValue 0 ahead)
  | c :: behind =>
    if c = '.' ∧ ahead ≠ [] ∧ behind ≠ [] ∧ behind.all Char.isDigit = true then
      some (digitsValue 0 (ahead ++ behind) / 10 ^ behind.length)
    else none

/-- The exact value that a decimal text stands for. -/
def value? (s : String) : Option ℚ :=
  let (negative,cs) := splitSign s.toList
  (unsignedValue? cs).map fun v => if negative then -v else v

theorem digitsValueEq (start : Nat) (ds : List Char) :
    digitsValue start ds = Nat.ofDigitChars 10 ds start := rfl

theorem toDigitsAll (n : Nat) : (Nat.toDigits 10 n).all Char.isDigit = true :=
  List.all_eq_true.mpr fun _ mem => Nat.isDigit_of_mem_toDigits (by decide) (by decide) mem

theorem paddedAll (width n : Nat) : (padded width n).all Char.isDigit = true := by
  unfold padded
  rw [List.all_append,toDigitsAll,Bool.and_true]
  exact List.all_eq_true.mpr fun c mem => List.eq_of_mem_replicate mem ▸ rfl

theorem paddedLength {width : Nat} (some : 0 < width) (small : n < 10 ^ width) :
    (padded width n).length = width := by
  have short := (Nat.length_toDigits_le_iff (by decide) some).mpr small
  unfold padded
  rw [List.length_append,List.length_replicate]
  omega

theorem paddedValue {width : Nat} (some : 0 < width) (small : n < 10 ^ width) (start : Nat) :
    digitsValue start (padded width n) = 10 ^ width * start + n := by
  rw [digitsValueEq,Nat.ofDigitChars_eq_ofDigitChars_zero,paddedLength some small]
  unfold padded
  rw [Nat.ofDigitChars_append,Nat.ofDigitChars_replicate_zero,Nat.mul_zero,
    Nat.ofDigitChars_ten_toDigits]

theorem wholeValue (n : Nat) : unsignedValue? (Nat.toDigits 10 n) = some (n : ℚ) := by
  have digits := List.all_eq_true.mp (toDigitsAll n)
  unfold unsignedValue?
  rw [List.takeWhile_eq_self_iff.mpr digits,List.dropWhile_eq_nil_iff.mpr digits]
  dsimp only
  rw [if_neg Nat.toDigits_ne_nil,digitsValueEq,Nat.ofDigitChars_ten_toDigits]

theorem pointedValue (n : Nat) {behind : List Char} (given : behind ≠ [])
    (digits : behind.all Char.isDigit = true) :
    unsignedValue? (Nat.toDigits 10 n ++ '.' :: behind) =
      some (digitsValue 0 (Nat.toDigits 10 n ++ behind) / 10 ^ behind.length : ℚ) := by
  have ahead := List.all_eq_true.mp (toDigitsAll n)
  have point : Char.isDigit '.' = false := by decide
  unfold unsignedValue?
  rw [List.takeWhile_append_of_pos ahead,List.dropWhile_append_of_pos ahead]
  simp only [List.takeWhile_cons,List.dropWhile_cons,point,Bool.false_eq_true,if_false,
    List.append_nil]
  rw [if_pos ⟨trivial,Nat.toDigits_ne_nil,given,digits⟩]

theorem placedDigits (some : 0 < places) (n : Nat) : padded places (n % 10 ^ places) ≠ [] ∧
    digitsValue 0 (Nat.toDigits 10 (n / 10 ^ places) ++ padded places (n % 10 ^ places)) = n := by
  have small : n % 10 ^ places < 10 ^ places := Nat.mod_lt _ (by positivity)
  have length := paddedLength some small
  refine ⟨List.length_pos_iff.mp (length.symm ▸ some),?_⟩
  rw [digitsValueEq,Nat.ofDigitChars_append,Nat.ofDigitChars_ten_toDigits,← digitsValueEq,
    paddedValue some small,Nat.div_add_mod]

theorem placedValue (some : 0 < places) (n : Nat) :
    unsignedValue? (placed places n) = Option.some (n / 10 ^ places : ℚ) := by
  have small : n % 10 ^ places < 10 ^ places := Nat.mod_lt _ (by positivity)
  obtain ⟨given,value⟩ := placedDigits some n
  unfold placed
  rw [Nat.pow_eq,pointedValue _ given (paddedAll _ _),value,paddedLength some small]

theorem splitNumber (negative : Bool) (n : Nat) (rest : List Char) :
    splitSign (signMark negative ++ (Nat.toDigits 10 n ++ rest)) =
      (negative,Nat.toDigits 10 n ++ rest) := by
  cases negative with
  | true => rfl
  | false =>
    obtain ⟨c,cs,digits⟩ := List.exists_cons_of_ne_nil (Nat.toDigits_ne_nil (b := 10) (n := n))
    have digit : c.isDigit = true := Nat.isDigit_of_mem_toDigits (by decide) (by decide)
      (digits ▸ List.mem_cons_self)
    unfold signMark splitSign
    rw [digits]
    split
    · rename_i same
      cases (List.cons.inj same).1
      cases digit
    · rename_i same
      cases (List.cons.inj same).1
      cases digit
    · rfl

/-- `n` is counted in units of the last place. -/
theorem signedValue (negative : Bool) {w n places : Nat} {rest : List Char}
    (unsigned : unsignedValue? (Nat.toDigits 10 w ++ rest) = some (n / 10 ^ places : ℚ)) :
    value? (String.ofList (signMark negative ++ (Nat.toDigits 10 w ++ rest))) =
      some (Exact.signed negative n / 10 ^ places : ℚ) := by
  unfold value?
  rw [String.toList_ofList,splitNumber]
  dsimp only
  rw [unsigned]
  cases negative with
  | true => simp [Exact.signed,neg_div]
  | false => simp [Exact.signed]

/-- How many units of the last place the text shows. -/
def shown (places : Nat) (x : Float) : Int :=
  (place x).sign * nearestEven ((place x).natAbs * 10 ^ places) ones

theorem signedSame {negative : Bool} {m : Nat} {z : Int}
    (sign : (Exact.signed negative m).sign = z.sign) (none : z = 0 → n = 0) :
    Exact.signed negative n = z.sign * n := by
  rcases lt_trichotomy z 0 with less | zero | more
  · rw [Int.sign_eq_neg_one_of_neg less] at sign ⊢
    have below := Int.sign_eq_neg_one_iff_neg.mp sign
    cases negative with
    | true => simp [Exact.signed]
    | false => exact absurd below (Int.not_lt.mpr (Int.natCast_nonneg _))
  · rw [none zero]
    cases negative <;> simp [Exact.signed]
  · rw [Int.sign_eq_one_of_pos more] at sign ⊢
    have above := Int.sign_eq_one_iff_pos.mp sign
    cases negative with
    | true => exact absurd above (Int.not_lt.mpr (Int.neg_nonpos_of_nonneg (Int.natCast_nonneg _)))
    | false => simp [Exact.signed]

/-- The exact value may be given as any ratio. -/
theorem shownRatio {negative : Bool} {m d : Nat} (positive : 0 < d)
    (same : Exact.signed negative m * ones = place x * d) :
    Exact.signed negative (nearestEven (m * 10 ^ places) d) = shown places x := by
  have wide := onesPositive
  have sign : (Exact.signed negative m).sign = (place x).sign := by
    have signs := congrArg Int.sign same
    rwa [Int.sign_mul,Int.sign_mul,Int.sign_eq_one_of_pos (a := ones) (by omega),
      Int.sign_eq_one_of_pos (a := d) (by omega),Int.mul_one,Int.mul_one] at signs
  have parts : m * ones = (place x).natAbs * d := by
    have sizes := congrArg Int.natAbs same
    rw [Int.natAbs_mul,Int.natAbs_mul] at sizes
    cases negative <;> simpa [Exact.signed] using sizes
  have units : nearestEven (m * 10 ^ places) d =
      nearestEven ((place x).natAbs * 10 ^ places) ones := by
    rw [← nearestEvenScaled (n := m * 10 ^ places) wide,
      ← nearestEvenScaled (n := (place x).natAbs * 10 ^ places) positive,Nat.mul_right_comm,parts,
      Nat.mul_right_comm,Nat.mul_comm d]
  rw [units]
  exact signedSame sign fun zero => by simp [zero,nearestEven]

theorem wholeNearestShown (finite : x.isFinite = true) : wholeNearest x = .ok (shown 0 x) := by
  obtain ⟨negative,m,e,read,positive,same⟩ := exactPlace finite
  have units : Exact.signed negative (nearestEven (Exact.top m e * 10 ^ 0) (Exact.bottom e)) =
      shown 0 x := shownRatio positive same
  rw [Nat.pow_zero,Nat.mul_one] at units
  unfold wholeNearest wholeBy
  rw [read]
  exact congrArg Except.ok units

theorem fixedValue (finite : x.isFinite = true) (some : 0 < places) :
    value? (fixed places x) = Option.some (shown places x / 10 ^ places : ℚ) := by
  obtain ⟨negative,m,e,read,positive,same⟩ := exactPlace finite
  unfold fixed fixedChars
  rw [read]
  dsimp only
  rw [placed,signedValue negative (placedValue some _),Nat.pow_eq,shownRatio positive same]

theorem shownLeast (least : 0 ≤ place x) : 0 ≤ shown places x :=
  Int.mul_nonneg (Int.sign_nonneg_iff.mpr least) (Int.natCast_nonneg _)

/-- Half a unit is rounded to none. -/
theorem shownPositive :
    0 < shown places x ↔ (ones : Int) < 2 * (place x * (10 ^ places : Nat)) := by
  have scale : (0 : Int) < (10 ^ places : Nat) := by positivity
  unfold shown
  rcases lt_or_ge 0 (place x) with more | less
  · obtain ⟨n,same⟩ := Int.eq_ofNat_of_zero_le more.le
    rw [Int.sign_eq_one_of_pos more,Int.one_mul,same,Int.natAbs_natCast,Int.natCast_pos,
      nearestEvenPositive onesPositive]
    exact_mod_cast Iff.rfl
  · have below : place x * (10 ^ places : Nat) ≤ 0 := Int.mul_nonpos_of_nonpos_of_nonneg less scale.le
    have none : (place x).sign * nearestEven ((place x).natAbs * 10 ^ places) ones ≤ 0 :=
      Int.mul_nonpos_of_nonpos_of_nonneg (Int.sign_nonpos_iff.mpr less) (Int.natCast_nonneg _)
    omega

theorem shownRises (le : place x ≤ place y) : shown places x ≤ shown places y := by
  have units {m n : Nat} (few : m ≤ n) :
      nearestEven (m * 10 ^ places) ones ≤ nearestEven (n * 10 ^ places) ones :=
    nearestEvenMono onesPositive onesPositive
      (Nat.mul_le_mul_right _ (Nat.mul_le_mul_right _ few))
  unfold shown
  rcases lt_or_ge (place x) 0 with less | least
  · rw [Int.sign_eq_neg_one_of_neg less]
    rcases lt_or_ge (place y) 0 with less' | least'
    · have := units (m := (place y).natAbs) (n := (place x).natAbs) (by omega)
      rw [Int.sign_eq_neg_one_of_neg less']
      omega
    · have := Int.mul_nonneg (Int.sign_nonneg_iff.mpr least')
        (Int.natCast_nonneg (nearestEven ((place y).natAbs * 10 ^ places) ones))
      omega
  rcases Int.le_iff_eq_or_lt.mp least with zero | more
  · rw [← zero,Int.sign_zero,Int.zero_mul]
    exact Int.mul_nonneg (Int.sign_nonneg_iff.mpr (by omega)) (Int.natCast_nonneg _)
  · have := units (m := (place x).natAbs) (n := (place y).natAbs) (by omega)
    rw [Int.sign_eq_one_of_pos more,Int.sign_eq_one_of_pos (more.trans_le le)]
    omega

/-- The text is within half a unit of its last place of the exact value. -/
theorem shownNear (places : Nat) (x : Float) :
    |2 * (shown places x * ones) - 2 * (place x * (10 ^ places : Nat))| ≤ (ones : Int) := by
  obtain ⟨low,high⟩ := nearestEvenNear ((place x).natAbs * 10 ^ places) onesPositive
  have size := Int.sign_mul_natAbs (place x)
  unfold shown
  generalize nearestEven ((place x).natAbs * 10 ^ places) ones = r at low high
  have split : 2 * ((place x).sign * r * ones) - 2 * (place x * (10 ^ places : Nat)) =
      (place x).sign * (2 * (r * ones) - 2 * ((place x).natAbs * (10 ^ places : Nat))) := by
    linear_combination 2 * (10 ^ places : Nat) * size
  have inner : |2 * ((r : Int) * ones) - 2 * ((place x).natAbs * (10 ^ places : Nat))| ≤
      (ones : Int) := by
    zify at low high
    push_cast
    rw [abs_le]
    constructor <;> linarith
  have one : |(place x).sign| ≤ 1 := by
    rcases Int.sign_trichotomy (place x) with same | same | same <;> simp [same]
  rw [split,abs_mul]
  exact (mul_le_of_le_one_left (abs_nonneg _) one).trans inner

end Montage.Decimal
