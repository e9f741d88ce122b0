import Montage.Proofs.Double.Value

/-! Compact numbers. Of a text with four places the zeros at its end are cut off, and then its point
when nothing is left behind it. The point is always there to begin with, so that no zero of the
whole part goes, and the text stands for the same value as before. -/
namespace Montage.Decimal
variable {places : Nat} {x y : Float}

/-- The whole number nearest to `q`, of two the even one. -/
structure HalfEven (q : ℚ) (n : Int) : Prop where
  near : |q - n| ≤ 1 / 2
  tie : |q - n| = 1 / 2 → Even n

theorem HalfEven.negated {q : ℚ} {n : Int} (h : HalfEven q n) : HalfEven (-q) (-n) := by
  have same : |-q - (-n : Int)| = |q - n| := by
    rw [Int.cast_neg,← neg_sub',abs_neg]
  exact ⟨same ▸ h.near,fun half => (h.tie (same ▸ half)).neg⟩

theorem nearestEvenHalf (n : Nat) {d : Nat} (positive : 0 < d) :
    HalfEven (n / d : ℚ) (nearestEven n d) := by
  have scale : (0 : ℚ) < d := by exact_mod_cast positive
  have near := nearestEvenNear n positive
  have tie := nearestEvenTie (n := n) positive
  generalize nearestEven n d = r at near tie ⊢
  have size : |(n / d : ℚ) - (r : Int)| = |(n : ℚ) - r * d| / d := by
    rw [← abs_of_pos scale,← abs_div,abs_of_pos scale,sub_div,mul_div_cancel_right₀ _ scale.ne']
    norm_cast
  constructor
  · rw [size,div_le_iff₀ scale,abs_le]
    have low : (2 * n : ℚ) ≤ 2 * (r * d) + d := by exact_mod_cast near.1
    have high : (2 * (r * d) : ℚ) ≤ 2 * n + d := by exact_mod_cast near.2
    constructor <;> linarith
  · intro half
    rw [size,div_eq_iff scale.ne',abs_eq (by positivity)] at half
    have even : r % 2 = 0 := by
      refine tie (half.imp (fun above => ?_) fun below => ?_)
      · have : (2 * n : ℚ) = 2 * (r * d) + d := by linarith
        exact_mod_cast this
      · have : (2 * (r * d) : ℚ) = 2 * n + d := by linarith
        exact_mod_cast this
    exact_mod_cast Nat.even_iff.mpr even

/-- The text shows the exact value, rounded once. -/
theorem shownHalfEven (places : Nat) (finite : x.isFinite = true) :
    HalfEven (ratio x * 10 ^ places) (shown places x) := by
  have half := nearestEvenHalf ((place x).natAbs * 10 ^ places) onesPositive
  have exact : ratio x * 10 ^ places =
      (place x).sign * (((place x).natAbs * 10 ^ places : Nat) / ones : ℚ) := by
    have size : ((place x).sign : ℚ) * ((place x).natAbs : ℚ) = place x := by
      rw [← Int.cast_natCast,← Int.cast_mul,Int.sign_mul_natAbs]
    rw [ratioPlace finite,← size]
    push_cast
    ring
  rw [exact]
  unfold shown
  rcases lt_trichotomy (place x) 0 with less | zero | more
  · rw [Int.sign_eq_neg_one_of_neg less]
    simpa using half.negated
  · rw [zero] at half ⊢
    simpa [nearestEven] using half
  · rw [Int.sign_eq_one_of_pos more]
    simpa using half

section
variable {front behind : List Char} {c d : Char} {cs : List Char}

theorem dropEndBehind (apart : d ≠ c) :
    dropEnd c (front ++ d :: behind) = front ++ d :: dropEnd c behind := by
  unfold dropEnd
  rw [List.reverse_append,List.reverse_cons,List.append_assoc,List.dropWhile_append]
  split
  · rename_i none
    rw [List.isEmpty_iff.mp none,List.singleton_append,
      List.dropWhile_cons_of_neg (by simpa using apart)]
    simp
  · simp

theorem dropEndKept (given : cs ≠ []) (apart : cs.getLast given ≠ c) : dropEnd c cs = cs :=
  List.rdropWhile_eq_self_iff.mpr fun _ same => apart (by simpa using same)

theorem dropEndParts (c : Char) (cs : List Char) :
    ∃ k, cs = dropEnd c cs ++ List.replicate k c ∧ (dropEnd c cs).getLast? ≠ some c := by
  refine ⟨(cs.rtakeWhile (· == c)).length,?_,fun last => ?_⟩
  · have same := List.eq_replicate_of_mem (l := cs.rtakeWhile (· == c)) (a := c)
      fun d mem => by simpa using List.mem_rtakeWhile_imp mem
    rw [← same]
    exact List.rdropWhile_append_rtakeWhile.symm
  · have given : dropEnd c cs ≠ [] := by
      intro none
      rw [none] at last
      cases last
    have other := List.rdropWhile_last_not (· == c) cs given
    rw [List.getLast?_eq_some_getLast given] at last
    exact other (beq_iff_eq.mpr (Option.some.inj last))

end

/-- All digits of the whole part of `v`, and a point only with digits behind it: four at most, the
last of which is not zero. -/
inductive Compact (v : ℚ) : List Char → Prop where
  | whole (negative : Bool) : Compact v (signMark negative ++ Nat.toDigits 10 ⌊|v|⌋₊)
  | fraction (negative : Bool) {ds : List Char} (given : ds ≠ []) (short : ds.length ≤ 4)
      (digits : ds.all Char.isDigit = true) (last : ds.getLast? ≠ some '0') :
      Compact v (signMark negative ++ (Nat.toDigits 10 ⌊|v|⌋₊ ++ '.' :: ds))

/-- The point and what is behind it, unless nothing is. -/
def pointed (ds : List Char) : List Char := if ds = [] then [] else '.' :: ds

theorem digitApart {c : Char} (digit : c.isDigit = true) : c ≠ '.' := by
  rintro rfl
  cases digit

theorem pointDropped {ahead ds : List Char} (given : ahead ≠ [])
    (whole : (ahead.getLast given).isDigit = true) (digits : ds.all Char.isDigit = true) :
    dropEnd '.' (ahead ++ '.' :: ds) = ahead ++ pointed ds := by
  unfold pointed
  split
  · rename_i none
    have dropped := List.rdropWhile_concat_pos (· == '.') ahead '.' rfl
    rw [none,List.append_nil]
    exact dropped.trans (dropEndKept given (digitApart whole))
  · rename_i some
    refine dropEndKept (by simp) (digitApart ?_)
    rw [List.getLast_append_of_ne_nil _ (List.cons_ne_nil _ _),List.getLast_cons some]
    exact List.all_eq_true.mp digits _ (List.getLast_mem some)

/-- The digits behind the point, up to the last that is not zero. -/
def fraction (places n : Nat) : List Char := dropEnd '0' (padded places (n % 10 ^ places))

theorem fractionParts (some : 0 < places) (n : Nat) :
    ∃ k, padded places (n % 10 ^ places) = fraction places n ++ List.replicate k '0' ∧
      (fraction places n).length + k = places := by
  obtain ⟨k,parts,_⟩ := dropEndParts '0' (padded places (n % 10 ^ places))
  have length := congrArg List.length parts
  rw [paddedLength some (Nat.mod_lt _ (by positivity)),List.length_append,
    List.length_replicate] at length
  exact ⟨k,parts,length.symm⟩

theorem fractionDigits (some : 0 < places) (n : Nat) :
    (fraction places n).all Char.isDigit = true := by
  obtain ⟨k,parts,_⟩ := fractionParts some n
  have digits := paddedAll places (n % 10 ^ places)
  rw [parts,List.all_append,Bool.and_eq_true] at digits
  exact digits.1

/-- Each zero that is cut off divides the count and its unit by ten. -/
theorem fractionValue (some : 0 < places) (n : Nat) :
    unsignedValue? (Nat.toDigits 10 (n / 10 ^ places) ++ pointed (fraction places n)) =
      Option.some (n / 10 ^ places : ℚ) := by
  obtain ⟨k,parts,length⟩ := fractionParts some n
  have value := (placedDigits some n).2
  have total : (n / 10 ^ places : ℚ) =
      digitsValue 0 (Nat.toDigits 10 (n / 10 ^ places) ++ fraction places n) /
        10 ^ (fraction places n).length := by
    rw [parts,← List.append_assoc,digitsValueEq,Nat.ofDigitChars_append,
      Nat.ofDigitChars_replicate_zero,← digitsValueEq] at value
    have scale : (10 : ℚ) ^ places = 10 ^ (fraction places n).length * 10 ^ k := by
      rw [← pow_add,length]
    conv_lhs => rw [← value]
    rw [scale]
    push_cast
    rw [mul_comm,mul_div_mul_right _ _ (by positivity)]
  rw [total]
  unfold pointed
  split
  · rename_i none
    rw [none,List.append_nil,wholeValue,digitsValueEq,Nat.ofDigitChars_ten_toDigits]
    simp
  · rename_i given
    exact pointedValue _ given (fractionDigits some n)

theorem compactParts (finite : x.isFinite = true) :
    ∃ negative n, Exact.signed negative n = shown 4 x ∧
      compactText x = String.ofList
        (signMark negative ++ (Nat.toDigits 10 (n / 10 ^ 4) ++ pointed (fraction 4 n))) := by
  obtain ⟨negative,m,e,read,positive,same⟩ := exactPlace finite
  refine ⟨negative,_,shownRatio positive same,?_⟩
  generalize units : nearestEven (Exact.top m e * 10 ^ 4) (Exact.bottom e) = n
  have given : signMark negative ++ Nat.toDigits 10 (n / 10 ^ 4) ≠ [] :=
    List.append_ne_nil_of_right_ne_nil _ Nat.toDigits_ne_nil
  have last : ((signMark negative ++ Nat.toDigits 10 (n / 10 ^ 4)).getLast given).isDigit = true := by
    rw [List.getLast_append_of_ne_nil _ Nat.toDigits_ne_nil]
    exact List.all_eq_true.mp (toDigitsAll _) _ (List.getLast_mem _)
  have text : fixedChars 4 x = signMark negative ++ Nat.toDigits 10 (n / 10 ^ 4) ++
      '.' :: padded 4 (n % 10 ^ 4) := by
    unfold fixedChars
    rw [read]
    dsimp only
    rw [Nat.pow_eq,units,placed,Nat.pow_eq,List.append_assoc]
  have cut : dropEnd '.' (dropEnd '0' (fixedChars 4 x)) =
      signMark negative ++ Nat.toDigits 10 (n / 10 ^ 4) ++ pointed (fraction 4 n) := by
    rw [text,dropEndBehind (by decide)]
    exact pointDropped given last (fractionDigits (by omega) n)
  unfold compactText
  dsimp only
  rw [cut,if_neg (by simp [Nat.toDigits_ne_nil]),List.append_assoc]

theorem compactValue (finite : x.isFinite = true) :
    value? (compactText x) = some (shown 4 x / 10 ^ 4 : ℚ) := by
  obtain ⟨negative,n,units,text⟩ := compactParts finite
  rw [text,signedValue negative (fractionValue (by omega) n),units]

theorem compactForm (finite : x.isFinite = true) :
    Compact (shown 4 x / 10 ^ 4) (compactText x).toList := by
  obtain ⟨negative,n,units,text⟩ := compactParts finite
  have whole : ⌊|(shown 4 x / 10 ^ 4 : ℚ)|⌋₊ = n / 10 ^ 4 := by
    have size : |(shown 4 x : ℚ)| = n := by
      rw [← units]
      cases negative <;> simp [Exact.signed]
    have cut := Nat.floor_div_eq_div (K := ℚ) n (10 ^ 4)
    rw [abs_div,size,abs_of_pos (by positivity)]
    rwa [Nat.cast_pow,Nat.cast_ofNat] at cut
  rw [text,String.toList_ofList,← whole]
  unfold pointed
  split
  · rw [List.append_nil]
    exact .whole negative
  · rename_i given
    obtain ⟨k,_,length⟩ := fractionParts (show 0 < 4 by omega) n
    obtain ⟨_,_,last⟩ := dropEndParts '0' (padded 4 (n % 10 ^ 4))
    exact .fraction negative given (by omega) (fractionDigits (by omega) n) last

/-- What the texts of a double stand for: the time `t` as seconds, the number `v` as a compact
number. -/
structure Faithful (x : Float) (t v : ℚ) : Prop where
  seconds : value? (secondsText x) = some t
  near : |t - ratio x| ≤ 0.0005
  compact : value? (compactText x) = some v
  rounded : ∃ n : Int, v = n / 10 ^ 4 ∧ HalfEven (ratio x * 10 ^ 4) n
  form : Compact v (compactText x).toList

theorem shownFaithful (finite : x.isFinite = true) :
    Faithful x (shown 3 x / 10 ^ 3) (shown 4 x / 10 ^ 4) where
  seconds := fixedValue finite (by omega)
  near := by
    have half : (0.0005 : ℚ) = 1 / (2 * 10 ^ 3) := by norm_num
    exact half ▸ shownClose 3 finite
  compact := compactValue finite
  rounded := ⟨shown 4 x,rfl,shownHalfEven 4 finite⟩
  form := compactForm finite

theorem shownUnitsRise (places : Nat) (le : x ≤ y) :
    (shown places x / 10 ^ places : ℚ) ≤ shown places y / 10 ^ places := by
  have units : shown places x ≤ shown places y := shownRises ((leIff x y).mp le).2.2
  exact div_le_div_of_nonneg_right (Int.cast_le.mpr units) (by positivity)

theorem textsFaithful (hx : x.isFinite = true) (hy : y.isFinite = true) (le : x ≤ y) :
    ∃ t v t' v', Faithful x t v ∧ Faithful y t' v' ∧ t ≤ t' ∧ v ≤ v' :=
  ⟨_,_,_,_,shownFaithful hx,shownFaithful hy,shownUnitsRise 3 le,shownUnitsRise 4 le⟩

/-- Rounded to none, and with zeros in the whole part. -/
theorem smallFaithful : Float.isFinite (-0.00003) = true ∧ Float.isFinite 1200 = true ∧
    (-0.00003 : Float) ≤ 1200 ∧ compactText (-0.00003) = "-0" ∧ compactText 1200 = "1200" ∧
    ∃ t v t' v', Faithful (-0.00003) t v ∧ Faithful 1200 t' v' ∧ t ≤ t' ∧ v ≤ v' := by
  have le : (-0.00003 : Float) ≤ 1200 := by decide +kernel
  exact ⟨rfl,rfl,le,by decide +kernel,by decide +kernel,textsFaithful rfl rfl le⟩

end Montage.Decimal
