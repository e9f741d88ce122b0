import Montage.Proofs.Double.Whole

/-! Steps between doubles. A double is a whole number of steps, fewer than `2 ^ 53` of them, and the
steps are the finer the smaller it is. So what lies on a grid that is coarse enough is added and
taken away exactly, and what does not is rounded by less than a step. -/
namespace Montage
open Float.Model Float.Model.UnpackedFloat

/-- The steps are the least ones, or the mantissa is full. -/
theorem placeSteps {x : Float} (least : 0 ≤ x) (finite : x.isFinite = true) :
    ∃ m k : Nat, place x = (m * 2 ^ k : Nat) ∧ m < 2 ^ 53 ∧ (2 ^ 52 ≤ m ∨ k = 0) := by
  have lower := placeLeast least
  have shape := canonical x
  change x.toModel.unpack.isFinite = true at finite
  unfold place at lower ⊢
  revert finite shape lower
  cases x.toModel.unpack with
  | notANumber => exact fun _ _ finite => nomatch finite
  | infinity s => exact fun _ _ finite => nomatch finite
  | zero s => exact fun _ _ _ => ⟨0,0,by simp [placeOf],by omega,.inr rfl⟩
  | finite s m e positive =>
    rintro lower ⟨small,_,_,full⟩ _
    have some := placePositive m e positive
    cases s with
    | negative =>
      simp only [placeOf,Sign.apply] at lower
      omega
    | positive => exact ⟨m,(e + 1074).toNat,rfl,small,full.imp_right (by omega)⟩

theorem stepsFine {m k j : Nat} (full : 2 ^ 52 ≤ m ∨ k = 0) (near : m * 2 ^ k < 2 ^ 53 * 2 ^ j) :
    k ≤ j := by
  rcases full with full | rfl
  · by_contra coarse
    have far : 2 ^ 53 * 2 ^ j ≤ m * 2 ^ k := by
      calc 2 ^ 53 * 2 ^ j = 2 ^ 52 * 2 ^ (j + 1) := by ring
        _ ≤ 2 ^ 52 * 2 ^ k := Nat.mul_le_mul_left _ (Nat.pow_le_pow_right (by omega) (by omega))
        _ ≤ m * 2 ^ k := Nat.mul_le_mul_right _ full
    omega
  · exact Nat.zero_le j

/-- On the coarser grid too, where `x` is small. -/
theorem placeStepsBelow {x : Float} {j : Nat} (least : 0 ≤ x) (finite : x.isFinite = true)
    (near : place x < (2 ^ 53 * 2 ^ j : Nat)) :
    ∃ m k : Nat, place x = (m * 2 ^ k : Nat) ∧ m < 2 ^ 53 ∧ k ≤ j := by
  obtain ⟨m,k,at',small,full⟩ := placeSteps least finite
  rw [at'] at near
  exact ⟨m,k,at',small,stepsFine full (by exact_mod_cast near)⟩

theorem roundedSteps {n k d : Nat} (most : n ≤ 2 ^ 53) (low : k ≤ 1073) (positive : 0 < d) :
    rounded (n * 2 ^ k * d : Nat) d = (n * 2 ^ k : Nat) := by
  by_cases full : n = 2 ^ 53
  · have exact := roundedUnits (n := (2 ^ 52 : Nat)) (k := k + 1) (by omega) (by omega) positive
    rw [full,show 2 ^ 53 * 2 ^ k = 2 ^ 52 * 2 ^ (k + 1) by ring]
    exact_mod_cast exact
  · have exact := roundedUnits (n := n) (k := k) (by omega) (by omega) positive
    exact_mod_cast exact

/-- The result is rounded up by less than a step. -/
theorem roundedLess {z : Int} {d k : Nat} (positive : 0 < d) (low : k ≤ 1073) (least : 0 ≤ z)
    (most : z ≤ (2 ^ 53 * 2 ^ k * d : Nat)) : rounded z d * d < z + (2 ^ k * d : Nat) := by
  obtain ⟨n,rfl⟩ := Int.eq_ofNat_of_zero_le least
  have most : n ≤ 2 ^ 53 * 2 ^ k * d := Int.ofNat_le.mp most
  have scale : 0 < 2 ^ k * d := by positivity
  obtain ⟨q,above,less⟩ : ∃ q, n ≤ q * (2 ^ k * d) ∧ q * (2 ^ k * d) < n + 2 ^ k * d := by
    refine ⟨(n + (2 ^ k * d - 1)) / (2 ^ k * d),?_,?_⟩
    · have rest := Nat.mod_lt (n + (2 ^ k * d - 1)) scale
      have parts := Nat.div_add_mod' (n + (2 ^ k * d - 1)) (2 ^ k * d)
      omega
    · have := Nat.div_mul_le_self (n + (2 ^ k * d - 1)) (2 ^ k * d)
      omega
  have few : q ≤ 2 ^ 53 := by
    by_contra many
    have far : (2 ^ 53 + 1) * (2 ^ k * d) ≤ q * (2 ^ k * d) := Nat.mul_le_mul_right _ (by omega)
    have wide : (2 ^ 53 + 1) * (2 ^ k * d) = 2 ^ 53 * 2 ^ k * d + 2 ^ k * d := by ring
    omega
  have up : rounded n d ≤ (q * 2 ^ k : Nat) := by
    rw [← roundedSteps few low positive]
    refine roundedMono positive positive ?_
    rw [Nat.mul_assoc]
    exact_mod_cast Nat.mul_le_mul_right d above
  calc rounded n d * d ≤ (q * 2 ^ k : Nat) * d := Int.mul_le_mul_of_nonneg_right up (by omega)
    _ = (q * (2 ^ k * d) : Nat) := by push_cast; ring
    _ < n + (2 ^ k * d : Nat) := by exact_mod_cast less

theorem roundedMore {z : Int} {d k : Nat} (positive : 0 < d) (low : k ≤ 1073) (least : 0 ≤ z)
    (most : z ≤ (2 ^ 53 * 2 ^ k * d : Nat)) : z < rounded z d * d + (2 ^ k * d : Nat) := by
  obtain ⟨n,rfl⟩ := Int.eq_ofNat_of_zero_le least
  have most : n ≤ 2 ^ 53 * 2 ^ k * d := Int.ofNat_le.mp most
  have scale : 0 < 2 ^ k * d := by positivity
  obtain ⟨q,below,more⟩ : ∃ q, q * (2 ^ k * d) ≤ n ∧ n < q * (2 ^ k * d) + 2 ^ k * d := by
    have rest := Nat.mod_lt n scale
    have parts := Nat.div_add_mod' n (2 ^ k * d)
    exact ⟨n / (2 ^ k * d),by omega,by omega⟩
  have few : q ≤ 2 ^ 53 := by
    refine Nat.le_of_mul_le_mul_right (below.trans ?_) scale
    rwa [← Nat.mul_assoc]
  have down : (q * 2 ^ k : Nat) ≤ rounded n d := by
    rw [← roundedSteps few low positive]
    refine roundedMono positive positive ?_
    rw [Nat.mul_assoc]
    exact_mod_cast Nat.mul_le_mul_right d below
  calc (n : Int) < (q * (2 ^ k * d) + 2 ^ k * d : Nat) := by exact_mod_cast more
    _ = (q * 2 ^ k : Nat) * d + (2 ^ k * d : Nat) := by push_cast; ring
    _ ≤ rounded n d * d + (2 ^ k * d : Nat) := by
      have := Int.mul_le_mul_of_nonneg_right down (Int.natCast_nonneg d)
      omega

section
variable {x y : Float} {k : Nat}

theorem sumLess (hx : x.isFinite = true) (hy : y.isFinite = true) (low : k ≤ 1073)
    (least : 0 ≤ place x + place y) (most : place x + place y ≤ (2 ^ 53 * 2 ^ k : Nat)) :
    place (x + y) < place x + place y + (2 ^ k : Nat) := by
  have less := roundedLess (d := 1) Nat.one_pos low least (by rwa [Nat.mul_one])
  rw [Nat.mul_one,Nat.cast_one,Int.mul_one] at less
  rwa [(sumPlace hx hy).2]

theorem sumMore (hx : x.isFinite = true) (hy : y.isFinite = true) (low : k ≤ 1073)
    (least : 0 ≤ place x + place y) (most : place x + place y ≤ (2 ^ 53 * 2 ^ k : Nat)) :
    place x + place y < place (x + y) + (2 ^ k : Nat) := by
  have more := roundedMore (d := 1) Nat.one_pos low least (by rwa [Nat.mul_one])
  rw [Nat.mul_one,Nat.cast_one,Int.mul_one] at more
  rwa [(sumPlace hx hy).2]

theorem differenceLess (hx : x.isFinite = true) (hy : y.isFinite = true) (low : k ≤ 1073)
    (least : 0 ≤ place x - place y) (most : place x - place y ≤ (2 ^ 53 * 2 ^ k : Nat)) :
    place (x - y) < place x - place y + (2 ^ k : Nat) := by
  have less := roundedLess (d := 1) Nat.one_pos low least (by rwa [Nat.mul_one])
  rw [Nat.mul_one,Nat.cast_one,Int.mul_one] at less
  rwa [(differencePlace hx hy).2]

theorem multipleLess {n : Int} (hx : x.isFinite = true) (whole : IsWhole y n)
    (hy : y.isFinite = true) (low : k ≤ 1073) (least : 0 ≤ place x * n)
    (most : place x * n ≤ (2 ^ 53 * 2 ^ k : Nat)) :
    place (x * y) < place x * n + (2 ^ k : Nat) := by
  have scale : (0 : Int) < ones := by exact_mod_cast onesPositive
  have less := roundedLess (z := place x * n * ones) onesPositive low
    (Int.mul_nonneg least scale.le) (by
      rw [Int.natCast_mul]
      exact Int.mul_le_mul_of_nonneg_right most scale.le)
  rw [Int.natCast_mul (2 ^ k),← Int.add_mul] at less
  rw [(productPlace hx hy).2,whole.place,← Int.mul_assoc]
  exact Int.lt_of_mul_lt_mul_right less scale.le

theorem multipleMore {n : Int} (hx : x.isFinite = true) (whole : IsWhole y n)
    (hy : y.isFinite = true) (low : k ≤ 1073) (least : 0 ≤ place x * n)
    (most : place x * n ≤ (2 ^ 53 * 2 ^ k : Nat)) :
    place x * n < place (x * y) + (2 ^ k : Nat) := by
  have scale : (0 : Int) < ones := by exact_mod_cast onesPositive
  have more := roundedMore (z := place x * n * ones) onesPositive low
    (Int.mul_nonneg least scale.le) (by
      rw [Int.natCast_mul]
      exact Int.mul_le_mul_of_nonneg_right most scale.le)
  rw [Int.natCast_mul (2 ^ k),← Int.add_mul] at more
  rw [(productPlace hx hy).2,whole.place,← Int.mul_assoc]
  exact Int.lt_of_mul_lt_mul_right more scale.le

end

/-- Less than half a step above a full mantissa, or half a step above an even one. -/
theorem nearestPointDown {q k r : Nat} (full : 2 ^ 52 ≤ q) (small : q < 2 ^ 53)
    (part : 2 * r < 2 ^ k ∨ 2 * r = 2 ^ k ∧ q % 2 = 0) :
    nearestPoint (q * 2 ^ k + r) 1 = q * 2 ^ k := by
  have scale : 0 < 2 ^ k := by positivity
  have less : r < 2 ^ k := by omega
  have low : 2 ^ 52 * 2 ^ k ≤ q * 2 ^ k := Nat.mul_le_mul_right _ full
  have high : (q + 1) * 2 ^ k ≤ 2 ^ 53 * 2 ^ k := Nat.mul_le_mul_right _ small
  have next : (q + 1) * 2 ^ k = q * 2 ^ k + 2 ^ k := by ring
  have bits : (q * 2 ^ k + r).log2 = 52 + k := by
    refine (Nat.log2_eq_iff (by omega)).mpr ⟨?_,?_⟩
    · rw [Nat.pow_add]
      omega
    · rw [show 52 + k + 1 = 53 + k by omega,Nat.pow_add]
      omega
  have whole : (q * 2 ^ k + r) / 2 ^ k = q := by
    rw [Nat.mul_comm,Nat.mul_add_div scale,Nat.div_eq_of_lt less,Nat.add_zero]
  have rest : (q * 2 ^ k + r) % 2 ^ k = r := by
    rw [Nat.mul_comm,Nat.mul_add_mod,Nat.mod_eq_of_lt less]
  unfold nearestPoint nearestEven
  simp only [Nat.div_one,Nat.one_mul,bits,Nat.add_sub_cancel_left,whole,rest]
  rw [if_neg (by omega)]

theorem roundedDown {q k r : Nat} (full : 2 ^ 52 ≤ q) (small : q < 2 ^ 53)
    (part : 2 * r < 2 ^ k ∨ 2 * r = 2 ^ k ∧ q % 2 = 0) :
    rounded (q * 2 ^ k + r : Nat) 1 ≤ (q * 2 ^ k : Nat) := by
  have at' := roundedSign (z := (q * 2 ^ k + r : Nat)) .positive (q * 2 ^ k + r) 1 rfl
  rw [nearestPointDown full small part] at at'
  rw [← at']
  exact Int.ofNat_le.mpr (Nat.min_le_left _ _)

/-- A step `2 ^ j` back and forth never leads beyond where it began. Where the steps of the doubles
are twice as long, one of the two halves is rounded away, and both ways to the same side. -/
theorem backAndForth {m k j : Nat} (small : m < 2 ^ 53) (full : 2 ^ 52 ≤ m ∨ k ≤ j)
    (enough : 2 ^ j ≤ m * 2 ^ k) (low : j ≤ 1073)
    (exact : rounded (m * 2 ^ k : Nat) 1 = (m * 2 ^ k : Nat)) :
    rounded (rounded ((m * 2 ^ k : Nat) - (2 ^ j : Nat)) 1 + (2 ^ j : Nat)) 1 ≤
      (m * 2 ^ k : Nat) := by
  have some : 0 < 2 ^ j := by positivity
  -- Once the first result is not rounded up, the second is at most where it began.
  have back (r : Int) (le : r ≤ (m * 2 ^ k : Nat) - (2 ^ j : Nat)) :
      rounded (r + (2 ^ j : Nat)) 1 ≤ (m * 2 ^ k : Nat) := by
    rw [← exact]
    exact roundedMono Nat.one_pos Nat.one_pos (by omega)
  have forth (part : rounded (m * 2 ^ k + 2 ^ j : Nat) 1 ≤ (m * 2 ^ k : Nat)) :
      rounded (rounded ((m * 2 ^ k : Nat) - (2 ^ j : Nat)) 1 + (2 ^ j : Nat)) 1 ≤
        (m * 2 ^ k : Nat) := by
    have first : rounded ((m * 2 ^ k : Nat) - (2 ^ j : Nat)) 1 ≤ (m * 2 ^ k : Nat) := by
      conv_rhs => rw [← exact]
      exact roundedMono Nat.one_pos Nat.one_pos (by omega)
    refine le_trans (roundedMono Nat.one_pos Nat.one_pos ?_) part
    push_cast at first ⊢
    omega
  rcases Nat.lt_or_ge j k with coarse | fine
  · have full : 2 ^ 52 ≤ m := full.resolve_right (by omega)
    have double : 2 * 2 ^ j ≤ 2 ^ k := by
      rw [← Nat.pow_succ']
      exact Nat.pow_le_pow_right (by omega) coarse
    rcases Nat.lt_or_eq_of_le double with less | half
    · exact forth (roundedDown full small (.inl less))
    rcases Nat.mod_two_eq_zero_or_one m with even | odd
    · exact forth (roundedDown full small (.inr ⟨half,even⟩))
    · obtain ⟨n,rfl⟩ : ∃ n, m = n + 1 := ⟨m - 1,by omega⟩
      have split : (n + 1) * 2 ^ k = n * 2 ^ k + 2 ^ j + 2 ^ j := by
        rw [← half]
        ring
      have down := roundedDown (q := n) (k := k) (by omega) (by omega) (.inr ⟨half,by omega⟩)
      refine back _ ?_
      rw [split,show ((n * 2 ^ k + 2 ^ j + 2 ^ j : Nat) : Int) - (2 ^ j : Nat) =
        (n * 2 ^ k + 2 ^ j : Nat) by push_cast; ring]
      exact down.trans (by exact_mod_cast Nat.le_add_right _ _)
  · obtain ⟨steps,scale⟩ : ∃ steps, 2 ^ j = steps * 2 ^ k :=
      ⟨2 ^ (j - k),by rw [← Nat.pow_add,Nat.sub_add_cancel fine]⟩
    have units : ((m * 2 ^ k : Nat) : Int) - (2 ^ j : Nat) =
        ((m : Int) - steps) * (2 ^ k : Nat) := by
      rw [scale]
      push_cast
      ring
    have few : steps ≤ m := Nat.le_of_mul_le_mul_right (scale ▸ enough) (by positivity)
    have same := roundedUnits (n := (m : Int) - steps) (k := k) (d := 1) (by omega) (by omega)
      Nat.one_pos
    rw [Nat.cast_one,Int.mul_one,← units] at same
    exact back _ same.le

end Montage
