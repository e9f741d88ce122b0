import Mathlib
import Montage.Number.Exact

/-! Doubles on a line of whole numbers. Every finite double is a whole number of units of
`2 ^ -1074`; the infinities are put where the first value too large for a double would stand.
Comparisons of doubles that are not NaN are those of their places on the line. -/
namespace Montage
open Float.Model Float.Model.UnpackedFloat

/-- The place of the first value beyond the doubles, `2 ^ 1024`. -/
@[irreducible]
def beyond : Nat := 2 ^ 53 * 2 ^ 2045

-- The exponent stays a variable, so that nothing multiplies the power out.
theorem beyondEq : ∃ k, k = 2045 ∧ beyond = 2 ^ 53 * 2 ^ k := ⟨2045,rfl,by unfold beyond; rfl⟩

def placeOf : UnpackedFloat → Int
  | .notANumber => 0
  | .infinity s => s.apply beyond
  | .zero _ => 0
  | .finite s m e _ => s.apply (m * 2 ^ (e + 1074).toNat : Nat)

def place (x : Float) : Int := placeOf x.toModel.unpack

/-- The form in which doubles are unpacked: the exponent is least, or the mantissa is full. -/
def Canonical : UnpackedFloat → Prop
  | .finite _ m e _ => m < 2 ^ 53 ∧ -1074 ≤ e ∧ e ≤ 971 ∧ (2 ^ 52 ≤ m ∨ e = -1074)
  | _ => True

theorem fullMantissa (v : BitVec 52) : (1#1 ++ v).toNat = 2 ^ 52 + v.toNat := by
  rw [BitVec.toNat_append, ← Nat.shiftLeft_add_eq_or_of_lt v.isLt]
  rfl

theorem unpackCanonical (b : BitVec Format.binary64.numBits) :
    Canonical (unpack Format.binary64 b) := by
  have mantissa : (@unpackMantissa Format.binary64 b).toNat < 2 ^ 52 := BitVec.isLt _
  have exponent : (@unpackExponent Format.binary64 b).toNat < 2 ^ 11 := BitVec.isLt _
  have bias : (Format.binary64.exponentBias : Int) = 1023 := by decide
  have width : (Format.binary64.mantissaBitsWithoutImplicit : Int) = 52 := by decide
  unfold UnpackedFloat.unpack
  dsimp only
  split
  · split <;> trivial
  · rename_i notTop
    have below : (@unpackExponent Format.binary64 b).toNat ≠ 2047 := by
      intro top
      exact notTop (BitVec.eq_of_toNat_eq top)
    split
    · rename_i bottom
      have least : (@unpackExponent Format.binary64 b).toNat = 0 := by simp [bottom]
      split
      · trivial
      · exact ⟨by omega, by omega, by omega, Or.inr (by omega)⟩
    · rename_i notBottom
      have above : (@unpackExponent Format.binary64 b).toNat ≠ 0 := by
        intro least
        exact notBottom (BitVec.eq_of_toNat_eq least)
      have full := fullMantissa (@unpackMantissa Format.binary64 b)
      exact ⟨by omega, by omega, by omega, Or.inl (by omega)⟩

theorem canonical (x : Float) : Canonical x.toModel.unpack := unpackCanonical _

theorem magnitudeBelow {m : Nat} {e : Int} (small : m < 2 ^ 53) (most : e ≤ 971) :
    m * 2 ^ (e + 1074).toNat < beyond := by
  obtain ⟨k,last,eq⟩ := beyondEq
  calc m * 2 ^ (e + 1074).toNat < 2 ^ 53 * 2 ^ (e + 1074).toNat :=
        Nat.mul_lt_mul_of_pos_right small (by positivity)
    _ ≤ 2 ^ 53 * 2 ^ k := Nat.mul_le_mul_left _ (Nat.pow_le_pow_right (by omega) (by omega))
    _ = beyond := eq.symm

/-- A greater exponent outweighs every mantissa, since it comes with a full one. -/
theorem magnitudeLt {m n : Nat} {e f : Int} (small : m < 2 ^ 53) (full : 2 ^ 52 ≤ n)
    (least : -1074 ≤ e) (less : e < f) :
    m * 2 ^ (e + 1074).toNat < n * 2 ^ (f + 1074).toNat := by
  have step : (e + 1074).toNat + 1 ≤ (f + 1074).toNat := by omega
  calc m * 2 ^ (e + 1074).toNat < 2 ^ 53 * 2 ^ (e + 1074).toNat :=
        Nat.mul_lt_mul_of_pos_right small (by positivity)
    _ = 2 ^ 52 * 2 ^ ((e + 1074).toNat + 1) := by ring
    _ ≤ 2 ^ 52 * 2 ^ (f + 1074).toNat :=
        Nat.mul_le_mul_left _ (Nat.pow_le_pow_right (by omega) step)
    _ ≤ n * 2 ^ (f + 1074).toNat := Nat.mul_le_mul_right _ full

theorem magnitudeCompare {m n : Nat} {e f : Int}
    (left : m < 2 ^ 53 ∧ -1074 ≤ e ∧ e ≤ 971 ∧ (2 ^ 52 ≤ m ∨ e = -1074))
    (right : n < 2 ^ 53 ∧ -1074 ≤ f ∧ f ≤ 971 ∧ (2 ^ 52 ≤ n ∨ f = -1074)) :
    (compare e f).then (compare m n) =
      compare (m * 2 ^ (e + 1074).toNat) (n * 2 ^ (f + 1074).toNat) := by
  obtain ⟨hm, he, _, fullLeft⟩ := left
  obtain ⟨hn, hf, _, fullRight⟩ := right
  rcases lt_trichotomy e f with less | same | greater
  · rw [compare_lt_iff_lt.mpr less, compare_lt_iff_lt.mpr
      (magnitudeLt hm (by omega) he less)]
    rfl
  · subst same
    rw [compare_eq_iff_eq.mpr rfl]
    change compare m n = _
    have scale : 0 < 2 ^ (e + 1074).toNat := by positivity
    rcases lt_trichotomy m n with less | same | greater
    · rw [compare_lt_iff_lt.mpr less,
        compare_lt_iff_lt.mpr (Nat.mul_lt_mul_of_pos_right less scale)]
    · rw [same, compare_eq_iff_eq.mpr rfl, compare_eq_iff_eq.mpr rfl]
    · rw [compare_gt_iff_gt.mpr greater,
        compare_gt_iff_gt.mpr (Nat.mul_lt_mul_of_pos_right greater scale)]
  · rw [compare_gt_iff_gt.mpr greater, compare_gt_iff_gt.mpr
      (magnitudeLt hn (by omega) hf greater)]
    rfl

theorem beyondPositive : (0 : Int) < beyond := by
  obtain ⟨k,_,eq⟩ := beyondEq
  rw [eq]
  positivity

theorem placeBelow {u : UnpackedFloat} (shape : Canonical u) (finite : u.isFinite = true) :
    -(beyond : Int) < placeOf u ∧ placeOf u < beyond := by
  have wide := beyondPositive
  cases u with
  | notANumber => cases finite
  | infinity s => cases finite
  | zero s => simpa [placeOf] using wide
  | finite s m e positive =>
    have h : ((m * 2 ^ (e + 1074).toNat : Nat) : Int) < beyond := by
      exact_mod_cast magnitudeBelow shape.1 shape.2.2.1
    cases s <;> simp only [placeOf,Sign.apply] <;> omega

theorem placePositive (m : Nat) (e : Int) (positive : 0 < m) :
    (0 : Int) < (m * 2 ^ (e + 1074).toNat : Nat) := by
  exact_mod_cast Nat.mul_pos positive (by positivity)

theorem lessPlace {a b : Int} (h : a < b) : some Ordering.lt = some (compare a b) := by
  rw [compare_lt_iff_lt.mpr h]

theorem greaterPlace {a b : Int} (h : b < a) : some Ordering.gt = some (compare a b) := by
  rw [compare_gt_iff_gt.mpr h]

theorem samePlace {a b : Int} (h : a = b) : some Ordering.eq = some (compare a b) := by
  rw [compare_eq_iff_eq.mpr h]

theorem compareCast (a b : Nat) : compare (a : Int) (b : Int) = compare a b := by
  rcases lt_trichotomy a b with less | same | greater
  · rw [compare_lt_iff_lt.mpr less,compare_lt_iff_lt.mpr (by exact_mod_cast less)]
  · rw [compare_eq_iff_eq.mpr same,compare_eq_iff_eq.mpr (by exact_mod_cast same)]
  · rw [compare_gt_iff_gt.mpr greater,compare_gt_iff_gt.mpr (by exact_mod_cast greater)]

theorem compareNegated (a b : Int) : compare (-a) (-b) = (compare a b).swap := by
  rcases lt_trichotomy a b with less | same | greater
  · rw [compare_lt_iff_lt.mpr less,compare_gt_iff_gt.mpr (by omega)]; rfl
  · rw [compare_eq_iff_eq.mpr same,compare_eq_iff_eq.mpr (by omega)]; rfl
  · rw [compare_gt_iff_gt.mpr greater,compare_lt_iff_lt.mpr (by omega)]; rfl

theorem comparePlaces {u v : UnpackedFloat} (left : Canonical u) (right : Canonical v)
    (leftNumber : u.isNaN = false) (rightNumber : v.isNaN = false) :
    u.compare v = some (compare (placeOf u) (placeOf v)) := by
  have wide := beyondPositive
  have insideLeft := placeBelow left
  have insideRight := placeBelow right
  cases u with
  | notANumber => cases leftNumber
  | infinity s =>
    cases v with
    | notANumber => cases rightNumber
    | infinity t =>
      cases s <;> cases t
      · exact samePlace rfl
      · exact lessPlace (by simp only [placeOf,Sign.apply]; omega)
      · exact greaterPlace (by simp only [placeOf,Sign.apply]; omega)
      · exact samePlace rfl
    | zero t =>
      cases s
      · exact lessPlace (by simp only [placeOf,Sign.apply]; omega)
      · exact greaterPlace (by simp only [placeOf,Sign.apply]; omega)
    | finite t n f h =>
      obtain ⟨lower,upper⟩ := insideRight rfl
      cases s
      · exact lessPlace lower
      · exact greaterPlace upper
  | zero s =>
    cases v with
    | notANumber => cases rightNumber
    | infinity t =>
      cases t
      · exact greaterPlace (by simp only [placeOf,Sign.apply]; omega)
      · exact lessPlace (by simp only [placeOf,Sign.apply]; omega)
    | zero t => exact samePlace rfl
    | finite t n f h =>
      have above := placePositive n f h
      cases t
      · exact greaterPlace (by simp only [placeOf,Sign.apply]; omega)
      · exact lessPlace (by simp only [placeOf,Sign.apply]; omega)
  | finite s m e h =>
    have above := placePositive m e h
    cases v with
    | notANumber => cases rightNumber
    | infinity t =>
      obtain ⟨lower,upper⟩ := insideLeft rfl
      cases t
      · exact greaterPlace (by cases s <;> exact lower)
      · exact lessPlace (by cases s <;> exact upper)
    | zero t =>
      cases s
      · exact lessPlace (by simp only [placeOf,Sign.apply]; omega)
      · exact greaterPlace (by simp only [placeOf,Sign.apply]; omega)
    | finite t n f h' =>
      have other := placePositive n f h'
      have magnitudes := magnitudeCompare left right
      cases s <;> cases t
      · simp only [UnpackedFloat.compare,placeOf,Sign.apply,magnitudes,compareNegated,compareCast]
      · exact lessPlace (by simp only [placeOf,Sign.apply]; omega)
      · exact greaterPlace (by simp only [placeOf,Sign.apply]; omega)
      · simp only [UnpackedFloat.compare,placeOf,Sign.apply,magnitudes,compareCast]

theorem incomparable {u v : UnpackedFloat} (h : u.isNaN = true ∨ v.isNaN = true) :
    u.compare v = none := by
  rcases h with h | h
  · cases u with
    | notANumber => rfl
    | _ => cases h
  · cases v with
    | notANumber => cases u <;> rfl
    | _ => cases h

theorem ltIff (x y : Float) :
    x < y ↔ x.isNaN = false ∧ y.isNaN = false ∧ place x < place y := by
  change decide (x.toModel.unpack.lt y.toModel.unpack = true) = true ↔
    x.toModel.unpack.isNaN = false ∧ y.toModel.unpack.isNaN = false ∧ _
  rw [decide_eq_true_eq,UnpackedFloat.lt]
  by_cases hx : x.toModel.unpack.isNaN = true
  · simp [incomparable (.inl hx),hx]
  by_cases hy : y.toModel.unpack.isNaN = true
  · simp [incomparable (.inr hy),hy]
  · simp only [Bool.not_eq_true] at hx hy
    rw [comparePlaces (canonical x) (canonical y) hx hy,beq_iff_eq,Option.some_inj,
      compare_lt_iff_lt]
    exact ⟨fun h => ⟨hx,hy,h⟩,fun h => h.2.2⟩

theorem leIff (x y : Float) :
    x ≤ y ↔ x.isNaN = false ∧ y.isNaN = false ∧ place x ≤ place y := by
  change decide (x.toModel.unpack.le y.toModel.unpack = true) = true ↔
    x.toModel.unpack.isNaN = false ∧ y.toModel.unpack.isNaN = false ∧ _
  rw [decide_eq_true_eq,UnpackedFloat.le]
  by_cases hx : x.toModel.unpack.isNaN = true
  · simp [incomparable (.inl hx),hx]
  by_cases hy : y.toModel.unpack.isNaN = true
  · simp [incomparable (.inr hy),hy]
  · simp only [Bool.not_eq_true] at hx hy
    rw [comparePlaces (canonical x) (canonical y) hx hy,Option.any_some,Ordering.isLE_iff_ne_gt]
    exact ⟨fun h => ⟨hx,hy,not_lt.mp fun less => h (compare_gt_iff_gt.mpr less)⟩,
      fun h greater => not_lt.mpr h.2.2 (compare_gt_iff_gt.mp greater)⟩

theorem notLtIff {x y : Float} (hx : x.isNaN = false) (hy : y.isNaN = false) :
    ¬ x < y ↔ y ≤ x := by
  rw [ltIff,leIff]
  exact ⟨fun fails => ⟨hy,hx,not_lt.mp fun less => fails ⟨hx,hy,less⟩⟩,
    fun le less => not_lt.mpr le.2.2 less.2.2⟩

theorem notLeIff {x y : Float} (hx : x.isNaN = false) (hy : y.isNaN = false) :
    ¬ x ≤ y ↔ y < x := by
  rw [ltIff,leIff]
  exact ⟨fun fails => ⟨hy,hx,not_le.mp fun le => fails ⟨hx,hy,le⟩⟩,
    fun less le => not_le.mpr less.2.2 le.2.2⟩

theorem finiteIff (x : Float) : x.isFinite = true ↔ x.isNaN = false ∧
    -(beyond : Int) < place x ∧ place x < beyond := by
  have inside := placeBelow (canonical x)
  change x.toModel.unpack.isFinite = true ↔ x.toModel.unpack.isNaN = false ∧
    -(beyond : Int) < placeOf x.toModel.unpack ∧ placeOf x.toModel.unpack < beyond
  cases h : x.toModel.unpack with
  | notANumber => simp [UnpackedFloat.isFinite,UnpackedFloat.isNaN]
  | infinity s => cases s <;> simp [UnpackedFloat.isFinite,placeOf,Sign.apply]
  | zero s =>
    rw [h] at inside
    exact ⟨fun _ => ⟨rfl,inside rfl⟩,fun _ => rfl⟩
  | finite s m e p =>
    rw [h] at inside
    exact ⟨fun _ => ⟨rfl,inside rfl⟩,fun _ => rfl⟩

end Montage
