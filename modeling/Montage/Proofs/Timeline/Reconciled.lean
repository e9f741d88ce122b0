import Montage.Proofs.Double.Value
import Montage.Proofs.Timeline.Tenths

/-! How long a timeline is. Its length does not fall where a clip is added or ends later, is within
half a tenth of the last end and rounds to itself: up to `2 ^ 40` seconds the doubles are so dense
that a tenth of a whole number is never taken for another tenth. -/
namespace Montage

section
variable {x d d' : Float} {xs ys : List Float}

theorem lengthSource (ok : lengthOf (x :: xs) = .ok d) :
    (greatest x xs * 10 + 0.5).isFinite = true ∧
      d = firstMax 5 (tenth (tenths (greatest x xs))) := by
  obtain ⟨last,rounded,same⟩ := bindOk ok
  obtain ⟨finite,rfl⟩ := roundTenthSource rounded
  exact ⟨finite,(Except.ok.inj same).symm⟩

/-- Nothing ends after the fifth second. -/
theorem lengthShort (short : greatest x xs ≤ 5) (ok : lengthOf (x :: xs) = .ok d) : d = 5 := by
  obtain ⟨finite,rfl⟩ := lengthSource ok
  have few : tenths (greatest x xs) ≤ 50 :=
    tenthsFive ▸ tenthsRises short finite (by decide +kernel)
  have low : tenth (tenths (greatest x xs)) ≤ 5 := by
    rcases lt_or_ge (tenths (greatest x xs)) 0 with negative | positive
    · exact leTrans (tenthNegative negative) (by decide)
    · exact tenthFifty ▸ tenthRises positive few (by omega)
  exact if_neg ((notLtIff rfl (numberOfLe low).1).mpr low)

theorem tenthsLong (long : 5 ≤ x) (finite : (x * 10 + 0.5).isFinite = true) : 50 ≤ tenths x :=
  tenthsFive ▸ tenthsRises long (by decide +kernel) finite

theorem tenthsGrow {y : Float} (least : 0 ≤ x) (le : x ≤ y) (hx : (x * 10 + 0.5).isFinite = true)
    (hy : (y * 10 + 0.5).isFinite = true) :
    tenth (tenths x) ≤ tenth (tenths y) ∧ (tenth (tenths y)).isFinite = true := by
  have positive {z : Float} (least : 0 ≤ z) (finite : (z * 10 + 0.5).isFinite = true) :
      0 ≤ z * 10 + 0.5 := by
    have first := finiteOfShifted finite
    have scaled := productRises (c := 10) least rfl (finiteOfTenfold first) rfl (by decide)
    exact leTrans (y := 0 * 10 + 0.5) (by decide +kernel) (sumRises scaled rfl first rfl)
  have above := positive (leTrans least le) hy
  obtain ⟨low,high⟩ := wholeBelowLe above hy
  have scale := onesPositive
  have count : 0 ≤ tenths x :=
    Int.ediv_nonneg (placeLeast (positive least hx)) (Int.natCast_nonneg _)
  exact ⟨tenthGrows count (tenthsRises le hx hy) (finiteBetween low high rfl hy),
    tenthFinite above hy⟩

theorem lengthLong (long : 5 ≤ greatest x xs) (ok : lengthOf (x :: xs) = .ok d) :
    d = tenth (tenths (greatest x xs)) ∧ d.isFinite = true := by
  obtain ⟨finite,rfl⟩ := lengthSource ok
  obtain ⟨grows,last⟩ := tenthsGrow (by decide) long (by decide +kernel) finite
  rw [tenthsFive,tenthFifty] at grows
  have same : firstMax 5 (tenth (tenths (greatest x xs))) = tenth (tenths (greatest x xs)) := by
    unfold firstMax
    split
    · rfl
    · rename_i notLess
      have le := (notLtIff rfl (finiteNumber last)).mp notLess
      refine samePlaces rfl (finiteNumber last)
        (le_antisymm ((leIff _ _).mp grows).2.2 ((leIff _ _).mp le).2.2) ?_
      rw [fiveWhole.place]
      have := onesPositive
      omega
  rw [same]
  exact ⟨rfl,last⟩

theorem greatestNumber (ok : lengthOf (x :: xs) = .ok d) : (greatest x xs).isNaN = false :=
  finiteNumber (finiteOfTenfold (finiteOfShifted (lengthSource ok).1))

theorem lengthCases (ok : lengthOf (x :: xs) = .ok d) :
    d = 5 ∧ greatest x xs ≤ 5 ∨ d = tenth (tenths (greatest x xs)) ∧ 5 ≤ greatest x xs := by
  by_cases short : greatest x xs ≤ 5
  · exact .inl ⟨lengthShort short ok,short⟩
  · have long := leOfLess ((notLeIff (greatestNumber ok) rfl).mp short)
    exact .inr ⟨(lengthLong long ok).1,long⟩

/-- A length is a number, however late the clips end. -/
theorem lengthFinite {ends : List Float} (ok : lengthOf ends = .ok d) : d.isFinite = true := by
  cases ends with
  | nil =>
    cases Except.ok.inj ok
    rfl
  | cons x xs =>
    rcases lengthCases ok with ⟨rfl,_⟩ | ⟨_,long⟩
    · rfl
    · exact (lengthLong long ok).2

/-- Nothing is taken away and nothing ends earlier. -/
theorem lengthRises (some : xs ≠ []) (later : ∀ t ∈ xs, ∃ u ∈ ys, t ≤ u)
    (numbers : ∀ u ∈ ys, u.isNaN = false) (ok : lengthOf xs = .ok d) (ok' : lengthOf ys = .ok d') :
    d ≤ d' := by
  obtain ⟨x,xs,rfl⟩ := List.exists_cons_of_ne_nil some
  obtain ⟨u,mem,le⟩ := later _ (greatestMem x xs)
  obtain ⟨y,ys,rfl⟩ := List.exists_cons_of_ne_nil (List.ne_nil_of_mem mem)
  obtain ⟨finite,same⟩ := lengthSource ok'
  rw [same]
  rcases lengthCases ok with ⟨rfl,_⟩ | ⟨rfl,long⟩
  · exact leFirstMax rfl _
  · have last := leTrans le (leGreatest numbers u mem)
    obtain ⟨grows,_⟩ := tenthsGrow (leTrans (by decide) long) last (lengthSource ok).1 finite
    exact leTrans grows (leFirstMaxRight rfl (numberOfLe grows).2)

theorem lengthAdded {u : Float} (some : xs ++ ys ≠ []) (numbers : ∀ t ∈ xs ++ ys, t.isNaN = false)
    (number : u.isNaN = false) (ok : lengthOf (xs ++ ys) = .ok d)
    (ok' : lengthOf (xs ++ u :: ys) = .ok d') : d ≤ d' := by
  refine lengthRises some (fun t mem => ⟨t,?_,leSelf (numbers t mem)⟩) (fun t mem => ?_) ok ok'
  · exact List.perm_middle.symm.subset (List.mem_cons_of_mem u mem)
  · rcases List.mem_cons.mp (List.perm_middle.subset mem) with rfl | mem
    · exact number
    · exact numbers t mem

theorem lengthRaised {t u : Float} (numbers : ∀ t' ∈ xs ++ t :: ys, t'.isNaN = false) (le : t ≤ u)
    (ok : lengthOf (xs ++ t :: ys) = .ok d) (ok' : lengthOf (xs ++ u :: ys) = .ok d') : d ≤ d' := by
  have kept {v : Float} (mem : v ∈ xs ++ ys) : v.isNaN = false :=
    numbers v (List.perm_middle.symm.subset (List.mem_cons_of_mem t mem))
  refine lengthRises (by simp) (fun v mem => ?_) (fun v mem => ?_) ok ok'
  · rcases List.mem_cons.mp (List.perm_middle.subset mem) with rfl | mem
    · exact ⟨u,by simp,le⟩
    · exact ⟨v,List.perm_middle.symm.subset (List.mem_cons_of_mem u mem),leSelf (kept mem)⟩
  · rcases List.mem_cons.mp (List.perm_middle.subset mem) with rfl | mem
    · exact (numberOfLe le).2
    · exact kept mem

end

/-- The step of the doubles before `2 ^ 41`; a second is 4096 of them. -/
theorem fineSteps : ∃ k, k = 1062 ∧ ones = 4096 * 2 ^ k ∧ place 0.5 = (2048 * 2 ^ k : Nat) := by
  obtain ⟨k,last,eq,half⟩ := halfSteps (i := 11) (by omega)
  exact ⟨k,by omega,eq,half⟩

/-- Two roundings lie between a time and the tenths that are counted. -/
theorem tenthsNear {x : Float} {k : Nat} (low : k ≤ 1070) (early : Early x)
    (most : place x * 10 + place 0.5 + (2 ^ k : Nat) ≤ (2 ^ 53 * 2 ^ k : Nat)) :
    tenths x * ones < place x * 10 + place 0.5 + 2 * (2 ^ k : Nat) ∧
      place x * 10 + place 0.5 < tenths x * ones + ones + 2 * (2 ^ k : Nat) := by
  have scale : (0 : Int) < ones := by exact_mod_cast onesPositive
  have half : 0 ≤ place 0.5 := placeLeast (by decide)
  have positive := placeLeast early.least
  have above := placeLeast early.scaled
  have step : (0 : Int) < (2 ^ k : Nat) := by positivity
  have scaled := finiteOfShifted early.tenfold
  -- A step at most for the product with ten and one for the sum; the floor is taken of a place.
  have tensLess := multipleLess (k := k) early.finite tenWhole rfl (by omega) (by omega) (by omega)
  have tensMore := multipleMore (k := k) early.finite tenWhole rfl (by omega) (by omega) (by omega)
  have sumLess := sumLess (y := 0.5) (k := k) scaled rfl (by omega) (by omega) (by omega)
  have sumMore := sumMore (y := 0.5) (k := k) scaled rfl (by omega) (by omega) (by omega)
  have below := Int.ediv_mul_le (place (x * 10 + 0.5)) scale.ne'
  have beyond := Int.lt_ediv_add_one_mul_self (place (x * 10 + 0.5)) scale
  rw [Int.add_mul,Int.one_mul] at beyond
  unfold tenths
  constructor <;> omega

section
variable {x : Float} {n : Int} {k : Nat} (eq : ones = 4096 * 2 ^ k)
include eq

theorem tenthFine (low : k ≤ 1062) (positive : 0 ≤ n) (most : n ≤ 10995116277760) :
    place (tenth n) * 10 < n * ones + 10 * (2 ^ k : Nat) ∧
      n * ones < place (tenth n) * 10 + 10 * (2 ^ k : Nat) := by
  have scale : (0 : Int) ≤ ones := Int.natCast_nonneg _
  have step : (0 : Int) ≤ 2 ^ k := by positivity
  refine tenthNear (by omega) positive (by omega) ?_
  refine (Int.mul_le_mul_of_nonneg_right most scale).trans ?_
  rw [eq]
  push_cast
  omega

theorem tenthsFine (low : k ≤ 1062) (half : place 0.5 = (2048 * 2 ^ k : Nat)) (least : 0 ≤ x)
    (most : x ≤ 1099511627776) :
    tenths x * ones < place x * 10 + place 0.5 + 16 * (2 ^ k : Nat) ∧
      place x * 10 + place 0.5 < tenths x * ones + ones + 16 * (2 ^ k : Nat) := by
  have step : (0 : Int) ≤ 2 ^ k := by positivity
  have eight : 2 ^ (k + 3) = 8 * 2 ^ k := by ring
  have below := ((leIff _ _).mp most).2.2
  rw [nearWhole.place,eq] at below
  obtain ⟨few,many⟩ := tenthsNear (k := k + 3) (by omega) ⟨least,leTrans most (by decide)⟩ (by
    rw [half,eight]
    push_cast at below ⊢
    omega)
  rw [eight] at few many
  push_cast at few many ⊢
  constructor <;> omega

end

theorem tenthsTenth {n : Int} (least : 50 ≤ n) (most : n ≤ 10995116277760) :
    tenths (tenth n) = n := by
  obtain ⟨low,high⟩ := roomBounds least most
  obtain ⟨k,last,eq,half⟩ := fineSteps
  have scale : (0 : Int) < ones := by exact_mod_cast onesPositive
  -- 26 steps are lost or won at most; the half that is added before the floor is 2048 of them.
  obtain ⟨less,more⟩ := tenthFine eq last.le (by omega) most
  obtain ⟨few,many⟩ := tenthsFine eq last.le half low high
  have up : tenths (tenth n) < n + 1 := by
    refine Int.lt_of_mul_lt_mul_right (a := (ones : Int)) ?_ scale.le
    rw [Int.add_mul,Int.one_mul]
    omega
  have down : n < tenths (tenth n) + 1 := by
    refine Int.lt_of_mul_lt_mul_right (a := (ones : Int)) ?_ scale.le
    rw [Int.add_mul,Int.one_mul]
    omega
  omega

section
variable {x : Float}

theorem nearBetween (near : x.abs < 1099511627776) :
    -1099511627776 ≤ x ∧ x ≤ 1099511627776 := by
  obtain ⟨number,_,less⟩ := (ltIff _ _).mp near
  obtain ⟨same,size⟩ := absPlace x
  obtain ⟨other,below⟩ := negPlace 1099511627776
  rw [size] at less
  rw [same] at number
  exact ⟨(leIff _ _).mpr ⟨other,number,by omega⟩,(leIff _ _).mpr ⟨number,rfl,by omega⟩⟩

theorem nearNumber (near : x.abs < 1099511627776) : x.isNaN = false :=
  (numberOfLe (nearBetween near).2).1

theorem nearFinite (near : x.abs < 1099511627776) : (x * 10 + 0.5).isFinite = true := by
  obtain ⟨low,high⟩ := nearBetween near
  have finite := finiteBetween low high rfl rfl
  have low := productRises (c := 10) low rfl finite rfl (by decide)
  have high := productRises (c := 10) high finite rfl rfl (by decide)
  have scaled := finiteBetween low high (by decide +kernel) (by decide +kernel)
  exact finiteBetween (sumRises (c := 0.5) low (by decide +kernel) scaled rfl)
    (sumRises (c := 0.5) high scaled (by decide +kernel) rfl) (by decide +kernel) (by decide +kernel)

theorem nearTenths (near : x.abs < 1099511627776) : tenths x ≤ 10995116277760 := by
  have last : ((1099511627776 : Float) * 10 + 0.5).isFinite = true := by decide +kernel
  refine (tenthsRises (nearBetween near).2 (nearFinite near) last).trans_eq ?_
  exact tenthsWhole nearWhole (by omega) (by omega) last

end

/-- Half a tenth is lost or won at most, and what three roundings make. -/
theorem tenthClose {x : Float} (long : 5 ≤ x) (near : x.abs < 1099511627776) :
    |ratio (tenth (tenths x)) - ratio x| ≤ 0.051 := by
  obtain ⟨_,high⟩ := nearBetween near
  have least : 0 ≤ x := leTrans (by decide) long
  have many := tenthsLong long (nearFinite near)
  have few := nearTenths near
  obtain ⟨low',high'⟩ := roomBounds many few
  obtain ⟨k,last,eq,half⟩ := fineSteps
  have up := tenthFine eq last.le (by omega) few
  have down := tenthsFine eq last.le half least high
  have close : |place (tenth (tenths x)) - place x| * 1000 ≤ 51 * ones := by
    rcases abs_cases (place (tenth (tenths x)) - place x) with ⟨size,_⟩ | ⟨size,_⟩ <;> omega
  have scale : (0 : ℚ) < ones := by exact_mod_cast onesPositive
  rw [ratioPlace (finiteBetween low' high' rfl rfl),ratioPlace (finiteBetween least high rfl rfl),
    ← sub_div,abs_div,abs_of_pos scale,div_le_iff₀ scale]
  have close' : |(place (tenth (tenths x)) : ℚ) - place x| * 1000 ≤ 51 * ones := by
    exact_mod_cast close
  linarith

section
variable {x d : Float} {xs : List Float} (near : (greatest x xs).abs < 1099511627776)
include near

theorem lengthClose (ok : lengthOf (x :: xs) = .ok d) :
    |ratio d - max 5 (ratio (greatest x xs))| ≤ 0.051 := by
  have finite := finiteBetween (nearBetween near).1 (nearBetween near).2 rfl rfl
  have five : ratio 5 = 5 := by
    have scale : (ones : ℚ) ≠ 0 := by exact_mod_cast onesPositive.ne'
    rw [ratioPlace rfl,fiveWhole.place]
    push_cast
    exact mul_div_cancel_right₀ _ scale
  rcases lengthCases ok with ⟨rfl,short⟩ | ⟨rfl,long⟩
  · have le := (ratioRises finite rfl).mpr short
    rw [five] at le
    rw [five,max_eq_left le,sub_self,abs_zero]
    norm_num
  · have le := (ratioRises rfl finite).mpr long
    rw [five] at le
    rw [max_eq_right le]
    exact tenthClose long near

theorem lengthFixed (ok : lengthOf (x :: xs) = .ok d) : roundTenth d = .ok d := by
  rcases lengthCases ok with ⟨rfl,_⟩ | ⟨rfl,long⟩
  · rw [roundTenthEq (by decide +kernel),tenthsFive,tenthFifty]
  · have many := tenthsLong long (nearFinite near)
    obtain ⟨low,high⟩ := roomBounds many (nearTenths near)
    rw [roundTenthEq (tenthsFinite low high (by decide +kernel)),tenthsTenth many (nearTenths near)]

end

theorem lengthTotal {ends : List Float} (some : ends ≠ [])
    (near : ∀ t ∈ ends, t.abs < 1099511627776) : ∃ d, lengthOf ends = .ok d := by
  obtain ⟨x,xs,rfl⟩ := List.exists_cons_of_ne_nil some
  exact ⟨_,bindTotal (roundTenthEq (nearFinite (near _ (greatestMem x xs)))) rfl⟩

/-- Measured, if `stop` is near, and as no less than `d`. -/
structure Prolonged (d stop : Float) (cs : List Clip) : Prop where
  measured : stop.abs < 1099511627776 → ∃ d', lengthOf (cs.map Clip.stop) = .ok d'
  least : ∀ d', lengthOf (cs.map Clip.stop) = .ok d' → d ≤ d'

/-- What is found for clips that end before `2 ^ 40`; another one may end at any time. -/
structure Reconciled (cs : List Clip) (d : Float) : Prop where
  measured : lengthOf (cs.map Clip.stop) = .ok d
  least : 5 ≤ d
  close : ∃ last ∈ cs, (∀ c ∈ cs, c.stop ≤ last.stop) ∧ |ratio d - max 5 (ratio last.stop)| ≤ 0.051
  ordered : ∀ cs' : List Clip, cs'.Perm cs → lengthOf (cs'.map Clip.stop) = .ok d
  added : ∀ xs c ys, cs = xs ++ ys → c.stop.isNaN = false → Prolonged d c.stop (xs ++ c :: ys)
  raised : ∀ xs c ys stop, cs = xs ++ c :: ys → c.stop ≤ stop →
    Prolonged d stop (xs ++ { c with stop } :: ys)
  fixed : roundTenth d = .ok d

section
variable {d : Float} {xs ys : List Clip} {c : Clip}

theorem addedProlonged (some : xs ++ ys ≠ []) (near : ∀ b ∈ xs ++ ys, b.stop.abs < 1099511627776)
    (number : c.stop.isNaN = false) (ok : lengthOf ((xs ++ ys).map Clip.stop) = .ok d) :
    Prolonged d c.stop (xs ++ c :: ys) where
  measured here := by
    refine lengthTotal (by simp) (List.forall_mem_map.mpr fun b mem => ?_)
    rcases List.mem_cons.mp (List.perm_middle.subset mem) with rfl | mem
    · exact here
    · exact near b mem
  least d' ok' := by
    have numbers : ∀ t ∈ (xs ++ ys).map Clip.stop, t.isNaN = false :=
      List.forall_mem_map.mpr fun b mem => nearNumber (near b mem)
    have given : (xs ++ ys).map Clip.stop ≠ [] := mt List.map_eq_nil_iff.mp some
    rw [List.map_append] at *
    exact lengthAdded given numbers number ok ok'

theorem raisedProlonged {stop : Float} (near : ∀ b ∈ xs ++ c :: ys, b.stop.abs < 1099511627776)
    (le : c.stop ≤ stop) (ok : lengthOf ((xs ++ c :: ys).map Clip.stop) = .ok d) :
    Prolonged d stop (xs ++ { c with stop } :: ys) where
  measured here := by
    refine lengthTotal (by simp) (List.forall_mem_map.mpr fun b mem => ?_)
    rcases List.mem_cons.mp (List.perm_middle.subset mem) with rfl | mem
    · exact here
    · exact near b (List.perm_middle.symm.subset (List.mem_cons_of_mem c mem))
  least d' ok' := by
    have numbers : ∀ t ∈ (xs ++ c :: ys).map Clip.stop, t.isNaN = false :=
      List.forall_mem_map.mpr fun b mem => nearNumber (near b mem)
    rw [List.map_append,List.map_cons] at *
    exact lengthRaised numbers le ok ok'

end

theorem reconciled {cs : List Clip} (some : cs ≠ [])
    (near : ∀ c ∈ cs, c.stop.abs < 1099511627776) : ∃ d, Reconciled cs d := by
  have numbers : ∀ t ∈ cs.map Clip.stop, t.isNaN = false :=
    List.forall_mem_map.mpr fun c mem => nearNumber (near c mem)
  have given : cs.map Clip.stop ≠ [] := mt List.map_eq_nil_iff.mp some
  obtain ⟨d,measured⟩ := lengthTotal given (List.forall_mem_map.mpr near)
  obtain ⟨x,xs,ends⟩ := List.exists_cons_of_ne_nil given
  have above := leGreatest (ends ▸ numbers)
  have there := greatestMem x xs
  have ok := measured
  rw [ends] at ok
  rw [← ends] at above there
  obtain ⟨last,mem,same⟩ := List.mem_map.mp there
  have nearLast : (greatest x xs).abs < 1099511627776 := by
    rw [← same]
    exact near last mem
  have close := lengthClose nearLast ok
  rw [← same] at close above
  refine ⟨d,measured,?_,⟨last,mem,fun c mem => above _ (List.mem_map_of_mem mem),close⟩,
    fun cs' perm => ?_,?_,?_,lengthFixed nearLast ok⟩
  · rw [(lengthSource ok).2]
    exact leFirstMax rfl _
  · rw [lengthOfPerm numbers (perm.map _),measured]
  · rintro as c bs rfl number
    exact addedProlonged some near number measured
  · rintro as c bs stop rfl le
    exact raisedProlonged near le measured

def closing : List Clip :=
  [⟨"a","video","video",0,12.26,some "a.mp4",none,none⟩,
    ⟨"b","audio","audio",-7,-4.5,some "b.wav",none,none⟩]

theorem closingReconciled : closing ≠ [] ∧ (∀ c ∈ closing, c.stop.abs < 1099511627776) ∧
    Reconciled closing 12.3 := by
  have some : closing ≠ [] := by decide
  have near : ∀ c ∈ closing, c.stop.abs < 1099511627776 := by decide
  obtain ⟨d,found⟩ := reconciled some near
  have length : lengthOf (closing.map Clip.stop) = .ok 12.3 := by decide +kernel
  cases Except.ok.inj (found.measured.symm.trans length)
  exact ⟨some,near,found⟩

end Montage
