import Montage.Proofs.Gesture.Room
import Montage.Proofs.Gesture.Held
import Montage.Proofs.Gesture.Nearest

/-! Drags that go nowhere. On a grid of times a clip that is pressed and released at the same place
aims at its own start, and room is left for it there just when it ends within the length. A clip
whose end was rounded down, and only that, is moved back to fit. -/
namespace Montage

/-- A multiple of a 1024th of a second, before `2 ^ 30`. -/
def OnGrid (x : Float) : Prop := ∃ n : Nat, n < 2 ^ 40 ∧ (x == Float.ofNat n / 1024) = true

theorem gridEq : ∃ k, k = 1064 ∧ ones = 1024 * 2 ^ k ∧ place 0.5 = (512 * 2 ^ k : Nat) := by
  obtain ⟨k,last,eq,half⟩ := halfSteps (i := 9) (by omega)
  exact ⟨k,by omega,eq,half⟩

theorem gridUnits {n k : Nat} (last : k = 1064) (small : n < 2 ^ 40) :
    Units k (Float.ofNat n / 1024) n := by
  obtain ⟨j,_,eq,_⟩ := gridEq
  obtain rfl : j = k := by omega
  have whole := ofNatWhole (n := n) (by omega)
  have divisor : IsWhole 1024 1024 := ofNatWhole (n := 1024) (by omega)
  have wide := onesPositive
  obtain ⟨number,at'⟩ := quotientPlace (whole.finite (by omega)) (divisor.finite (by omega))
    (by rw [divisor.place]; omega)
  have exact := roundedUnits (n := n) (k := j) (d := 1024 * ones) (by omega) (by omega) (by omega)
  have same : (n : Int) * ones * ones = n * (2 ^ j : Nat) * (1024 * ones : Nat) := by
    conv_lhs => rw [eq]
    rw [eq]
    push_cast
    ring
  refine ⟨number,?_⟩
  rw [at',whole.place,divisor.place,show ((1024 : Int) * ones).toNat = 1024 * ones by omega,same,
    exact]

theorem OnGrid.units {x : Float} {k : Nat} (grid : OnGrid x) (last : k = 1064) :
    ∃ n : Int, Units k x n ∧ 0 ≤ n ∧ n < 2 ^ 40 := by
  obtain ⟨n,small,same⟩ := grid
  have units := gridUnits last small
  obtain ⟨less,more⟩ := beqPlaces same
  have at' := le_antisymm ((leIff _ _).mp less).2.2 ((leIff _ _).mp more).2.2
  exact ⟨n,⟨(numberOfLe less).1,at'.trans units.place⟩,by omega,by omega⟩

/-- The doubles up to `2 ^ 40` are whole in steps that divide those of the grid. -/
theorem stepsNear {x : Float} {k : Nat} (last : k = 1064) (least : 0 ≤ x)
    (most : x ≤ 1099511627776) :
    ∃ m j steps : Nat, place x = (m : Int) * (2 ^ j : Nat) ∧ 2 ^ k = steps * 2 ^ j ∧ m < 2 ^ 53 ∧
      j ≤ 1064 := by
  obtain ⟨i,_,eq,_⟩ := gridEq
  obtain rfl : i = k := by omega
  obtain ⟨g,rfl⟩ : ∃ g, i = g + 2 := ⟨i - 2,by omega⟩
  have near : place x < (2 ^ 53 * 2 ^ g : Nat) := by
    refine ((leIff _ _).mp most).2.2.trans_lt ?_
    rw [nearWhole.place,eq,show 2 ^ 53 * 2 ^ g = 2 ^ 51 * 2 ^ (g + 2) by ring]
    have : (0 : Int) < 2 ^ (g + 2) := by positivity
    push_cast
    omega
  obtain ⟨m,j,at',few,fine⟩ := placeStepsBelow least (finiteBetween least most rfl rfl) near
  refine ⟨m,j,2 ^ (g + 2 - j),at'.trans (Int.natCast_mul _ _),?_,few,by omega⟩
  rw [← Nat.pow_add,Nat.sub_add_cancel (by omega)]

/-- What remains of the length beside a span that is no longer, and the two together. -/
theorem roomLeft {n q : Int} {k : Nat} {span : Float} (last : k = 1064) (least : 50 ≤ n)
    (most : n ≤ 10995116277760) (units : Units k span q) (positive : 0 ≤ q) (small : q < 2 ^ 40)
    (enough : span ≤ tenth n) :
    place (tenth n - span) = place (tenth n) - place span ∧
      place (tenth n - span + span) = place (tenth n) := by
  obtain ⟨low,high⟩ := roomBounds least most
  have finite := finiteBetween low high rfl rfl
  have finiteSpan := units.finite (by omega) (by omega)
  obtain ⟨m,j,steps,at',scale,few,fine⟩ := stepsNear last low high
  have whole : place (tenth n) - place span = (m - q * steps) * (2 ^ j : Nat) := by
    rw [at',units.place,scale]
    push_cast
    ring
  have within : q * steps ≤ m := by
    have places := ((leIff _ _).mp enough).2.2
    have step : (0 : Int) < (2 ^ j : Nat) := by positivity
    rw [at',units.place,scale] at places
    push_cast at places step
    refine Int.le_of_mul_le_mul_right ?_ step
    linarith
  have some : 0 ≤ q * steps := Int.mul_nonneg positive (Int.natCast_nonneg _)
  obtain ⟨number,difference⟩ := differenceUnits finite finiteSpan whole (by omega) (by omega)
  refine ⟨difference,?_⟩
  have back : place (tenth n - span) + place span = m * (2 ^ j : Nat) := by
    rw [difference,at']
    exact Int.sub_add_cancel _ _
  have finiteLeft := finiteUnits number (difference.trans whole) (by omega) (by omega)
  rw [(sumUnits finiteLeft finiteSpan back (by omega) (by omega)).2,back,at']

/-- On the grid there is nothing to round before the tenths are cut off. -/
theorem tenthsGrid {x : Float} {b : Int} {k : Nat} (last : k = 1064) (units : Units k x b)
    (least : 0 ≤ b) (most : b < 2 ^ 40) : tenths x = (10 * b + 512) / 1024 := by
  obtain ⟨i,_,eq,half⟩ := gridEq
  obtain rfl : i = k := by omega
  have finite := units.finite (by omega) (by omega)
  have tens : Units i (x * 10) (10 * b) := by
    obtain ⟨number,at'⟩ := productPlace finite (y := 10) rfl
    have exact := roundedUnits (n := 10 * b) (k := i) (by omega) (by omega) onesPositive
    refine ⟨number,?_⟩
    rw [at',units.place,tenWhole.place,← exact]
    congr 1
    ring
  have halves : Units i 0.5 512 := ⟨rfl,half.trans (Int.natCast_mul _ _)⟩
  have sum := tens.sum halves (by omega) (by omega) (by omega) (by omega)
  unfold tenths
  rw [sum.place,eq]
  push_cast
  rw [Int.mul_ediv_mul_of_pos_left _ _ (by positivity)]

/-- Rounding an end down to a tenth takes less than half of one, as there are 1022 parts in 1024 to
cut off at most. -/
theorem tenthAbove {n b : Int} {k : Nat} (last : k = 1064) (most : n < 2 ^ 53) (small : b < 2 ^ 40)
    (least : 0 ≤ b) (fits : (10 * b + 512) / 1024 ≤ n) :
    (b - 51) * (2 ^ k : Nat) ≤ place (tenth n) := by
  obtain ⟨i,_,eq,_⟩ := gridEq
  obtain rfl : i = k := by omega
  have wide := onesPositive
  have exact := roundedUnits (n := b - 51) (k := i) (d := 10 * ones) (by omega) (by omega) (by omega)
  rw [(tenthPlace (by omega) most).2,← exact]
  refine roundedMono (by omega) (by omega) ?_
  refine Int.mul_le_mul_of_nonneg_right ?_ (by omega)
  have step : (0 : Int) ≤ (2 ^ i : Nat) * ones := by positivity
  calc (b - 51) * (2 ^ i : Nat) * (10 * ones : Nat) = (10 * b - 510) * ((2 ^ i : Nat) * ones) := by
        push_cast
        ring
    _ ≤ (1024 * n) * ((2 ^ i : Nat) * ones) := Int.mul_le_mul_of_nonneg_right (by omega) step
    _ = n * ones * ones := by
        conv_rhs => rw [eq]
        rw [eq]
        push_cast
        ring

namespace Clip

/-- The window is that of `a` and `b` steps of the grid. -/
structure Gridded (k : Nat) (c : Clip) (a b : Int) : Prop where
  first : Units k c.start a
  last : Units k c.stop b
  least : 0 ≤ a
  order : a < b
  most : b < 2 ^ 40

theorem griddedOf {c : Clip} {k : Nat} (last : k = 1064) (sound : c.Sound)
    (first : OnGrid c.start) (final : OnGrid c.stop) : ∃ a b, c.Gridded k a b := by
  obtain ⟨a,start,least,_⟩ := first.units last
  obtain ⟨b,stop,_,small⟩ := final.units last
  exact ⟨a,b,start,stop,least,(start.lt stop).mp sound.window,small⟩

namespace Gridded
variable {k : Nat} {c : Clip} {a b n : Int} {u start : Float}

theorem span (grid : c.Gridded k a b) (low : k ≤ 1074) : Units k c.span (b - a) := by
  obtain ⟨first,last,least,order,most⟩ := grid
  exact last.difference first low (by omega) (by omega) (by omega)

theorem ends (grid : c.Gridded k a b) (low : k ≤ 1074) :
    place c.stop = place c.start + place c.span := by
  rw [grid.last.place,grid.first.place,(grid.span low).place]
  ring

/-- Back at its start, the clip has its window again. -/
theorem back (grid : c.Gridded k a b) (low : k ≤ 1074) (there : Units k start a) :
    0 ≤ start ∧ start < start + c.span ∧ (start == c.start) = true ∧
      (start + c.span == c.stop) = true := by
  have span := grid.span low
  obtain ⟨first,last,least,order,most⟩ := grid
  have zero : Units k 0 0 := ⟨rfl,by rw [Int.zero_mul]; rfl⟩
  have sum := there.sum span low (by omega) (by omega) (by omega)
  rw [add_sub_cancel] at sum
  exact ⟨(zero.le there).mpr least,(there.lt sum).mpr order,
    beqPlace there.number first.number (there.place.trans first.place.symm),
    beqPlace sum.number last.number (sum.place.trans last.place.symm)⟩

theorem finite (grid : c.Gridded k a b) (last : k = 1064) (there : Units k u a) :
    u.isFinite = true := by
  obtain ⟨_,_,least,order,most⟩ := grid
  exact there.finite (by omega) (by omega)

/-- The pointer aims at the start when it has not moved. -/
theorem aim {p : Float} (grid : c.Gridded k a b) (last : k = 1064) (pointer : OnGrid p) :
    Units k (p - (p - c.start)) a := by
  obtain ⟨first,_,least,order,most⟩ := grid
  obtain ⟨t,pressed,_,_⟩ := pointer.units last
  have grab := pressed.difference first (by omega) (by omega) (by omega) (by omega)
  have target := pressed.difference grab (by omega) (by omega) (by omega) (by omega)
  rwa [sub_sub_cancel] at target

section
variable (grid : c.Gridded k a b) (last : k = 1064) (least : 50 ≤ n) (most : n ≤ 10995116277760)
  (target : Units k u a)
include grid last least most target

theorem landedFits (fits : c.stop ≤ tenth n) : landedStart u (tenth n) c.span = u := by
  have span := grid.span (by omega)
  obtain ⟨_,stop,positive,order,small⟩ := grid
  have zero : Units k 0 0 := ⟨rfl,by rw [Int.zero_mul]; rfl⟩
  have shorter : c.span ≤ c.stop := (span.le stop).mpr (by omega)
  have left := (roomLeft last least most span (by omega) (by omega) (leTrans shorter fits)).1
  obtain ⟨_,number,places⟩ := (leIff _ _).mp fits
  obtain ⟨low,high⟩ := roomBounds least most
  have numberLeft := differenceNumber number span.number (.inl (finiteBetween low high rfl rfl))
  have inside : u ≤ tenth n - c.span := by
    refine (leIff _ _).mpr ⟨target.number,numberLeft,?_⟩
    rw [stop.place] at places
    rw [left,target.place,span.place,Int.sub_mul]
    omega
  exact landedAt ((zero.le target).mpr positive) (leTrans inside (leFirstMaxRight rfl numberLeft))

/-- A clip that begins at zero has nowhere to be moved back to. -/
theorem landedZero (beyond : ¬ c.stop ≤ tenth n) (first : a = 0) :
    Units k (landedStart u (tenth n) c.span) a := by
  subst first
  have span := grid.span (by omega)
  obtain ⟨_,stop,_,order,small⟩ := grid
  obtain ⟨low,high⟩ := roomBounds least most
  have finite := finiteBetween low high rfl rfl
  have less := (notLeIff stop.number (finiteNumber finite)).mp beyond
  have same : place c.stop = place c.span := by rw [stop.place,span.place,Int.sub_zero]
  have left : ¬ 0 < tenth n - c.span :=
    differenceNone finite (span.finite (by omega) (by omega)) ((leIff _ _).mpr
      ⟨finiteNumber finite,span.number,same ▸ ((ltIff _ _).mp less).2.2.le⟩)
  obtain ⟨above,below⟩ := landedBounds (tenth n) c.span target.number
  rw [firstMax,if_neg left] at below
  have zero : place 0 = 0 := rfl
  have placesAbove := ((leIff _ _).mp above).2.2
  have placesBelow := ((leIff _ _).mp below).2.2
  exact ⟨(numberOfLe above).2,by rw [Int.zero_mul]; omega⟩

omit target in
/-- The new start is what the length leaves beside the span, or zero. -/
theorem shortPlaces (beyond : ¬ c.stop ≤ tenth n) (some : 0 < a) :
    let start := firstMax 0 (tenth n - c.span)
    place start < place c.start ∧ place (tenth n) - place c.span ≤ place start ∧
      place start < place (start + c.span) := by
  have span := grid.span (by omega)
  have ends := grid.ends (by omega)
  obtain ⟨first,stop,_,order,small⟩ := grid
  obtain ⟨low,high⟩ := roomBounds least most
  have finite := finiteBetween low high rfl rfl
  have finiteSpan := span.finite (by omega) (by omega)
  have less := ((ltIff _ _).mp ((notLeIff stop.number (finiteNumber finite)).mp beyond)).2.2
  have step : (0 : Int) < (2 ^ k : Nat) := by positivity
  have positive : 0 < place c.span := by
    rw [span.place]
    exact Int.mul_pos (by omega) step
  have begins : 0 < place c.start := by
    rw [first.place]
    exact Int.mul_pos some step
  have enough (le : c.span ≤ tenth n) := roomLeft last least most span (by omega) (by omega) le
  intro start
  unfold start
  by_cases room : 0 < tenth n - c.span
  · have le : c.span ≤ tenth n := by
      by_contra wide
      exact differenceNone finite finiteSpan
        (leOfLess ((notLeIff span.number (finiteNumber finite)).mp wide)) room
    obtain ⟨left,again⟩ := enough le
    rw [firstMax,if_pos room,again,left]
    omega
  · have zero : place 0 = 0 := rfl
    have wide : place (tenth n) ≤ place c.span := by
      by_contra less
      have left := (enough ((leIff _ _).mpr ⟨span.number,finiteNumber finite,by omega⟩)).1
      have number := (differencePlace finite finiteSpan).1
      exact room ((ltIff _ _).mpr ⟨rfl,number,by omega⟩)
    rw [firstMax,if_neg room,sumNone rfl finiteSpan zero]
    omega

/-- Moved back to fit, by less than half a tenth. -/
theorem landedShort (beyond : ¬ c.stop ≤ tenth n) (some : 0 < a) (fits : tenths c.stop ≤ n) :
    landedStart u (tenth n) c.span = firstMax 0 (tenth n - c.span) ∧
      firstMax 0 (tenth n - c.span) < c.start ∧
      c.start - firstMax 0 (tenth n - c.span) < 0.05 ∧
      firstMax 0 (tenth n - c.span) < firstMax 0 (tenth n - c.span) + c.span := by
  obtain ⟨before,after,opens⟩ := grid.shortPlaces last least most beyond some
  have finiteStart := grid.finite last grid.first
  have span := grid.span (by omega)
  have ends := grid.ends (by omega)
  obtain ⟨first,stop,_,order,small⟩ := grid
  have finiteSpan := span.finite (by omega) (by omega)
  have above : 0 ≤ firstMax 0 (tenth n - c.span) := leFirstMax rfl _
  have zero : Units k 0 0 := ⟨rfl,by rw [Int.zero_mul]; rfl⟩
  have same : place u = place c.start := target.place.trans first.place.symm
  have landed : landedStart u (tenth n) c.span = firstMax 0 (tenth n - c.span) :=
    landedFar ((zero.le target).mpr some.le)
      ((ltIff _ _).mpr ⟨(numberOfLe above).2,target.number,same ▸ before⟩)
  generalize firstMax 0 (tenth n - c.span) = start at above before after opens landed ⊢
  have number := (numberOfLe above).2
  have earlier : start < c.start := (ltIff _ _).mpr ⟨number,first.number,before⟩
  have finiteBack := finiteBetween above (leOfLess earlier) rfl finiteStart
  refine ⟨landed,earlier,lessOfLe (y := Float.ofNat 51 / 1024) ?_ (by decide +kernel),
    (ltIff _ _).mpr ⟨number,(sumPlace finiteBack finiteSpan).1,opens⟩⟩
  have grid : Units k (Float.ofNat 51 / 1024) 51 := gridUnits last (by omega)
  have room := tenthAbove (b := b) last (by omega) small (by omega)
    (tenthsGrid last stop (by omega) small ▸ fits)
  obtain ⟨number',difference⟩ := differencePlace finiteStart finiteBack
  refine (leIff _ _).mpr ⟨number',grid.number,?_⟩
  rw [Int.sub_mul,← stop.place,← grid.place] at room
  calc place (c.start - start) = rounded (place c.start - place start) 1 := difference
    _ ≤ rounded (place (Float.ofNat 51 / 1024)) 1 :=
      roundedMono Nat.one_pos Nat.one_pos (by omega)
    _ = place (Float.ofNat 51 / 1024) :=
      roundedExact (canonical _) (grid.finite (by omega) (by omega))

/-- The window that the clip has afterwards, whichever of the three it is. -/
theorem landed (fits : tenths c.stop ≤ n) :
    let start := landedStart u (tenth n) c.span
    0 ≤ start ∧ start < start + c.span ∧
      (((start == c.start) = true ∧ (start + c.span == c.stop) = true) ↔
        (c.start == 0) = true ∨ c.stop ≤ tenth n) ∧
      (¬ ((c.start == 0) = true ∨ c.stop ≤ tenth n) →
        start = firstMax 0 (tenth n - c.span) ∧ start < c.start ∧ c.start - start < 0.05) := by
  intro start
  have zero : Units k 0 0 := ⟨rfl,by rw [Int.zero_mul]; rfl⟩
  have first : (c.start == 0) = true ↔ a = 0 := by
    constructor
    · intro same
      obtain ⟨less,more⟩ := beqPlaces same
      exact le_antisymm ((grid.first.le zero).mp less) ((zero.le grid.first).mp more)
    · intro none
      exact beqPlace grid.first.number rfl (grid.first.place.trans (none ▸ zero.place.symm))
  rw [first]
  by_cases stays : a = 0 ∨ c.stop ≤ tenth n
  · have there : Units k start a := by
      by_cases inside : c.stop ≤ tenth n
      · have same : start = u := grid.landedFits last least most target inside
        rw [same]
        exact target
      · exact grid.landedZero last least most target inside (stays.resolve_right inside)
    obtain ⟨positive,opens,starts,stops⟩ := grid.back (by omega) there
    exact ⟨positive,opens,iff_of_true ⟨starts,stops⟩ stays,fun moved => absurd stays moved⟩
  · obtain ⟨some,beyond⟩ := not_or.mp stays
    have positive := grid.least
    obtain ⟨eq,earlier,close,opens⟩ :=
      grid.landedShort last least most target beyond (by omega) fits
    have at' : start = firstMax 0 (tenth n - c.span) := eq
    rw [at']
    refine ⟨leFirstMax rfl _,opens,iff_of_false ?_ stays,fun _ => ⟨rfl,earlier,close⟩⟩
    rintro ⟨same,_⟩
    exact (notLtIff (numberOfLess earlier).1 (numberOfLess earlier).2).mpr (beqPlaces same).2 earlier

end
end Gridded
end Clip
namespace Timeline
variable {tl : Timeline}

theorem gridNear (sound : ∀ d ∈ tl.clips, d.check = .ok ())
    (grid : ∀ d ∈ tl.clips, OnGrid d.start ∧ OnGrid d.stop) : tl.Near := by
  obtain ⟨k,last,eq,_⟩ := gridEq
  have latest : Units k 1099511627776 (2 ^ 50) := by
    refine ⟨rfl,nearWhole.place.trans ?_⟩
    rw [eq]
    push_cast
    ring
  intro d stored
  obtain ⟨first,final⟩ := grid d stored
  obtain ⟨a,start,_,_⟩ := first.units last
  obtain ⟨b,stop,_,small⟩ := final.units last
  exact ⟨Clip.soundOf (sound d stored) ⟨start.number,stop.number⟩,(stop.lt latest).mpr (by omega)⟩

theorem boundaryGrid {id : String} {b : Float}
    (grid : ∀ d ∈ tl.clips, OnGrid d.start ∧ OnGrid d.stop) (mem : b ∈ tl.boundaries id) :
    OnGrid b := by
  obtain ⟨d,stored,rfl | rfl⟩ := boundaryEdge mem
  · exact (grid d stored).1
  · exact (grid d stored).2

end Timeline
namespace Studio
variable {tl : Timeline} {xs ys : List Clip} {c : Clip} {x : Session} {p q : Float}
  {w : Float × Float}

/-- The clip is pressed and released, and no frame comes between. -/
theorem draggedAtOnce (idle : x.gesture = .idle) (clips : tl.clips = xs ++ c :: ys)
    (apart : ∀ d ∈ xs ++ ys, d.id ≠ c.id)
    (proposed : tl.proposeMove c.id (q - (p - c.start)) none x.threshold = .ok ⟨c.id,w.1,w.2⟩)
    (sound : (c.windowed w).check = .ok ()) :
    (∀ r ∈ (⟨tl,some x⟩ : Studio).replies [.press c.id p none,.release (some q)],
      ∃ a, r = .ok a) ∧
    ((⟨tl,some x⟩ : Studio).run [.press c.id p none,.release (some q)]).timeline.clip? c.id =
      some (c.windowed w) := by
  have found := Timeline.clipOkBetween clips apart
  have pressed : (⟨tl,some x⟩ : Studio).step (.press c.id p none) =
      (.ok .done,⟨tl,some ⟨x.threshold,c.grabbed p none,none⟩⟩) :=
    pressStepGrabbed idle found p none
  have framed : (⟨x.threshold,c.grabbed p none,some q⟩ : Session).frame tl =
      ⟨.ok (some ⟨c.id,w.1,w.2⟩),⟨x.threshold,c.grabbed p none,none⟩,tl.retimed c w⟩ :=
    Session.frameLanded (c.grabbedBusy p none) (congrArg (Except.map some) proposed)
      (Timeline.retimedStored found sound)
  have released := releaseHeld (s := ⟨tl,some ⟨x.threshold,c.grabbed p none,none⟩⟩)
    (c.grabbedBusy p none) rfl q
  rw [framed] at released
  simp only [replies,run,pressed,released,List.mem_cons,List.not_mem_nil,or_false,forall_eq_or_imp,
    forall_eq]
  exact ⟨⟨⟨_,rfl⟩,⟨_,rfl⟩⟩,
    Timeline.clipBetween (c := c.windowed w) (Timeline.retimedClips clips apart w) apart⟩

/-- The clip keeps its window, or begins earlier by less than half a tenth of a second. -/
theorem dragStill {as : List Act} (inside : ∀ a ∈ as, a.outside = false)
    (idle : x.gesture = .idle) (mem : c ∈ (({} : Desk).run as).timeline.clips)
    (grid : ∀ d ∈ (({} : Desk).run as).timeline.clips, OnGrid d.start ∧ OnGrid d.stop)
    (pointer : OnGrid p)
    (far : ∀ b ∈ (({} : Desk).run as).timeline.boundaries c.id,
      ¬ (b - c.start).abs ≤ x.threshold) :
    let s : Studio := ⟨(({} : Desk).run as).timeline,some x⟩
    let ws : List Command := [.press c.id p none,.release (some p)]
    ∃ room w, s.timeline.length = .ok room ∧ (∀ r ∈ s.replies ws, ∃ a, r = .ok a) ∧
      (s.run ws).timeline.clip? c.id = some (c.windowed w) ∧ w.2 = w.1 + c.span ∧
      (((w.1 == c.start) = true ∧ (w.2 == c.stop) = true) ↔
        (c.start == 0) = true ∨ c.stop ≤ room) ∧
      (¬ ((c.start == 0) = true ∨ c.stop ≤ room) →
        w.1 = firstMax 0 (room - c.span) ∧ w.1 < c.start ∧ c.start - w.1 < 0.05) := by
  have kept := Desk.runChecked inside
  generalize (({} : Desk).run as).timeline = tl at *
  obtain ⟨k,last,_,_⟩ := gridEq
  have near := Timeline.gridNear kept.clips grid
  obtain ⟨xs,ys,clips,apart⟩ := Timeline.splitBetween kept.ids mem
  obtain ⟨n,length⟩ := measured (by simpa using List.ne_nil_of_mem mem) near.early
  obtain ⟨a,b,gridded⟩ := Clip.griddedOf last (near c mem).1 (grid c mem).1 (grid c mem).2
  have target := gridded.aim last pointer
  have still : snapTime (p - (p - c.start)) (edges (xs ++ ys)) x.threshold = p - (p - c.start) := by
    have same : place (p - (p - c.start)) = place c.start :=
      target.place.trans gridded.first.place.symm
    rw [← Timeline.boundariesBetween clips apart]
    refine snapTimeFar fun e mem' close => far e mem' ?_
    obtain ⟨m,units,_,_⟩ := (Timeline.boundaryGrid grid mem').units last
    exact (distanceSame (units.finite (by omega) (by omega)) (gridded.finite last target)
      (gridded.finite last gridded.first) same).mp close
  have proposed := Timeline.proposedBetween clips apart length.length (p - (p - c.start)) x.threshold
  rw [still] at proposed
  obtain ⟨positive,opens,stays,moved⟩ := gridded.landed last length.least
    (near.measuredMost length) target (length.above _ (List.mem_map_of_mem mem))
  have sound := Clip.checkWindow (kept.clips c mem)
    ((notLtIff (numberOfLe positive).2 rfl).mpr positive)
    ((notLeIff (numberOfLess opens).2 (numberOfLess opens).1).mpr opens)
  obtain ⟨answered,stored⟩ := draggedAtOnce (w := (_,_)) idle clips apart proposed sound
  exact ⟨tenth n,_,length.length,answered,stored,rfl,stays,moved⟩

def trailing : Clip := ⟨"a","video","video",6,10.03125,some "a.mp4",none,none⟩

theorem trailingOnGrid : OnGrid trailing.start ∧ OnGrid trailing.stop :=
  ⟨⟨6144,by omega,by decide +kernel⟩,⟨10272,by omega,by decide +kernel⟩⟩

def longer : List Act :=
  [.command 0 (.addClip trailing),
   .command 0 (.addClip ⟨"b","audio","audio",0,12,some "b.mp3",none,none⟩)]

/-- The other clip ends later, so that there is room. -/
theorem longerStill :
    (∀ a ∈ longer, a.outside = false) ∧ trailing ∈ (({} : Desk).run longer).timeline.clips ∧
      (∀ d ∈ (({} : Desk).run longer).timeline.clips, OnGrid d.start ∧ OnGrid d.stop) ∧
      (∀ b ∈ (({} : Desk).run longer).timeline.boundaries "a", ¬ (b - trailing.start).abs ≤ 1) ∧
      ∃ w : Float × Float, ((⟨(({} : Desk).run longer).timeline,some {}⟩ : Studio).run
        [.press "a" 6 none,.release (some 6)]).timeline.clip? "a" = some (trailing.windowed w) ∧
        (w.1 == 6) = true ∧ (w.2 == 10.03125) = true := by
  have inside : ∀ a ∈ longer, a.outside = false := by decide
  have clips : (({} : Desk).run longer).timeline.clips =
      [trailing,⟨"b","audio","audio",0,12,some "b.mp3",none,none⟩] := by decide +kernel
  have mem : trailing ∈ (({} : Desk).run longer).timeline.clips := by simp [clips]
  have grid : ∀ d ∈ (({} : Desk).run longer).timeline.clips, OnGrid d.start ∧ OnGrid d.stop := by
    rw [clips]
    simp only [List.mem_cons,List.not_mem_nil,or_false,forall_eq_or_imp,forall_eq]
    exact ⟨trailingOnGrid,⟨0,by omega,by decide +kernel⟩,⟨12288,by omega,by decide +kernel⟩⟩
  have far : ∀ b ∈ (({} : Desk).run longer).timeline.boundaries "a",
      ¬ (b - trailing.start).abs ≤ 1 := by decide +kernel
  obtain ⟨room,w,length,_,stored,_,stays,_⟩ :=
    dragStill (x := {}) inside rfl mem grid (p := 6) trailingOnGrid.1 far
  have twelve : (({} : Desk).run longer).timeline.length = .ok 12 := by decide +kernel
  cases Except.ok.inj (length.symm.trans twelve)
  exact ⟨inside,mem,grid,far,w,stored,stays.mpr (.inr (by decide))⟩

/-- The length is ten seconds, and the clip comes to end there. -/
theorem trailingMoved : ¬ ∀ (as : List Act) (x : Session) (c : Clip) (p : Float),
    (∀ a ∈ as, a.outside = false) → x.gesture = .idle →
      c ∈ (({} : Desk).run as).timeline.clips →
      (∀ d ∈ (({} : Desk).run as).timeline.clips, OnGrid d.start ∧ OnGrid d.stop) → OnGrid p →
      (∀ b ∈ (({} : Desk).run as).timeline.boundaries c.id, ¬ (b - c.start).abs ≤ x.threshold) →
        (((⟨(({} : Desk).run as).timeline,some x⟩ : Studio).run
          [.press c.id p none,.release (some p)]).timeline.clip? c.id).any
            (fun d => d.start == c.start && d.stop == c.stop) = true := by
  intro stays
  have clips : (({} : Desk).run [.command 0 (.addClip trailing)]).timeline.clips = [trailing] := by
    decide +kernel
  have kept := stays [.command 0 (.addClip trailing)] {} trailing 6 (by decide) rfl
    (by simp [clips]) (by simpa [clips] using trailingOnGrid) trailingOnGrid.1 (by decide +kernel)
  revert kept
  decide +kernel

end Studio
end Montage
