import Mathlib.Data.Rat.Floor
import Montage.Project
import Montage.Proofs.Double.Half
import Montage.Proofs.Double.Value
import Montage.Proofs.Timeline.Tenths

/-! Allotted time. A clip without an end is allotted the whole seconds of its file, if the file is
opened and tells of one at least, and else the usual length of its kind. Either is a second or more,
so that the clip ends after it starts. -/
namespace Montage

/-- What comes of opening a media file, unless something unforeseen does. -/
inductive Foreseen : Reading → Prop where
  | unreadable : Foreseen .unreadable
  | untold : Foreseen (.length none)
  | whole {n : Int} (least : 0 ≤ n) : Foreseen (.length (some (.whole n)))
  | real {x : Float} (least : 0 ≤ x) (finite : x.isFinite = true) :
      Foreseen (.length (some (.real x)))

/-- The exact length that is told. Where none is, it counts as nothing. -/
def Reading.seconds : Reading → ℚ
  | .length (some (.whole n)) => n
  | .length (some (.real x)) => ratio x
  | _ => 0

/-- The whole seconds that a clip without an end lasts, if opening its file comes to `r`. -/
inductive Allotted (probe : Bool) (track : String) (r : Reading) : Int → Prop where
  | usual {n : Int} (unheard : track = "image" ∨ probe = false ∨ r.seconds < 1)
      (default : defaultLength track = .ok n) : Allotted probe track r n
  | told (asked : probe = true) (moving : track ≠ "image") (some : 1 ≤ r.seconds) :
      Allotted probe track r ⌊r.seconds⌋

theorem defaultLengthKnown {track : String} (known : track ∈ sourceKinds) :
    ∃ n, defaultLength track = .ok n ∧ 1 ≤ n ∧ (Float.ofInt n).isFinite = true := by
  have lengths : ∀ track ∈ sourceKinds,
      defaultLength track = .ok 5 ∨ defaultLength track = .ok 30 := by decide
  rcases lengths track known with five | thirty
  · exact ⟨5,five,by decide,by decide +kernel⟩
  · exact ⟨30,thirty,by decide,by decide +kernel⟩

section
variable {r : Reading} {track : String} {probe : Bool}

theorem ratioFloor {x : Float} (finite : x.isFinite = true) : ⌊ratio x⌋ = place x / ones := by
  rw [ratioPlace finite]
  exact Rat.floor_intCast_div_natCast (place x) ones

theorem Foreseen.seconds (foreseen : Foreseen r) : 0 ≤ r.seconds := by
  cases foreseen with
  | unreadable => exact le_rfl
  | untold => exact le_rfl
  | whole least => exact Int.cast_nonneg least
  | real least finite =>
    change 0 ≤ ratio _
    rw [ratioPlace finite]
    exact div_nonneg (Int.cast_nonneg (placeLeast least)) (Nat.cast_nonneg ones)

/-- Before its whole seconds are taken, a zero of either kind becomes the whole number. -/
theorem floorTold {a : Amount} (foreseen : Foreseen (.length (some a))) :
    (if a.isZero = true then Amount.whole 0 else a).floor =
      .ok ⌊(Reading.length (some a)).seconds⌋ := by
  cases foreseen with
  | @whole n least =>
    change _ = Except.ok ⌊(n : ℚ)⌋
    rw [Int.floor_intCast]
    split
    · rename_i zero
      rw [eq_of_beq zero]
      rfl
    · rfl
  | @real x least finite =>
    change _ = Except.ok ⌊ratio x⌋
    rw [ratioFloor finite]
    split
    · rename_i zero
      obtain ⟨most,_⟩ := beqPlaces (y := 0) zero
      have none : place x = 0 := le_antisymm ((leIff x 0).mp most).2.2 (placeLeast least)
      rw [none,Int.zero_ediv]
      rfl
    · exact wholeBelowPlace finite

theorem wholeSecondsEq (foreseen : Foreseen r) (kind : String) : wholeSeconds kind r =
    if ⌊r.seconds⌋ = 0 then defaultLength kind else .ok ⌊r.seconds⌋ := by
  rcases r with (_ | a) | _ | report
  · rfl
  · unfold wholeSeconds
    dsimp only
    rw [pure_bind,floorTold foreseen]
    rfl
  · rfl
  · cases foreseen

theorem allotted (r : Reading) (probe : Bool) (known : track ∈ sourceKinds) :
    ∃ n, Allotted probe track r n ∧ 1 ≤ n := by
  obtain ⟨n,default,least,_⟩ := defaultLengthKnown known
  by_cases still : track = "image"
  · exact ⟨n,.usual (.inl still) default,least⟩
  cases probe with
  | false => exact ⟨n,.usual (.inr (.inl rfl)) default,least⟩
  | true =>
    rcases lt_or_ge r.seconds 1 with short | some
    · exact ⟨n,.usual (.inr (.inr short)) default,least⟩
    · exact ⟨_,.told rfl still some,Int.le_floor.mpr (by exact_mod_cast some)⟩

theorem Allotted.heard {n : Int} (length : Allotted true track r n) (foreseen : Foreseen r)
    (moving : track ≠ "image") : wholeSeconds track r = .ok n := by
  rw [wholeSecondsEq foreseen]
  cases length with
  | told _ _ some =>
    have least : 1 ≤ ⌊r.seconds⌋ := Int.le_floor.mpr (by exact_mod_cast some)
    exact if_neg (by omega)
  | usual unheard default =>
    obtain still | missing | short := unheard
    · exact absurd still moving
    · cases missing
    · rw [if_pos (Int.floor_eq_zero_iff.mpr ⟨foreseen.seconds,short⟩),default]

theorem Allotted.unheard {n : Int} (length : Allotted probe track r n)
    (quiet : track = "image" ∨ probe = false) : defaultLength track = .ok n := by
  cases length with
  | usual _ default => exact default
  | told asked moving =>
    obtain still | missing := quiet
    · exact absurd still moving
    · exact absurd asked (by simp [missing])

end

theorem secondsLater {start : Float} {n : Int} (least : 0 ≤ start) (near : start < 1099511627776)
    (some : 1 ≤ n) : start < start + Float.ofInt n := by
  obtain ⟨m,rfl⟩ := Int.eq_ofNat_of_zero_le (show 0 ≤ n by omega)
  have one : 0.5 ≤ Float.ofNat 1 := by decide +kernel
  have half : 0.5 ≤ Float.ofNat m := leTrans one (ofNatRises (by omega))
  exact sumMoreThan least (lessOfLess near (by decide)) half

/-- No file is opened but this one, and this one once at most. -/
theorem lengthAllotted {media : Media} {probe : Bool} {track path : String} {n : Int}
    (foreseen : Foreseen (media.reading path))
    (length : Allotted probe track (media.reading path) n) :
    ∃ own : Option Probe, (∀ p ∈ own, p.path = path) ∧ ∀ log,
      (Project.lengthOfFile media probe path track).run log = (.ok n,log ++ own.toList) := by
  unfold Project.lengthOfFile probeLength
  cases probe with
  | false =>
    refine ⟨none,nofun,fun log => ?_⟩
    rw [length.unheard (.inr rfl),Option.toList_none,List.append_nil]
    rfl
  | true =>
    by_cases still : track = "image"
    · have five := length.unheard (.inl still)
      rw [still] at five
      cases five
      refine ⟨none,nofun,fun log => ?_⟩
      rw [Option.toList_none,List.append_nil,if_pos rfl,if_pos still]
      rfl
    · refine ⟨some ⟨if track = "video" then .video else .audio,path⟩,?_,fun log => ?_⟩
      · rintro p same
        cases same
        rfl
      · rw [if_pos rfl,if_neg still,length.heard foreseen still]
        rfl

end Montage
