import Montage.Proofs.Gesture.Landing
import Montage.Proofs.Double.Whole

/-! What snapping finds. The walk over the candidates keeps one of them with its distance; what it
holds at the end is the first that no other is nearer than, provided that it is within the
threshold. A time that has been drawn to a candidate stays there. -/
namespace Montage
variable {t c threshold : Float} {candidates seen : List Float}
  {found : Option (Float × Float)}

/-- The first candidate that no other is nearer than. -/
def nearest? (t : Float) (candidates : List Float) : Option Float :=
  candidates.find? fun c => candidates.all fun b => decide ((c - t).abs ≤ (b - t).abs)

theorem distancePlace {b : Float} (hb : b.isFinite = true) (ht : t.isFinite = true) :
    (b - t).abs.isNaN = false ∧ place (b - t).abs = (rounded (place b - place t) 1).natAbs := by
  obtain ⟨number,at'⟩ := differencePlace hb ht
  rw [(absPlace _).1,(absPlace _).2,number,at']
  exact ⟨rfl,rfl⟩

/-- Distances are the same from the same place. -/
theorem distanceSame {b x y : Float} (hb : b.isFinite = true) (hx : x.isFinite = true)
    (hy : y.isFinite = true) (same : place x = place y) :
    (b - x).abs ≤ threshold ↔ (b - y).abs ≤ threshold := by
  obtain ⟨numberX,atX⟩ := distancePlace hb hx
  obtain ⟨numberY,atY⟩ := distancePlace hb hy
  rw [leIff,leIff,numberX,numberY,atX,atY,same]

/-- A difference of doubles is zero only where they are equal. -/
theorem distanceNone {b : Float} (hb : b.isFinite = true) (hc : c.isFinite = true)
    (none : (b - c).abs ≤ 0) : place b = place c := by
  have zero : place 0 = 0 := rfl
  have near := ((leIff _ _).mp none).2.2
  rw [(distancePlace hb hc).2,zero] at near
  rcases lt_trichotomy (place b - place c) 0 with less | same | more
  · have apart := roundedPositive (z := -(place b - place c)) (by omega)
    rw [roundedNegated] at apart
    omega
  · omega
  · have apart := roundedPositive more
    omega

theorem distanceAbove {b : Float} (hb : b.isFinite = true) (ht : t.isFinite = true) :
    0 ≤ (b - t).abs := by
  refine (leIff _ _).mpr ⟨rfl,(distancePlace hb ht).1,?_⟩
  rw [(absPlace _).2]
  exact Int.natCast_nonneg _

theorem distanceSelf (hc : c.isFinite = true) : (c - c).abs = 0 := by
  rw [differenceSelf hc]
  rfl

theorem nearestAt {before after : List Float} (parts : candidates = before ++ c :: after)
    (least : ∀ b ∈ candidates, (c - t).abs ≤ (b - t).abs)
    (earlier : ∀ b ∈ before, ¬ (b - t).abs ≤ (c - t).abs) : nearest? t candidates = some c := by
  refine List.find?_eq_some_iff_append.mpr ⟨by simpa using least,before,after,parts,fun b mem => ?_⟩
  simpa using ⟨c,by simp [parts],earlier b mem⟩

/-- What the walk holds after the candidates in `seen`. -/
inductive Best (t threshold : Float) (seen : List Float) : Option (Float × Float) → Prop where
  | far (far : ∀ b ∈ seen, ¬ (b - t).abs ≤ threshold) : Best t threshold seen none
  | near {c : Float} {before after : List Float} (parts : seen = before ++ c :: after)
      (within : (c - t).abs ≤ threshold)
      (earlier : ∀ b ∈ before, (c - t).abs < (b - t).abs)
      (later : ∀ b ∈ after, (c - t).abs ≤ (b - t).abs) :
      Best t threshold seen (some (c,(c - t).abs))

namespace Best

theorem least {d : Float} (best : Best t threshold seen (some (c,d)))
    (numbers : ∀ b ∈ seen, (b - t).abs.isNaN = false) : ∀ b ∈ seen, (c - t).abs ≤ (b - t).abs := by
  cases best with
  | near parts within earlier later =>
    intro b mem
    rw [parts] at mem numbers
    rcases List.mem_append.mp mem with first | rest
    · exact leOfLess (earlier b first)
    rcases List.mem_cons.mp rest with rfl | last
    · exact leSelf (numbers b mem)
    · exact later b last

theorem taken (within : (c - t).abs ≤ threshold)
    (nearer : ∀ b ∈ seen, (c - t).abs < (b - t).abs) :
    Best t threshold (seen ++ [c]) (some (c,(c - t).abs)) :=
  .near rfl within nearer (by simp)

theorem kept {k d : Float} (best : Best t threshold seen (some (k,d))) (further : d ≤ (c - t).abs) :
    Best t threshold (seen ++ [c]) (some (k,d)) := by
  cases best with
  | near parts within earlier later =>
    exact .near (by rw [parts,List.append_assoc]; rfl) within earlier
      (List.forall_mem_append.mpr ⟨later,by simpa using further⟩)

/-- One more candidate. -/
theorem step (best : Best t threshold seen found)
    (numbers : ∀ b ∈ seen, (b - t).abs.isNaN = false) (number : (c - t).abs.isNaN = false) :
    Best t threshold (seen ++ [c]) (nearer t threshold found c) := by
  unfold nearer
  dsimp only
  by_cases close : (c - t).abs ≤ threshold
  · rw [if_pos close]
    cases best with
    | far far =>
      exact taken close fun b mem =>
        lessOfLe close ((notLeIff (numbers b mem) (numberOfLe close).2).mp (far b mem))
    | near parts within earlier later =>
      have best := Best.near parts within earlier later
      dsimp only
      split
      · rename_i nearer
        exact taken close fun b mem => lessOfLess nearer (best.least numbers b mem)
      · rename_i notNearer
        exact best.kept ((notLtIff number (numberOfLe within).1).mp notNearer)
  · rw [if_neg close]
    cases best with
    | far far => exact .far (List.forall_mem_append.mpr ⟨far,by simpa using close⟩)
    | near parts within earlier later =>
      exact (Best.near parts within earlier later).kept
        (leTrans within (leOfLess ((notLeIff number (numberOfLe within).2).mp close)))

theorem run (best : Best t threshold seen found) (numbers : ∀ b ∈ seen, (b - t).abs.isNaN = false)
    (others : ∀ b ∈ candidates, (b - t).abs.isNaN = false) :
    Best t threshold (seen ++ candidates) (candidates.foldl (nearer t threshold) found) := by
  induction candidates generalizing seen found with
  | nil => rwa [List.append_nil]
  | cons c cs ih =>
    obtain ⟨number,rest⟩ := List.forall_mem_cons.mp others
    rw [List.foldl_cons,List.append_cons]
    exact ih (best.step numbers number)
      (List.forall_mem_append.mpr ⟨numbers,by simpa using number⟩) rest

theorem nearest {d : Float} (best : Best t threshold candidates (some (c,d)))
    (numbers : ∀ b ∈ candidates, (b - t).abs.isNaN = false) : nearest? t candidates = some c := by
  have least := best.least numbers
  cases best with
  | near parts within earlier later =>
    refine nearestAt parts least fun b mem => ?_
    have less := earlier b mem
    exact (notLeIff (numberOfLess less).2 (numberOfLess less).1).mpr less

/-- The candidate that is kept is also the first at its own place. -/
theorem again {d : Float} (best : Best t threshold candidates (some (c,d)))
    (ht : t.isFinite = true) (finite : ∀ b ∈ candidates, b.isFinite = true) :
    nearest? c candidates = some c ∧ (c - c).abs ≤ threshold := by
  cases best with
  | near parts within earlier later =>
    have hc : c.isFinite = true := finite c (by simp [parts])
    rw [distanceSelf hc]
    refine ⟨nearestAt parts (fun b mem => ?_) fun b mem none => ?_,
      leTrans (distanceAbove hc ht) within⟩
    · rw [distanceSelf hc]
      exact distanceAbove (finite b mem) hc
    · have hb := finite b (by simp [parts,mem])
      rw [distanceSelf hc] at none
      have less := ((ltIff _ _).mp (earlier b mem)).2.2
      rw [(distancePlace hb ht).2,(distancePlace hc ht).2,distanceNone hb hc none] at less
      exact lt_irrefl _ less

end Best

theorem distanceNumbers (ht : t.isFinite = true) (finite : ∀ b ∈ candidates, b.isFinite = true) :
    ∀ b ∈ candidates, (b - t).abs.isNaN = false :=
  fun b mem => (distancePlace (finite b mem) ht).1

theorem bestOf (ht : t.isFinite = true) (finite : ∀ b ∈ candidates, b.isFinite = true)
    (threshold : Float) :
    Best t threshold candidates (candidates.foldl (nearer t threshold) none) := by
  have start : Best t threshold [] none := .far (by simp)
  have run := start.run (by simp) (distanceNumbers ht finite)
  rwa [List.nil_append] at run

theorem snapTimeFar (far : ∀ b ∈ candidates, ¬ (b - t).abs ≤ threshold) :
    snapTime t candidates threshold = t := by
  have none : candidates.foldl (nearer t threshold) none = none := by
    induction candidates with
    | nil => rfl
    | cons b bs ih =>
      obtain ⟨first,rest⟩ := List.forall_mem_cons.mp far
      rw [List.foldl_cons,nearer,if_neg first]
      exact ih rest
  unfold snapTime
  rw [none]

theorem snapTimeNear (ht : t.isFinite = true) (finite : ∀ b ∈ candidates, b.isFinite = true)
    (near : ∃ b ∈ candidates, (b - t).abs ≤ threshold) :
    ∃ d, Best t threshold candidates (some (snapTime t candidates threshold,d)) := by
  have best := bestOf ht finite threshold
  unfold snapTime
  generalize candidates.foldl (nearer t threshold) none = found at best
  cases best with
  | far far =>
    obtain ⟨b,mem,close⟩ := near
    exact absurd close (far b mem)
  | near parts within earlier later => exact ⟨_,.near parts within earlier later⟩

theorem snapTimeNearest (ht : t.isFinite = true) (finite : ∀ b ∈ candidates, b.isFinite = true)
    (threshold : Float) :
    ((∃ b ∈ candidates, (b - t).abs ≤ threshold) →
      nearest? t candidates = some (snapTime t candidates threshold)) ∧
    ((∀ b ∈ candidates, ¬ (b - t).abs ≤ threshold) → snapTime t candidates threshold = t) ∧
    snapTime (snapTime t candidates threshold) candidates threshold =
      snapTime t candidates threshold := by
  have found {x : Float} (hx : x.isFinite = true)
      (near : ∃ b ∈ candidates, (b - x).abs ≤ threshold) :
      nearest? x candidates = some (snapTime x candidates threshold) := by
    obtain ⟨d,best⟩ := snapTimeNear hx finite near
    exact best.nearest (distanceNumbers hx finite)
  refine ⟨found ht,snapTimeFar,?_⟩
  by_cases near : ∃ b ∈ candidates, (b - t).abs ≤ threshold
  · obtain ⟨d,best⟩ := snapTimeNear ht finite near
    obtain ⟨self,within⟩ := best.again ht finite
    have inside := List.mem_of_find?_eq_some self
    exact Option.some.inj ((found (finite _ inside) ⟨_,inside,within⟩).symm.trans self)
  · have stays : snapTime t candidates threshold = t :=
      snapTimeFar fun b mem close => near ⟨b,mem,close⟩
    rw [stays,stays]

/-- Two candidates are as near as each other, and the earlier one is taken. -/
theorem betweenNearest : Float.isFinite 4 = true ∧
    (∀ b ∈ ([3,5,3.5,4.5] : List Float), b.isFinite = true) ∧ snapTime 4 [3,5,3.5,4.5] 1 = 3.5 ∧
    nearest? 4 [3,5,3.5,4.5] = some 3.5 ∧ snapTime 3.5 [3,5,3.5,4.5] 1 = 3.5 := by
  have finite : ∀ b ∈ ([3,5,3.5,4.5] : List Float), b.isFinite = true := by decide +kernel
  have drawn : snapTime 4 [3,5,3.5,4.5] 1 = 3.5 := by decide +kernel
  obtain ⟨near,_,again⟩ := snapTimeNearest (t := 4) rfl finite 1
  rw [drawn] at near again
  exact ⟨rfl,finite,drawn,near ⟨3.5,by simp,by decide +kernel⟩,again⟩

end Montage
