import Montage.Proofs.Timeline.Tenths
import Montage.Proofs.Timeline.Between
import Montage.Proofs.Gesture.Landing
import Montage.Proofs.Desk

/-! The room of a drag. A dragged clip is kept inside the length that the timeline has, and what is
rounded on the way cannot make the timeline longer by a tenth. A clip that reaches beyond the length,
as its end was rounded down, is put at zero and ends no later than before. -/
namespace Montage

section
variable {u : Float} (room span : Float)

theorem landedBounds (number : u.isNaN = false) :
    0 ≤ landedStart u room span ∧ landedStart u room span ≤ firstMax 0 (room - span) := by
  have most := leFirstMax (a := 0) rfl (room - span)
  have first := leFirstMin (leFirstMaxRight number (rfl : (0 : Float).isNaN = false)) most
  exact ⟨first,(notLtIff (numberOfLe most).2 (numberOfLe first).2).mp (notAbove _ _)⟩

variable {room span}

theorem landedAt (positive : 0 ≤ u) (inside : u ≤ firstMax 0 (room - span)) :
    landedStart u room span = u := by
  have kept : firstMax u 0 = u :=
    if_neg ((notLtIff (numberOfLe positive).2 rfl).mpr positive)
  unfold landedStart
  rw [kept]
  exact if_neg ((notLtIff (numberOfLe inside).2 (numberOfLe inside).1).mpr inside)

theorem landedFar (positive : 0 ≤ u) (beyond : firstMax 0 (room - span) < u) :
    landedStart u room span = firstMax 0 (room - span) := by
  have kept : firstMax u 0 = u :=
    if_neg ((notLtIff (numberOfLe positive).2 rfl).mpr positive)
  unfold landedStart
  rw [kept]
  exact if_pos beyond

end

/-- Two roundings take the clip beyond the length, and a third its tenths. -/
theorem tenthsBack {n : Int} {start span : Float} (least : 50 ≤ n) (most : n ≤ 10995116277760)
    (some : 0 ≤ span) (finite : span.isFinite = true) (room : 0 < tenth n - span)
    (first : 0 ≤ start) (last : start ≤ tenth n - span) :
    Early (start + span) ∧ tenths (start + span) ≤ n := by
  obtain ⟨low,high⟩ := roomBounds least most
  have finiteRoom := finiteBetween low high rfl rfl
  have within : start ≤ tenth n := leTrans last (differenceLe finiteRoom finite some)
  have finiteStart := finiteBetween first within rfl finiteRoom
  have longer := sumPositive first some finiteStart finite
  have placeSpan := placeLeast some
  have placeStart := placeLeast first
  obtain ⟨k,last',eq,_⟩ := stepEq
  have placeNear : place (tenth n) ≤ (2 ^ 48 * 2 ^ k : Nat) := by
    refine ((leIff _ _).mp high).2.2.trans_eq ?_
    rw [nearWhole.place,eq]
    push_cast
    ring
  have gap : 0 ≤ place (tenth n) - place span := by
    by_contra less
    exact differenceNone finiteRoom finite ((leIff _ _).mpr ⟨finiteNumber finiteRoom,
      finiteNumber finite,by omega⟩) room
  have left := differenceLess (k := k) finiteRoom finite (by omega) gap (by omega)
  have placeLast := ((leIff _ _).mp last).2.2
  have right := sumLess (k := k) finiteStart finite (by omega) (by omega) (by omega)
  have early : Early (start + span) := by
    refine ⟨longer,(leIff _ _).mpr ⟨(numberOfLe longer).2,rfl,?_⟩⟩
    rw [latestWhole.place,eq]
    push_cast at placeNear left right ⊢
    omega
  exact ⟨early,tenthsWithin last' early least (by omega) (by omega)⟩

/-- Either there is room beside the span, or the clip is put at zero and ends no later. -/
theorem Clip.landedTenths {c : Clip} {n : Int} {start : Float} (sound : c.Sound)
    (near : c.stop ≤ 1099511627776) (least : 50 ≤ n) (most : n ≤ 10995116277760)
    (fits : tenths c.stop ≤ n) (first : 0 ≤ start)
    (last : start ≤ firstMax 0 (tenth n - c.span)) :
    Early (start + c.span) ∧ tenths (start + c.span) ≤ n := by
  have positive := leTrans sound.start (leOfLess sound.window)
  have finite := finiteBetween positive near rfl rfl
  have early : Early c.stop := ⟨positive,leTrans near (by decide)⟩
  have some : 0 ≤ c.span := leOfLess sound.spanPositive
  have inside : c.span ≤ c.stop := differenceLe finite sound.finite sound.start
  have finiteSpan := finiteBetween some inside rfl finite
  by_cases room : 0 < tenth n - c.span
  · rw [firstMax,if_pos room] at last
    exact tenthsBack least most some finiteSpan room first last
  · rw [firstMax,if_neg room] at last
    have finiteStart := finiteBetween first last rfl rfl
    have longer := sumPositive first some finiteStart finiteSpan
    have none : place start = 0 :=
      le_antisymm ((leIff _ _).mp last).2.2 ((leIff _ _).mp first).2.2
    have earlier : start + c.span ≤ c.stop :=
      (leIff _ _).mpr ⟨(numberOfLe longer).2,finiteNumber finite,
        (sumNone finiteStart finiteSpan none).trans_le ((leIff _ _).mp inside).2.2⟩
    exact ⟨⟨longer,leTrans earlier early.most⟩,(early.rises longer earlier).trans fits⟩

namespace Timeline
variable {tl tl' : Timeline} {xs ys : List Clip} {c : Clip} {n : Int}

/-- Clips with sound windows that end before `2 ^ 40`. -/
def Near (tl : Timeline) : Prop := ∀ d ∈ tl.clips, d.Sound ∧ d.stop < 1099511627776

theorem Near.early (near : tl.Near) : ∀ x ∈ tl.clips.map Clip.stop, Early x := by
  intro x mem
  obtain ⟨d,stored,rfl⟩ := List.mem_map.mp mem
  obtain ⟨sound,less⟩ := near d stored
  exact ⟨leTrans sound.start (leOfLess sound.window),leTrans (leOfLess less) (by decide)⟩

theorem Near.measuredMost (near : tl.Near) (length : Measured (tl.clips.map Clip.stop) n) :
    n ≤ 10995116277760 := by
  rcases length.reached with rfl | ⟨x,mem,rfl⟩
  · omega
  · have early := near.early x mem
    obtain ⟨d,stored,rfl⟩ := List.mem_map.mp mem
    have last : Early 1099511627776 := ⟨by decide,by decide⟩
    have le := last.rises early.least (leOfLess (near d stored).2)
    rw [tenthsWhole nearWhole (by omega) (by omega) last.tenfold] at le
    omega

/-- The ends of the others are as they were, and the new one has no more tenths than the length. -/
theorem Near.shorter (near : tl.Near) (clips : tl.clips = xs ++ c :: ys) {d : Clip}
    (length : Measured (tl.clips.map Clip.stop) n) (early : Early d.stop) (fits : tenths d.stop ≤ n)
    (clips' : tl'.clips = xs ++ d :: ys) : ∃ room, tl'.length = .ok room ∧ room ≤ tenth n := by
  have ends : ∀ x ∈ tl'.clips.map Clip.stop, Early x ∧ tenths x ≤ n := by
    intro x mem
    obtain ⟨b,stored,rfl⟩ := List.mem_map.mp mem
    rcases memBetween.mp (clips' ▸ stored) with rfl | other
    · exact ⟨early,fits⟩
    · have kept := List.mem_map_of_mem (f := Clip.stop) (clips ▸ memBetween.mpr (.inr other))
      exact ⟨near.early _ kept,length.above _ kept⟩
  obtain ⟨m,length'⟩ : ∃ m, Measured (tl'.clips.map Clip.stop) m :=
    measured (by simp [clips']) fun x mem => (ends x mem).1
  refine ⟨tenth m,length'.length,tenthRises (by have := length'.least; omega) ?_
    (by have := length.small; omega)⟩
  rcases length'.reached with rfl | ⟨x,mem,rfl⟩
  · exact length.least
  · exact (ends x mem).2

end Timeline
namespace Desk

/-- The threshold may be any double. -/
theorem moveWithin {as : List Act} {c : Clip} (inside : ∀ a ∈ as, a.outside = false)
    (mem : c ∈ (({} : Desk).run as).timeline.clips)
    (times : ∀ d ∈ (({} : Desk).run as).timeline.clips, d.Timed ∧ d.stop < 1099511627776)
    {target : Float} (finite : target.isFinite = true) (threshold : Float) :
    let tl := (({} : Desk).run as).timeline
    let u := snapTime target (tl.boundaries c.id) threshold
    ∃ room l, tl.length = .ok room ∧ tl.proposeMove c.id target none threshold = .ok l ∧
      0 ≤ l.start ∧ l.start ≤ firstMax 0 (room - c.span) ∧ l.stop = l.start + c.span ∧
      (0 ≤ u → u ≤ firstMax 0 (room - c.span) → l.start = u) ∧
      ∀ d tl', l.apply tl = .ok (d,tl') → ∃ room', tl'.length = .ok room' ∧ room' ≤ room := by
  have kept := runChecked inside
  generalize (({} : Desk).run as).timeline = tl at *
  intro _ u
  have near : tl.Near := fun d stored =>
    ⟨Clip.soundOf (kept.clips d stored) (times d stored).1,(times d stored).2⟩
  obtain ⟨xs,ys,clips,apart⟩ := Timeline.splitBetween kept.ids mem
  obtain ⟨n,length⟩ := measured (by simpa using List.ne_nil_of_mem mem) near.early
  have proposed := Timeline.proposedBetween clips apart length.length target threshold
  rw [← Timeline.boundariesBetween clips apart] at proposed
  have number := Timeline.snappedNumber c.id threshold (fun d stored => (times d stored).1)
    (finiteNumber finite)
  obtain ⟨first,last⟩ := landedBounds (tenth n) c.span number
  refine ⟨tenth n,_,length.length,proposed,first,last,rfl,landedAt,fun d tl' applied => ?_⟩
  obtain ⟨sound,less⟩ := near c mem
  obtain ⟨early,fits⟩ := Clip.landedTenths sound (leOfLess less) length.least
    (near.measuredMost length) (length.above _ (List.mem_map_of_mem mem)) first last
  have stored := Timeline.retimedSource (Timeline.clipBetween clips apart) applied
  exact near.shorter clips length (d := c.windowed (_,_)) early fits
    (stored ▸ Timeline.retimedClips clips apart _)

def opening : Clip := ⟨"a","video","video",0.015625,5.046875,some "a.mp4",none,none⟩

/-- The clip spans more than the five seconds to which its end is rounded. -/
theorem openingWithin :
    let tl := (({} : Desk).run [.command 0 (.addClip opening)]).timeline
    opening ∈ tl.clips ∧ (∀ d ∈ tl.clips, d.Timed ∧ d.stop < 1099511627776) ∧
      (3 : Float).isFinite = true ∧ ∃ l, tl.proposeMove "a" 3 none 1 = .ok l ∧
        l = ⟨"a",0,5.03125⟩ ∧
        ∀ d tl', l.apply tl = .ok (d,tl') → ∃ room, tl'.length = .ok room ∧ room ≤ 5 := by
  intro tl
  have clips : tl.clips = [opening] := by decide +kernel
  have mem : opening ∈ tl.clips := by simp [clips]
  have times : ∀ d ∈ tl.clips, d.Timed ∧ d.stop < 1099511627776 := by
    simp only [clips,List.mem_singleton,forall_eq]
    exact ⟨⟨by decide,by decide⟩,by decide⟩
  have finite : (3 : Float).isFinite = true := by decide
  have inside : ∀ a ∈ [Act.command 0 (.addClip opening)], a.outside = false := by decide
  obtain ⟨room,l,length,proposed,_,_,_,_,shorter⟩ := moveWithin inside mem times finite 1
  have five : tl.length = .ok 5 := by decide +kernel
  have landed : tl.proposeMove "a" 3 none 1 = .ok ⟨"a",0,5.03125⟩ := by decide +kernel
  cases Except.ok.inj (length.symm.trans five)
  exact ⟨mem,times,finite,l,proposed,Except.ok.inj (proposed.symm.trans landed),shorter⟩

end Desk
end Montage
