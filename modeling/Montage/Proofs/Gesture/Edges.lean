import Montage.Proofs.Gesture.Resize

/-! The bounds of a resize. Whatever the doubles of a window are, as long as they are finite and in
order, the new window begins at zero or later and is half a second long, and the edge that was not
taken stays where it is. Taking half a second from an end and adding it again is all the arithmetic
there is, and leads never beyond that end. -/
namespace Montage
namespace Clip

/-- Finite times from zero on, the first no later than the second. -/
structure Bounded (c : Clip) : Prop where
  start : 0 ≤ c.start
  order : c.start ≤ c.stop
  finite : c.stop.isFinite = true

/-- Nothing but its window can have the clip refused. -/
def Usable (c : Clip) : Prop := ∃ w, (c.windowed w).check = .ok ()

variable {c : Clip} {t : Float}

namespace Bounded

theorem timed (bounded : c.Bounded) : c.Timed := numberOfLe bounded.order

theorem positive (bounded : c.Bounded) : 0 ≤ c.stop := leTrans bounded.start bounded.order

end Bounded

theorem resizedPositive (bounded : c.Bounded) (e : Edge) (t : Float) : 0 ≤ (c.resized e t).1 := by
  cases e with
  | left => exact leFirstMax rfl _
  | right => exact bounded.start

theorem resizedLong (bounded : c.Bounded) (e : Edge) (number : t.isNaN = false) :
    (c.resized e t).1 + 0.5 ≤ (c.resized e t).2 := by
  have longer := sumNumber (resizedPositive bounded e t) (y := 0.5) (by decide)
  cases e with
  | left => exact leFirstMaxRight bounded.timed.2 longer
  | right => exact leFirstMaxRight number longer

theorem resizedStop (bounded : c.Bounded) (least : 0.5 ≤ c.stop) (t : Float) :
    (c.resized .left t).2 = c.stop := by
  have back : (c.resized .left t).1 + 0.5 ≤ c.stop :=
    halfBack least bounded.finite (resizedPositive bounded .left t)
      (clampedLe (differenceLeast bounded.finite rfl least))
  exact if_neg ((notLtIff bounded.timed.2 (numberOfLe back).1).mpr back)

/-- A zero may come back with the other sign. -/
theorem resizedLeftAt (positive : 0 ≤ t) (inside : t ≤ c.stop - 0.5) :
    ((c.resized .left t).1 == t) = true := by
  have kept : firstMin t (c.stop - 0.5) = t :=
    if_neg ((notLtIff (numberOfLe inside).2 (numberOfLe inside).1).mpr inside)
  change (firstMax 0 (firstMin t (c.stop - 0.5)) == t) = true
  rw [kept]
  unfold firstMax
  split
  · exact beqSelf (numberOfLe positive).2
  · rename_i above
    exact beqOfLe positive ((notLtIff rfl (numberOfLe positive).2).mp above)

theorem resizedRightAt (inside : c.start + 0.5 ≤ t) : (c.resized .right t).2 = t :=
  if_neg ((notLtIff (numberOfLe inside).2 (numberOfLe inside).1).mpr inside)

theorem resizedNear (bounded : c.Bounded) (near : c.stop < 2251799813685248) (e : Edge)
    (t : Float) : (c.resized e t).1 < 2251799813685248 := by
  cases e with
  | right => exact lessOfLe bounded.order near
  | left =>
    by_cases short : c.stop < 0.5
    · change firstMax 0 (firstMin t (c.stop - 0.5)) < _
      rw [clampedZero (halfShort bounded.positive short)]
      decide
    · have least := (notLtIff bounded.timed.2 rfl).mp short
      have most := clampedLe (t := t) (differenceLeast bounded.finite rfl least)
      exact lessOfLe (leTrans most (leOfLess (halfBefore least near))) near

theorem resizedUsable (bounded : c.Bounded) (near : c.stop < 2251799813685248) (usable : c.Usable)
    (e : Edge) (number : t.isNaN = false) : (c.windowed (c.resized e t)).check = .ok () := by
  obtain ⟨w,sound⟩ := usable
  have first := resizedPositive bounded e t
  have more := halfMore first (resizedNear bounded near e t)
  have opens := resizedLong bounded e number
  refine checkWindow (c := c.windowed w) sound ((notLtIff (numberOfLe first).2 rfl).mpr first) fun empty => ?_
  exact (notLeIff (numberOfLess more).2 (numberOfLess more).1).mpr more (leTrans opens empty)

end Clip
namespace Timeline
variable {tl : Timeline} {c : Clip}

theorem clipOf {id : String} (found : tl.clip? id = some c) : tl.clip id = .ok c := by
  unfold clip
  rw [found]

theorem landedIff {id : String} {start stop : Float} (found : tl.clip? id = some c) :
    (∃ r, (⟨id,start,stop⟩ : Landing).apply tl = .ok r) ↔
      (c.windowed (start,stop)).check = .ok () := by
  obtain rfl := (foundClip found).2
  constructor
  · rintro ⟨⟨d,tl'⟩,ok⟩
    obtain ⟨old,found',patched,_⟩ := updateClipSource ok
    cases Option.some.inj (found.symm.trans found')
    obtain ⟨_,_,rfl,sound⟩ := patchSource patched
    exact sound
  · exact fun sound => ⟨_,retimedStored (w := (start,stop)) (clipOf found) sound⟩

/-- The window, and whether it is stored. -/
theorem resizeBounded (bounded : ∀ d ∈ tl.clips, d.Bounded) {id : String}
    (found : tl.clip? id = some c) (e : Edge) {t : Float} (finite : t.isFinite = true)
    (threshold : Float) :
    let u := snapTime t (tl.boundaries id) threshold
    ∃ l, tl.proposeResizeOf id e.name t threshold = .ok l ∧ 0 ≤ l.start ∧ l.start + 0.5 ≤ l.stop ∧
      (e = .right → l.start = c.start ∧ (c.start + 0.5 ≤ u → l.stop = u)) ∧
      (e = .left → (0.5 ≤ c.stop → l.stop = c.stop) ∧
        (0 ≤ u → u ≤ c.stop - 0.5 → (l.start == u) = true)) ∧
      (c.stop < 2251799813685248 → ((∃ r, l.apply tl = .ok r) ↔ c.Usable) ∧
        ∀ as : List Act, (∀ a ∈ as, a.outside = false) → tl = (({} : Desk).run as).timeline →
          ∃ r, l.apply tl = .ok r) := by
  intro u
  have window := bounded c (foundClip found).1
  have number : u.isNaN = false :=
    snappedNumber id threshold (fun d mem => (bounded d mem).timed) (finiteNumber finite)
  refine ⟨⟨id,(c.resized e u).1,(c.resized e u).2⟩,?_,Clip.resizedPositive window e u,
    Clip.resizedLong window e number,?_,?_,fun near => ?_⟩
  · rw [proposeResizeNamed,resizeFound (clipOf found)]
  · rintro rfl
    exact ⟨rfl,Clip.resizedRightAt⟩
  · rintro rfl
    exact ⟨(Clip.resizedStop window · u),Clip.resizedLeftAt⟩
  · have accepted : (∃ r, (⟨id,(c.resized e u).1,(c.resized e u).2⟩ : Landing).apply tl = .ok r) ↔
        c.Usable :=
      (landedIff found).trans ⟨fun sound => ⟨_,sound⟩,fun usable =>
        Clip.resizedUsable window near usable e number⟩
    refine ⟨accepted,fun as inside same => accepted.mpr ⟨(c.start,c.stop),?_⟩⟩
    exact (same ▸ Desk.runChecked inside).clips c (foundClip found).1

/-- The left edge of a clip of a quarter of a second, and the end that gives way. -/
theorem flashingBounded :
    let tl := (({} : Desk).run Studio.flashing).timeline
    (∀ d ∈ tl.clips, d.Bounded) ∧ tl.clip? "a" = some Studio.flash ∧
      (3 : Float).isFinite = true ∧ Studio.flash.stop < 2251799813685248 ∧
      (∀ a ∈ Studio.flashing, a.outside = false) ∧
      ∃ l, tl.proposeResizeOf "a" Edge.left.name 3 0.25 = .ok l ∧ l.start + 0.5 ≤ l.stop ∧
        ∃ r, l.apply tl = .ok r := by
  intro tl
  have clips : tl.clips =
      [Studio.flash,⟨"b","audio","audio",2,6,some "b.mp3",none,none⟩] := by decide +kernel
  have bounded : ∀ d ∈ tl.clips, d.Bounded := by
    rw [clips]
    simp only [List.mem_cons,List.not_mem_nil,or_false,forall_eq_or_imp,forall_eq]
    exact ⟨⟨by decide,by decide,by decide⟩,⟨by decide,by decide,by decide⟩⟩
  have found : tl.clip? "a" = some Studio.flash := by decide +kernel
  have inside : ∀ a ∈ Studio.flashing, a.outside = false := by decide
  have near : Studio.flash.stop < 2251799813685248 := by decide
  obtain ⟨l,proposed,_,long,_,_,stored⟩ := resizeBounded bounded found .left
    (show (3 : Float).isFinite = true by decide) 0.25
  exact ⟨bounded,found,by decide,near,inside,l,proposed,long,(stored near).2 _ inside rfl⟩

def misplacing : List Act :=
  [.command 0 (.addClip ⟨"a","video","video",1,4,some "a.mp4",none,none⟩),
   .command 0 (.overwriteClip "a" { track := some "cutaway" })]

/-- A clip put on a track that does not exist is resized in vain. -/
theorem misplacedRefused : ¬ ∀ (tl : Timeline) (c : Clip) (id : String) (e : Edge)
    (t threshold : Float), (∀ d ∈ tl.clips, d.Bounded) → tl.clip? id = some c →
      t.isFinite = true → threshold.isNaN = false →
      (∀ d ∈ tl.clips, d.stop < 2251799813685248) → t.abs < 2251799813685248 →
        ∃ l r, tl.proposeResizeOf id e.name t threshold = .ok l ∧ l.apply tl = .ok r := by
  intro accepts
  generalize at' : (({} : Desk).run misplacing).timeline = tl
  have clips : tl.clips = [⟨"a","cutaway","video",1,4,some "a.mp4",none,none⟩] := by
    rw [← at']
    decide +kernel
  have bounded : ∀ d ∈ tl.clips, d.Bounded := by
    rw [clips]
    simp only [List.mem_singleton,forall_eq]
    exact ⟨by decide,by decide,by decide⟩
  have found : tl.clip? "a" = some ⟨"a","cutaway","video",1,4,some "a.mp4",none,none⟩ := by
    rw [clip?,clips]
    rfl
  obtain ⟨l,r,proposed,stored⟩ := accepts tl _ "a" .right 5 1 bounded found (by decide) (by decide)
    (by simp only [clips,List.mem_singleton,forall_eq]; decide) (by decide)
  rw [proposeResizeNamed,resizeFound (clipOf found)] at proposed
  cases Except.ok.inj proposed
  have sound := (landedIff found).mp ⟨r,stored⟩
  simp [Clip.check,Clip.windowed,trackNames] at sound

end Timeline
end Montage
