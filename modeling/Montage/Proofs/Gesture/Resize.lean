import Montage.Proofs.Double.Half
import Montage.Proofs.Gesture.Held
import Montage.Proofs.Desk

/-! Resizing over several frames. A frame moves one edge; the other stays, or comes to stay at half
a second where the clip ended before that. As no clip is drawn to its own edges, the next frame
then makes the window that it would have made without this one. -/
namespace Montage
namespace Clip

/-- The window with the edge `e` at `t`, or as near to it as the other edge allows. -/
def resized (c : Clip) (e : Edge) (t : Float) : Float × Float :=
  match e with
  | .left =>
    let start := firstMax 0 (firstMin t (c.stop - leastSpan))
    (start,firstMax c.stop (start + leastSpan))
  | .right => (c.start,firstMax t (c.start + leastSpan))

/-- A stored clip with a window of numbers that ends before `2 ^ 51`. -/
structure Near (c : Clip) : Prop where
  sound : c.check = .ok ()
  timed : c.Timed
  near : c.stop < 2251799813685248

variable {c : Clip} {e : Edge} {t u : Float}

namespace Near

theorem window (near : c.Near) : 0 ≤ c.start ∧ c.start < c.stop := by
  have sound := soundOf near.sound near.timed
  exact ⟨sound.start,sound.window⟩

theorem positive (near : c.Near) : 0 ≤ c.stop := leTrans near.window.1 (leOfLess near.window.2)

/-- Where the clip ends once its left edge has been resized. -/
theorem stop (near : c.Near) :
    0.5 ≤ firstMax c.stop 0.5 ∧ firstMax c.stop 0.5 < 2251799813685248 := by
  refine ⟨leFirstMaxRight near.timed.2 rfl,?_⟩
  unfold firstMax
  split
  · decide
  · exact near.near

end Near

theorem resizedLeft (near : c.Near) (t : Float) :
    c.resized .left t =
      (firstMax 0 (firstMin t (firstMax c.stop 0.5 - 0.5)),firstMax c.stop 0.5) := by
  unfold resized leastSpan
  by_cases short : c.stop < 0.5
  · have half : firstMax c.stop 0.5 = 0.5 := if_pos short
    dsimp only
    rw [half,clampedZero (halfShort near.positive short),
      clampedZero (b := 0.5 - 0.5) (by decide +kernel),show (0 : Float) + 0.5 = 0.5 by decide +kernel,
      half]
  · have same : firstMax c.stop 0.5 = c.stop := if_neg short
    have least := (notLtIff near.timed.2 rfl).mp short
    have finite := finiteNear near.positive near.near
    have back := halfBack least finite (leFirstMax rfl (firstMin t (c.stop - 0.5)))
      (clampedLe (differenceLeast finite rfl least))
    have kept : firstMax c.stop (firstMax 0 (firstMin t (c.stop - 0.5)) + 0.5) = c.stop :=
      if_neg ((notLtIff near.timed.2 (numberOfLe back).1).mpr back)
    dsimp only
    rw [same,kept]

theorem resizedSound (near : c.Near) (e : Edge) (t : Float) :
    (c.windowed (c.resized e t)).check = .ok () := by
  obtain ⟨first,window⟩ := near.window
  cases e with
  | left =>
    obtain ⟨least,below⟩ := near.stop
    have positive := differenceLeast (finiteNear (leTrans (by decide) least) below) rfl least
    have before := halfBefore least below
    have start := leFirstMax (rfl : (0 : Float).isNaN = false)
      (firstMin t (firstMax c.stop 0.5 - 0.5))
    have most := clampedLe (t := t) positive
    rw [resizedLeft near]
    refine checkWindow near.sound ((notLtIff (numberOfLe start).2 rfl).mpr start) fun empty => ?_
    exact (notLeIff (numberOfLess before).2 (numberOfLe most).2).mpr before (leTrans empty most)
  | right =>
    have more := halfMore first (lessOfLe (leOfLess window) near.near)
    refine checkWindow near.sound (checkSource near.sound).2.2.1 fun empty => ?_
    change firstMax t (c.start + 0.5) ≤ c.start at empty
    unfold firstMax at empty
    split at empty
    · exact (notLeIff (numberOfLess more).2 (numberOfLess more).1).mpr more empty
    · rename_i later
      exact later (lessOfLe empty more)

/-- The edge that stays is where a second resize finds it. -/
theorem resizedAgain (near : c.Near) (e : Edge) (t u : Float) :
    (c.windowed (c.resized e t)).resized e u = c.resized e u := by
  cases e with
  | right => rfl
  | left =>
    have stop : (c.windowed (c.resized .left t)).stop = firstMax c.stop 0.5 := by
      rw [resizedLeft near]
      rfl
    have near' : (c.windowed (c.resized .left t)).Near := by
      refine ⟨resizedSound near .left t,⟨firstMaxNumber rfl _,?_⟩,?_⟩
      · rw [stop]
        exact firstMaxNumber near.timed.2 _
      · rw [stop]
        exact near.stop.2
    rw [resizedLeft near',stop,firstMaxAgain,resizedLeft near]

end Clip
namespace Timeline
variable {tl tl' : Timeline} {xs ys : List Clip} {c : Clip} {e : Edge} {threshold : Float}

theorem resizeFound {id : String} (found : tl.clip id = .ok c) (e : Edge) (t threshold : Float) :
    tl.proposeResize id e t threshold =
      .ok ⟨id,(c.resized e (snapTime t (tl.boundaries id) threshold)).1,
        (c.resized e (snapTime t (tl.boundaries id) threshold)).2⟩ := by
  unfold proposeResize
  rw [found]
  cases e <;> rfl

theorem resizeBetween (clips : tl.clips = xs ++ c :: ys) (apart : ∀ d ∈ xs ++ ys, d.id ≠ c.id)
    (e : Edge) (t threshold : Float) :
    tl.proposeResize c.id e t threshold =
      .ok ⟨c.id,(c.resized e (snapTime t (edges (xs ++ ys)) threshold)).1,
        (c.resized e (snapTime t (edges (xs ++ ys)) threshold)).2⟩ := by
  rw [resizeFound (clipOkBetween clips apart),boundariesBetween clips apart]

/-- As it was when the clip was pressed, but for the last window that a resize has stored. -/
def Resized (tl : Timeline) (c : Clip) (e : Edge) (tl' : Timeline) : Prop :=
  tl' = tl ∨ ∃ t, tl' = tl.retimed c (c.resized e t)

theorem Resized.landed (resized : tl.Resized c e tl') (near : c.Near)
    (clips : tl.clips = xs ++ c :: ys) (apart : ∀ d ∈ xs ++ ys, d.id ≠ c.id) {t : Float}
    {w : Float × Float} (aimed : c.resized e (snapTime t (edges (xs ++ ys)) threshold) = w) :
    tl'.proposeResize c.id e t threshold = .ok ⟨c.id,w.1,w.2⟩ ∧
      (⟨c.id,w.1,w.2⟩ : Landing).apply tl' = .ok (c.windowed w,tl.retimed c w) := by
  have sound : (c.windowed w).check = .ok () := aimed ▸ Clip.resizedSound near e _
  rcases resized with rfl | ⟨v,rfl⟩
  · exact ⟨aimed ▸ resizeBetween clips apart e t threshold,
      retimedStored (clipOkBetween clips apart) sound⟩
  · have clips' := retimedClips clips apart (c.resized e v)
    have proposed := resizeBetween clips' apart e t threshold
    have applied := retimedStored (w := w) (clipOkBetween clips' apart) sound
    rw [Clip.resizedAgain near,aimed] at proposed
    rw [retimedAgain clips apart] at applied
    exact ⟨proposed,applied⟩

theorem proposeResizeNamed (tl : Timeline) (id : String) (e : Edge) (t threshold : Float) :
    tl.proposeResizeOf id e.name t threshold = tl.proposeResize id e t threshold := by
  unfold proposeResizeOf
  rw [Edge.ofName?_name]

/-- A frame leaves the same timeline whatever windows were stored before it. -/
theorem Resized.framed (near : c.Near) (clips : tl.clips = xs ++ c :: ys)
    (apart : ∀ d ∈ xs ++ ys, d.id ≠ c.id) (e : Edge) (p t threshold : Float) :
    ∃ l tl₁, tl.Resized c e tl₁ ∧ ∀ tl', tl.Resized c e tl' →
      (⟨threshold,c.grabbed p (some e),some t⟩ : Session).frame tl' =
        ⟨.ok (some l),⟨threshold,c.grabbed p (some e),none⟩,tl₁⟩ := by
  generalize aimed : c.resized e (snapTime t (edges (xs ++ ys)) threshold) = w
  refine ⟨⟨c.id,w.1,w.2⟩,tl.retimed c w,.inr ⟨_,congrArg _ aimed.symm⟩,fun tl' resized => ?_⟩
  obtain ⟨proposed,applied⟩ := resized.landed near clips apart aimed
  exact Session.frameLanded (c.grabbedBusy p (some e)) (congrArg (Except.map some) proposed) applied

end Timeline
namespace Studio
variable {tl : Timeline} {xs ys : List Clip} {c : Clip} {x : Session} {s : Studio}

theorem resizeFrames (near : c.Near) (clips : tl.clips = xs ++ c :: ys)
    (apart : ∀ d ∈ xs ++ ys, d.id ≠ c.id) (e : Edge) (p threshold : Float) :
    ∀ tl', tl.Resized c e tl' → ∀ t, True → tl.Resized c e
      ((⟨threshold,c.grabbed p (some e),some t⟩ : Session).frame tl').timeline := by
  intro tl' resized t _
  obtain ⟨l,tl₁,after,framed⟩ := Timeline.Resized.framed near clips apart e p t threshold
  exact framed tl' resized ▸ after

theorem resizeAnswers (near : c.Near) (clips : tl.clips = xs ++ c :: ys)
    (apart : ∀ d ∈ xs ++ ys, d.id ≠ c.id) (e : Edge) (p threshold : Float) :
    ∀ tl', tl.Resized c e tl' → ∀ t, True → ∃ l,
      ((⟨threshold,c.grabbed p (some e),some t⟩ : Session).frame tl').result = .ok l := by
  intro tl' resized t _
  obtain ⟨l,tl₁,_,framed⟩ := Timeline.Resized.framed near clips apart e p t threshold
  exact ⟨some l,congrArg Outcome.result (framed tl' resized)⟩

/-- The release comes to the same from every state that the gesture may be in. -/
theorem resizeReleased (near : c.Near) (clips : tl.clips = xs ++ c :: ys)
    (apart : ∀ d ∈ xs ++ ys, d.id ≠ c.id) (e : Edge) (p q threshold : Float) :
    ∃ a s₁, ∀ s, Held (tl.Resized c e) (fun _ => True) threshold (c.grabbed p (some e)) s →
      s.step (.release (some q)) = (.ok a,s₁) := by
  obtain ⟨l,tl₁,_,framed⟩ := Timeline.Resized.framed near clips apart e p q threshold
  refine ⟨.landing (some l),⟨tl₁,some ⟨threshold,.idle,none⟩⟩,fun s held => ?_⟩
  obtain ⟨resized,pending,present,_⟩ := held
  rw [releaseHeld (c.grabbedBusy p (some e)) present,framed _ resized]
  rfl

/-- The frames between make no difference at all, and none of them is refused. -/
theorem resizeSettled {as : List Act} {ws : List Command} (inside : ∀ a ∈ as, a.outside = false)
    (idle : x.gesture = .idle) (mem : c ∈ (({} : Desk).run as).timeline.clips) (timed : c.Timed)
    (near : c.stop < 2251799813685248) (hovers : ∀ w ∈ ws, w.hovers fun _ => True) (p q : Float)
    (e : Edge) :
    let s : Studio := ⟨(({} : Desk).run as).timeline,some x⟩
    let press : Command := .press c.id p (some e.name)
    let release : Command := .release (some q)
    (∀ r ∈ s.replies (press :: ws ++ [release]), ∃ a, r = .ok a) ∧
      s.run (press :: ws ++ [release]) = s.run [press,release] ∧
      ∀ t threshold, ∃ l d tl,
        s.timeline.proposeResizeOf c.id e.name t threshold = .ok l ∧
        l.apply s.timeline = .ok (d,tl) ∧ l.apply tl = .ok (d,tl) ∧
        tl.proposeResizeOf c.id e.name t threshold = .ok l := by
  have kept := Desk.runChecked inside
  generalize (({} : Desk).run as).timeline = tl at *
  intro s press release
  have close : c.Near := ⟨kept.clips c mem,timed,near⟩
  obtain ⟨xs,ys,clips,apart⟩ := Timeline.splitBetween kept.ids mem
  have pressed : s.step press = (.ok .done,⟨tl,some ⟨x.threshold,c.grabbed p (some e),none⟩⟩) :=
    pressStepGrabbed idle (Timeline.clipOkBetween clips apart) p (some e)
  have begun : Held (tl.Resized c e) (fun _ => True) x.threshold (c.grabbed p (some e))
      (s.step press).2 := pressed ▸ ⟨.inl rfl,none,rfl,by simp⟩
  have frames := resizeFrames close clips apart e p x.threshold
  have answers := resizeAnswers close clips apart e p x.threshold
  obtain ⟨a,s₁,released⟩ := resizeReleased close clips apart e p q x.threshold
  have held := runHeld frames hovers begun
  refine ⟨?_,?_,fun t threshold => ?_⟩
  · rw [List.cons_append]
    refine List.forall_mem_cons.mpr ⟨⟨_,congrArg Prod.fst pressed⟩,?_⟩
    rw [repliesAppend]
    refine List.forall_mem_append.mpr ⟨runAnswered frames answers hovers begun,?_⟩
    simp only [replies,List.mem_singleton,forall_eq]
    exact ⟨a,congrArg Prod.fst (released _ held)⟩
  · change (s.step press).2.run (ws ++ [release]) = ((s.step press).2.step release).2
    rw [run_append]
    change (((s.step press).2.run ws).step release).2 = _
    rw [released _ held,released _ begun]
  · generalize aimed : c.resized e (snapTime t (edges (xs ++ ys)) threshold) = w
    have once : tl.Resized c e tl := .inl rfl
    have twice : tl.Resized c e (tl.retimed c w) := .inr ⟨_,congrArg _ aimed.symm⟩
    obtain ⟨proposed,applied⟩ := once.landed close clips apart aimed
    obtain ⟨proposed',applied'⟩ := twice.landed close clips apart aimed
    simp only [Timeline.proposeResizeNamed]
    exact ⟨_,_,_,proposed,applied,applied',proposed'⟩

def flash : Clip := ⟨"a","effect","effect",0,0.25,none,none,some "e"⟩

def flashing : List Act :=
  [.command 0 (.addEffect { id := "e", kind := "fade" }),
   .command 0 (.addClip flash),
   .command 0 (.addClip ⟨"b","audio","audio",2,6,some "b.mp3",none,none⟩)]

def wandering : List Command := [.move 9,.frame,.move 1.5,.frame]

/-- The clip is half a second long after the first frame, and after the others. -/
theorem flashingSettled :
    (∀ a ∈ flashing, a.outside = false) ∧ flash ∈ (({} : Desk).run flashing).timeline.clips ∧
    flash.Timed ∧ flash.stop < 2251799813685248 ∧ (∀ w ∈ wandering, w.hovers fun _ => True) ∧
    ((⟨(({} : Desk).run flashing).timeline,some {}⟩ : Studio).run
      (.press "a" 0 (some "left") :: wandering ++ [.release (some 0)])).timeline.clips.map
        (fun c => (c.id,c.start,c.stop)) = [("a",0,0.5),("b",2,6)] := by
  have inside : ∀ a ∈ flashing, a.outside = false := by decide
  have mem : flash ∈ (({} : Desk).run flashing).timeline.clips := by decide +kernel
  have timed : flash.Timed := ⟨by decide,by decide⟩
  have near : flash.stop < 2251799813685248 := by decide
  have hovers : ∀ w ∈ wandering, w.hovers fun _ => True := by simp [wandering,Command.hovers]
  have same : (⟨(({} : Desk).run flashing).timeline,some {}⟩ : Studio).run
      (.press "a" 0 (some "left") :: wandering ++ [.release (some 0)]) =
      (⟨(({} : Desk).run flashing).timeline,some {}⟩ : Studio).run
        [.press "a" 0 (some "left"),.release (some 0)] :=
    (resizeSettled (x := {}) inside rfl mem timed near hovers 0 0 .left).2.1
  refine ⟨inside,mem,timed,near,hovers,?_⟩
  rw [same]
  decide +kernel

end Studio
end Montage
