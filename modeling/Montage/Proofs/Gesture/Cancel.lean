import Montage.Proofs.Gesture.Held
import Montage.Proofs.Desk.Sessions
import Montage.Proofs.Desk.Mirrored

/-! Cancelling. Whatever windows the frames of a gesture store, NaN included, they store them in the
clip that was pressed and in the effects that it places. Cancelling stores the window that the clip
had; it is also the one that its effects had, unless another clip gave them theirs. -/
namespace Montage
namespace Timeline
variable {tl tl' : Timeline} {xs ys : List Clip} {c : Clip}

/-- As it was when the clip was pressed, but for the last window that was stored in the clip. -/
def Retimed (tl : Timeline) (c : Clip) (tl' : Timeline) : Prop :=
  tl' = tl ∨ ∃ w, tl' = tl.retimed c w

theorem Retimed.between (retimed : tl.Retimed c tl') (clips : tl.clips = xs ++ c :: ys)
    (apart : ∀ d ∈ xs ++ ys, d.id ≠ c.id) :
    ∃ w, tl'.clips = xs ++ c.windowed w :: ys ∧
      ∀ v, tl'.retimed (c.windowed w) v = tl.retimed c v := by
  rcases retimed with rfl | ⟨w,rfl⟩
  · exact ⟨(c.start,c.stop),clips,fun v => rfl⟩
  · exact ⟨w,retimedClips clips apart w,retimedAgain clips apart w⟩

theorem Retimed.landed (retimed : tl.Retimed c tl') (clips : tl.clips = xs ++ c :: ys)
    (apart : ∀ d ∈ xs ++ ys, d.id ≠ c.id) {l : Landing} {d : Clip} {tl₁ : Timeline}
    (aimed : l.clip = c.id) (applied : l.apply tl' = .ok (d,tl₁)) : tl.Retimed c tl₁ := by
  obtain ⟨w,clips',again⟩ := retimed.between clips apart
  have found : tl'.clip? l.clip = some (c.windowed w) := aimed ▸ clipBetween clips' apart
  exact .inr ⟨(l.start,l.stop),(retimedSource found applied).trans (again _)⟩

theorem proposeMoveClip {id : String} {start threshold : Float} {length : Option Float} {l : Landing}
    (ok : tl.proposeMove id start length threshold = .ok l) : l.clip = id := by
  obtain ⟨c,_,ok⟩ := bindOk ok
  split at ok
  · cases Except.ok.inj ok
    rfl
  · obtain ⟨whole,_,last⟩ := bindOk ok
    cases Except.ok.inj last
    rfl

theorem proposeResizeClip {id : String} {e : Edge} {t threshold : Float} {l : Landing}
    (ok : tl.proposeResize id e t threshold = .ok l) : l.clip = id := by
  obtain ⟨c,_,ok⟩ := bindOk ok
  cases e <;> (cases Except.ok.inj ok; rfl)

theorem Mirrored.sync (mirrored : tl.Mirrored) (single : tl.Single) (mem : c ∈ tl.clips) :
    tl.sync c = tl := by
  have same : tl.effects.map c.gives = tl.effects.map id := by
    refine List.map_congr_left fun e stored => ?_
    cases drives : c.drives e.id with
    | true =>
      obtain ⟨start,stop⟩ := mirrored.window single stored mem drives
      simp [Clip.gives,← start,← stop]
    | false => exact givesApart drives
  rw [syncGives,same,List.map_id]

end Timeline
namespace Session
variable {x : Session} {tl tl' : Timeline} {xs ys : List Clip} {c : Clip} {w : Float × Float}

theorem proposeClip {id : String} {t : Float} {l : Landing} (noted : x.gesture.origin? = some (id,w))
    (ok : x.propose tl t = .ok (some l)) : l.clip = id := by
  unfold propose at ok
  cases gesture : x.gesture with
  | idle => exact (idleOrigin gesture noted).elim
  | dragging i grab origin =>
    rw [gesture] at ok noted
    cases noted
    obtain ⟨landing,ok,same⟩ := mapOk ok
    cases Option.some.inj same
    exact Timeline.proposeMoveClip ok
  | resizing i edge origin =>
    rw [gesture] at ok noted
    cases noted
    obtain ⟨landing,ok,same⟩ := mapOk ok
    cases Option.some.inj same
    exact Timeline.proposeResizeClip ok

theorem frameRetimed (noted : x.gesture.origin? = some (c.id,w)) (retimed : tl.Retimed c tl')
    (clips : tl.clips = xs ++ c :: ys) (apart : ∀ d ∈ xs ++ ys, d.id ≠ c.id) :
    tl.Retimed c (x.frame tl').timeline := by
  have source := framed x tl'
  generalize x.frame tl' = o at source
  cases source with
  | nothing still => exact retimed
  | refused busy => exact retimed
  | landed busy at' proposed applied =>
    exact retimed.landed clips apart (proposeClip noted proposed) applied

theorem cancelRetimed (noted : x.gesture.origin? = some (c.id,c.start,c.stop))
    (retimed : tl.Retimed c tl') (sound : c.check = .ok ()) (clips : tl.clips = xs ++ c :: ys)
    (apart : ∀ d ∈ xs ++ ys, d.id ≠ c.id) :
    x.cancel tl' = ⟨.ok (),⟨x.threshold,.idle,none⟩,tl.sync c⟩ := by
  obtain ⟨w,clips',again⟩ := retimed.between clips apart
  have found := Timeline.clipOkBetween clips' apart
  rw [cancelStored (c := c.windowed w) noted found sound,again,Timeline.retimedBack clips apart]

end Session
namespace Studio
variable {c : Clip} {x : Session}

/-- Without a gesture the pointer does nothing. -/
theorem idleRun {s : Studio} {ws : List Command} {N : Float → Prop} (present : s.session = some x)
    (ended : x.Ended) (hovers : ∀ w ∈ ws, w.hovers N) : s.run ws = s := by
  induction ws with
  | nil => rfl
  | cons w ws ih =>
    obtain ⟨first,rest⟩ := List.forall_mem_cons.mp hovers
    have same : (s.step w).2 = s := by
      cases w with
      | move t =>
        simp only [step,onSession,present,Session.move,ended.gesture,if_true]
        rw [← present]
      | frame =>
        rw [frameStep present,ended.same,Session.frameNothing,← ended.same,← present]
      | _ => cases first
    change (s.step w).2.run ws = s
    rw [same,ih rest]

/-- What there was when the clip was pressed is there again, with the effects of the clip at its
window. -/
theorem cancelRestored {as : List Act} {ws : List Command} (inside : ∀ a ∈ as, a.outside = false)
    (opened : x ∈ (({} : Desk).run as).sessions) (idle : x.gesture = .idle)
    (mem : c ∈ (({} : Desk).run as).timeline.clips) (hovers : ∀ w ∈ ws, w.hovers fun _ => True)
    (t : Float) (handle : Option String) :
    let s : Studio := ⟨(({} : Desk).run as).timeline,some x⟩
    ∃ tl, (s.run (.press c.id t handle :: ws)).step .cancel = (.ok .done,⟨tl,some x⟩) ∧ x.Ended ∧
      (tl = s.timeline ∨ tl = s.timeline.sync c) ∧
      (s.timeline.Single → s.timeline.Mirrored → tl = s.timeline) := by
  have kept := Desk.runChecked inside
  have ended := (Desk.sessionsRegular inside x opened).settled idle
  generalize (({} : Desk).run as).timeline = tl at *
  intro s
  obtain ⟨xs,ys,clips,apart⟩ := Timeline.splitBetween kept.ids mem
  have found := Timeline.clipOkBetween clips apart
  rcases handleCases handle with ⟨h,rfl⟩ | ⟨name,rfl,unknown⟩
  · have frames (tl' : Timeline) (retimed : tl.Retimed c tl') (u : Float) (_ : True) :
        tl.Retimed c ((⟨x.threshold,c.grabbed t h,some u⟩ : Session).frame tl').timeline :=
      Session.frameRetimed (c.grabbedOrigin t h) retimed clips apart
    have begun : Held (tl.Retimed c) (fun _ => True) x.threshold (c.grabbed t h)
        (s.step (.press c.id t (h.map Edge.name))).2 := by
      rw [pressStepGrabbed idle found]
      exact ⟨.inl rfl,none,rfl,by simp⟩
    obtain ⟨retimed,pending,present,_⟩ := runHeld frames hovers begun
    refine ⟨tl.sync c,?_,ended,.inr rfl,fun single mirrored => mirrored.sync single mem⟩
    change ((s.step (.press c.id t (h.map Edge.name))).2.run ws).step .cancel = _
    rw [cancelStep present,Session.cancelRetimed (c.grabbedOrigin t h) retimed (kept.clips c mem)
      clips apart,ended.same]
    rfl
  · have refused : (s.step (.press c.id t (some name))).2 = s := by
      simp only [s,step,onSession,Session.pressMisused idle found unknown]
    refine ⟨tl,?_,ended,.inl rfl,fun _ _ => rfl⟩
    change ((s.step (.press c.id t (some name))).2.run ws).step .cancel = _
    rw [refused,idleRun (s := s) rfl ended hovers,cancelStep (s := s) rfl,Session.cancelIdle idle]
    rfl

def dimmed : Clip := ⟨"a","effect","effect",1,3,none,none,some "e"⟩

def dimming : List Act :=
  [.command 0 (.addEffect { id := "e", kind := "fade" }),
   .command 0 (.addClip dimmed),
   .command 0 (.openSession 1)]

def straying : List Command := [.move 9,.frame,.move (0 / 0),.frame,.move 3,.frame]

/-- One frame stores a later window, the next one NaN, and the last is refused. -/
theorem dimmingRestored :
    let s : Studio := ⟨(({} : Desk).run dimming).timeline,some {}⟩
    (∀ a ∈ dimming, a.outside = false) ∧ s.timeline.Single ∧ s.timeline.Mirrored ∧
    (s.run (.press "a" 2 none :: straying)).timeline.effects.map (·.start.isNaN) = [true] ∧
    (s.run (.press "a" 2 none :: straying)).step .cancel = (.ok .done,s) := by
  intro s
  have inside : ∀ a ∈ dimming, a.outside = false := by decide
  have clips : s.timeline.clips = [dimmed] := by decide +kernel
  have effects : s.timeline.effects = [⟨"e","fade",50,1,3⟩] := by decide +kernel
  have single : s.timeline.Single := by decide +kernel
  have mirrored : s.timeline.Mirrored := by
    simp [Timeline.Mirrored,Timeline.clipForEffect,Clip.drives,clips,effects,dimmed]
  have opened : ({} : Session) ∈ (({} : Desk).run dimming).sessions := by decide +kernel
  have hovers : ∀ w ∈ straying, w.hovers fun _ => True := by simp [straying,Command.hovers]
  have mem : dimmed ∈ s.timeline.clips := by simp [clips]
  obtain ⟨tl,restored,_,_,same⟩ := cancelRestored inside opened rfl mem hovers 2 none
  cases same single mirrored
  exact ⟨inside,single,mirrored,by decide +kernel,restored⟩

end Studio
end Montage
