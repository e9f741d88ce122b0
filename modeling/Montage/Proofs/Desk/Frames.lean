import Montage.Proofs.Desk.History
import Montage.Proofs.Gesture.Cancel
import Montage.Proofs.Timeline.Given

/-! Frames of a gesture. Of the moves before a frame only the last one counts. The frame uses it up,
so that another frame does nothing, and whatever stands around the clip of the gesture, the frame
changes its window and nothing else, but for the effects that the clip places. -/
namespace Montage

/-- The first clip of the landing's id is the one that moves, and all others stay as they are. -/
theorem Landing.applySource {tl tl' : Timeline} {l : Landing} {new : Clip}
    (ok : l.apply tl = .ok (new,tl')) : ∃ c xs ys, c.id = l.clip ∧ tl.clips = xs ++ c :: ys ∧
      (∀ e ∈ xs, e.id ≠ c.id) ∧ tl' = {
        clips := xs ++ { c with start := l.start, stop := l.stop } :: ys
        overlays := tl.overlays
        effects := tl.effects.map fun e =>
          if c.drives e.id then { e with start := l.start, stop := l.stop } else e } := by
  obtain ⟨c,found,_,_⟩ := Timeline.updateClipSource ok
  have same := Timeline.retimedSource found ok
  obtain ⟨named,xs,ys,clips,before⟩ := List.find?_eq_some_iff_append.mp found
  have id : c.id = l.clip := by simpa using named
  have apart : ∀ e ∈ xs, (e.id == c.id) = false := by simpa [id] using before
  refine ⟨c,xs,ys,id,clips,by simpa using apart,?_⟩
  rw [same,Timeline.retimed,Timeline.syncGives,clips,replacedBetween apart (by simp)]
  rfl

namespace Desk
variable {d : Desk} {i : Nat} {x y : Session} {w : Command} {r : Except Fault Reply} {tl : Timeline}

def moves (i : Nat) (ts : List Float) : List Act := ts.map fun t => .command i (.move t)

def answer (d : Desk) (i : Nat) (w : Command) : Except Fault Reply := ((d.studio i).step w).1

/-- The proposals after a reply. -/
def proposed (d : Desk) : Except Fault Reply → List Landing
  | .ok (.landing (some l)) => d.proposals ++ [l]
  | _ => d.proposals

theorem commandSet (present : d.sessions[i]? = some x)
    (step : (d.studio i).step w = (r,⟨tl,some y⟩)) :
    d.step (.command i w) = ⟨tl,d.sessions.set i y,d.proposed r⟩ := by
  obtain ⟨inside,_⟩ := List.getElem?_eq_some_iff.mp present
  dsimp only [Desk.step]
  rw [step]
  simp only [put,inside,if_true]
  rfl

theorem movedStep (present : d.sessions[i]? = some x) (busy : x.gesture ≠ .idle) (t : Float) :
    d.step (.command i (.move t)) =
      { d with sessions := d.sessions.set i { x with pending := some t } } := by
  have step : (d.studio i).step (.move t) =
      (.ok .done,⟨d.timeline,some { x with pending := some t }⟩) := by
    simp only [Studio.step,Studio.onSession,studio,present,Session.move,if_neg busy]
  exact commandSet present step

theorem movedRun (present : d.sessions[i]? = some x) (busy : x.gesture ≠ .idle) (ts : List Float)
    (t : Float) : d.run (moves i (ts ++ [t])) =
      { d with sessions := d.sessions.set i { x with pending := some t } } := by
  induction ts generalizing d x with
  | nil => exact movedStep present busy t
  | cons u ts ih =>
    obtain ⟨inside,_⟩ := List.getElem?_eq_some_iff.mp present
    change (d.step (.command i (.move u))).run (moves i (ts ++ [t])) = _
    rw [movedStep present busy u,ih (x := { x with pending := some u }) (by simp [inside]) busy,
      List.set_set]

theorem framedStep (present : d.sessions[i]? = some x) :
    (d.studio i).step .frame = ((x.frame d.timeline).result.map .landing,
      ⟨(x.frame d.timeline).timeline,some (x.frame d.timeline).session⟩) :=
  Studio.frameStep (s := d.studio i) present

theorem framedSet (present : d.sessions[i]? = some x) : d.step (.command i .frame) =
    ⟨(x.frame d.timeline).timeline,d.sessions.set i (x.frame d.timeline).session,
      d.proposed ((x.frame d.timeline).result.map .landing)⟩ :=
  commandSet present (framedStep present)

/-- With nothing noted a frame leaves the desk as it is. -/
theorem framedStill (present : d.sessions[i]? = some x) (none : x.pending = none) :
    d.answer i .frame = .ok (.landing .none) ∧ d.step (.command i .frame) = d := by
  have still : x.frame d.timeline = ⟨.ok .none,x,d.timeline⟩ := by
    unfold Session.frame
    rw [none]
  rw [answer,framedStep present,framedSet present,still]
  refine ⟨rfl,?_⟩
  dsimp only
  rw [setSame present]
  rfl

/-- What the frames of session `i`, which is as `x` says, come to on this desk. -/
structure Frames (d : Desk) (i : Nat) (x : Session) : Prop where
  burst : ∀ ts t,
    (d.run (moves i (ts ++ [t]))).answer i .frame = (d.run (moves i [t])).answer i .frame ∧
    (d.run (moves i (ts ++ [t]))).step (.command i .frame) =
      (d.run (moves i [t])).step (.command i .frame)
  again : (d.step (.command i .frame)).answer i .frame = .ok (.landing none) ∧
    (d.step (.command i .frame)).step (.command i .frame) = d.step (.command i .frame)
  landed : ∀ l, d.answer i .frame = .ok (.landing (some l)) → ∃ c xs ys w,
    x.gesture.origin? = some (c.id,w) ∧ l.clip = c.id ∧ d.timeline.clips = xs ++ c :: ys ∧
    (∀ e ∈ xs, e.id ≠ c.id) ∧ d.step (.command i .frame) = {
      timeline := {
        clips := xs ++ { c with start := l.start, stop := l.stop } :: ys
        overlays := d.timeline.overlays
        effects := d.timeline.effects.map fun e =>
          if c.drives e.id then { e with start := l.start, stop := l.stop } else e }
      sessions := d.sessions.set i { x with pending := none }
      proposals := d.proposals ++ [l] }
  refused : ∀ f, d.answer i .frame = .error f →
    d.step (.command i .frame) = { d with sessions := d.sessions.set i { x with pending := none } }

theorem framesOf (present : d.sessions[i]? = some x) (busy : x.gesture ≠ .idle) :
    d.Frames i x where
  burst ts t := by
    rw [movedRun present busy ts,← movedRun present busy [] t,List.nil_append]
    exact ⟨rfl,rfl⟩
  again := by
    obtain ⟨inside,_⟩ := List.getElem?_eq_some_iff.mp present
    refine framedStill (x := { x with pending := none }) ?_ rfl
    rw [framedSet present,Session.frameSession,if_neg busy]
    simp [inside]
  landed l answer := by
    rw [Desk.answer,framedStep present] at answer
    rw [framedSet present]
    have source := x.framed d.timeline
    generalize x.frame d.timeline = o at source answer
    cases source with
    | nothing still => cases answer
    | refused busy => cases answer
    | landed busy noted proposed applied =>
      cases answer
      obtain ⟨id,w,origin⟩ := Session.busyOrigin busy
      obtain ⟨c,xs,ys,named,clips,apart,rfl⟩ := Landing.applySource applied
      have aimed := Session.proposeClip origin proposed
      refine ⟨c,xs,ys,w,?_,named.symm,clips,apart,rfl⟩
      rw [named,aimed,origin]
  refused f answer := by
    rw [Desk.answer,framedStep present] at answer
    rw [framedSet present]
    have source := x.framed d.timeline
    generalize x.frame d.timeline = o at source answer
    cases source with
    | nothing still => cases answer
    | refused busy => rfl
    | landed busy noted proposed applied => cases answer

def gliding : List Act :=
  [.command 0 (.addEffect { id := "e", kind := "fade" }),
   .command 0 (.addClip ⟨"a","effect","effect",1,3,none,none,some "e"⟩),
   .command 0 (.addClip ⟨"b","video","video",0,8,some "b.mp4",none,none⟩),
   .command 0 (.openSession 1),
   .command 0 (.press "a" 1 none)]

def glided : Session := ⟨1,.dragging "a" 0 (1,3),none⟩

/-- The pointer is far away and nowhere before the frame finds it at four seconds. -/
theorem glidingFrames : (({} : Desk).run gliding).sessions[0]? = some glided ∧
    glided.gesture ≠ .idle ∧ (({} : Desk).run gliding).Frames 0 glided ∧
    (((({} : Desk).run gliding).run (moves 0 ([9,0 / 0] ++ [4]))).step
      (.command 0 .frame)).timeline.effects = [⟨"e","fade",50,4,6⟩] := by
  have present : (({} : Desk).run gliding).sessions[0]? = some glided := by decide +kernel
  have busy : glided.gesture ≠ .idle := by decide
  have frames := framesOf present busy
  refine ⟨present,busy,frames,?_⟩
  rw [(frames.burst [9,0 / 0] 4).2]
  decide +kernel

end Desk
end Montage
