import Montage.Proofs.Timeline.Between
import Montage.Studio

/-! Where events leave a session. A frame uses up what is noted, a release ends the gesture whatever
becomes of its frame, and a cancelled gesture ends if its clip is still there to be put back: the
window that was noted when it began had passed its check. -/
namespace Montage

/-- The clip of a gesture and the window that the clip had when it was pressed. -/
def Gesture.origin? : Gesture → Option (String × Float × Float)
  | idle => none
  | dragging id _ origin => some (id,origin)
  | resizing id _ origin => some (id,origin)

namespace Session

structure Ended (x : Session) : Prop where
  gesture : x.gesture = .idle
  pending : x.pending = none

structure Regular (x : Session) : Prop where
  settled : x.gesture = .idle → x.Ended
  origin : ∀ id w, x.gesture.origin? = some (id,w) → ¬ w.1 < 0 ∧ ¬ w.2 ≤ w.1

variable {x y : Session} {tl : Timeline} {id : String} {t : Float} {w : Float × Float}

theorem Ended.same (ended : x.Ended) : x = ⟨x.threshold,.idle,none⟩ := by
  rw [← ended.gesture,← ended.pending]

theorem idleOrigin (gesture : x.gesture = .idle) (noted : x.gesture.origin? = some (id,w)) :
    False := by
  rw [gesture] at noted
  cases noted

theorem busyOrigin (busy : x.gesture ≠ .idle) : ∃ id w, x.gesture.origin? = some (id,w) := by
  cases gesture : x.gesture with
  | idle => exact absurd gesture busy
  | dragging id grab origin => exact ⟨id,origin,rfl⟩
  | resizing id edge origin => exact ⟨id,origin,rfl⟩

theorem endedRegular (threshold : Float) : Regular ⟨threshold,.idle,none⟩ :=
  ⟨fun _ => ⟨rfl,rfl⟩,fun _ _ noted => nomatch noted⟩

theorem pressRegular {handle : Option String} (checked : ∀ c ∈ tl.clips, c.check = .ok ())
    (ok : x.press tl id t handle = .ok y) : y.Regular := by
  unfold press at ok
  obtain ⟨_,ok⟩ := guardOk ok
  obtain ⟨c,found,ok⟩ := bindOk ok
  have sound := Clip.checkSource
    (checked c (Timeline.foundClip (Timeline.clipFound found)).1)
  have window : ∀ i w, some (id,c.start,c.stop) = some (i,w) → ¬ w.1 < 0 ∧ ¬ w.2 ≤ w.1 := by
    rintro i w same
    cases same
    exact ⟨sound.2.2.1,sound.2.2.2.1⟩
  split at ok
  · cases Except.ok.inj ok
    exact ⟨(nomatch ·),window⟩
  · split at ok
    · cases Except.ok.inj ok
      exact ⟨(nomatch ·),window⟩
    · cases ok

theorem notedRegular (regular : x.Regular) (busy : x.gesture ≠ .idle) (pending : Option Float) :
    { x with pending }.Regular :=
  ⟨fun idle => absurd idle busy,regular.origin⟩

theorem moveRegular (regular : x.Regular) (t : Float) : (x.move t).Regular := by
  unfold move
  split
  · exact regular
  · exact notedRegular regular ‹_› _

/-- What a frame can come to. -/
inductive Framed (x : Session) (tl : Timeline) : Outcome (Option Landing) → Prop where
  | nothing (still : x.gesture = .idle ∨ x.pending = none) : Framed x tl ⟨.ok none,x,tl⟩
  | refused {f : Fault} (busy : x.gesture ≠ .idle) :
      Framed x tl ⟨.error f,{ x with pending := none },tl⟩
  | landed {t : Float} {l : Landing} {c : Clip} {tl' : Timeline} (busy : x.gesture ≠ .idle)
      (noted : x.pending = some t) (proposed : x.propose tl t = .ok (some l))
      (applied : l.apply tl = .ok (c,tl')) :
      Framed x tl ⟨.ok (some l),{ x with pending := none },tl'⟩

theorem proposeSome (busy : x.gesture ≠ .idle) : x.propose tl t ≠ .ok none := by
  intro nothing
  unfold propose at nothing
  cases gesture : x.gesture with
  | idle => exact busy gesture
  | dragging id grab origin =>
    rw [gesture] at nothing
    obtain ⟨l,_,same⟩ := mapOk nothing
    cases same
  | resizing id edge origin =>
    rw [gesture] at nothing
    obtain ⟨l,_,same⟩ := mapOk nothing
    cases same

theorem framed (x : Session) (tl : Timeline) : x.Framed tl (x.frame tl) := by
  unfold frame
  split
  · exact .nothing (.inr ‹_›)
  split
  · exact .nothing (.inl ‹_›)
  rename_i t noted busy
  dsimp only
  split
  · exact .refused busy
  · exact absurd ‹_› (proposeSome busy)
  rename_i l proposed
  split
  · exact .refused busy
  · exact .landed busy noted proposed ‹_›

theorem frameSession (x : Session) (tl : Timeline) :
    (x.frame tl).session = if x.gesture = .idle then x else { x with pending := none } := by
  have source := framed x tl
  generalize x.frame tl = o at source
  cases source with
  | nothing still =>
    split
    · rfl
    · rename_i busy
      rw [← still.resolve_left busy]
  | refused busy => rw [if_neg busy]
  | landed busy noted proposed applied => rw [if_neg busy]

theorem frameRegular (regular : x.Regular) (tl : Timeline) : (x.frame tl).session.Regular := by
  rw [frameSession]
  split
  · exact regular
  · exact notedRegular regular ‹_› none

theorem releaseSession (x : Session) (tl : Timeline) (t : Option Float) :
    (x.release tl t).session = if x.gesture = .idle then x else ⟨x.threshold,.idle,none⟩ := by
  unfold release
  split
  · rfl
  · rename_i busy
    dsimp only
    rw [frameSession,if_neg busy]

theorem cancelIdle (gesture : x.gesture = .idle) (tl : Timeline) :
    x.cancel tl = ⟨.ok (),x,tl⟩ := by
  unfold cancel
  rw [gesture]

/-- Cancelling by the update that puts the window back. -/
theorem cancelBusy (noted : x.gesture.origin? = some (id,w)) (tl : Timeline) :
    x.cancel tl = match tl.updateClip id { start := some w.1, stop := some w.2 } with
      | .error f => ⟨.error f,x,tl⟩
      | .ok (_,tl') => ⟨.ok (),⟨x.threshold,.idle,none⟩,tl'⟩ := by
  unfold cancel
  cases gesture : x.gesture with
  | idle => exact (idleOrigin gesture noted).elim
  | dragging i grab origin =>
    rw [gesture] at noted
    cases noted
    rfl
  | resizing i edge origin =>
    rw [gesture] at noted
    cases noted
    rfl

/-- What cancelling can come to. -/
inductive Cancelled (x : Session) (tl : Timeline) : Outcome Unit → Prop where
  | idle (still : x.gesture = .idle) : Cancelled x tl ⟨.ok (),x,tl⟩
  | refused {f : Fault} (busy : x.gesture ≠ .idle) : Cancelled x tl ⟨.error f,x,tl⟩
  | restored {id : String} {w : Float × Float} {c : Clip} {tl' : Timeline}
      (noted : x.gesture.origin? = some (id,w))
      (applied : tl.updateClip id { start := some w.1, stop := some w.2 } = .ok (c,tl')) :
      Cancelled x tl ⟨.ok (),⟨x.threshold,.idle,none⟩,tl'⟩

theorem cancelled (x : Session) (tl : Timeline) : x.Cancelled tl (x.cancel tl) := by
  by_cases still : x.gesture = .idle
  · rw [cancelIdle still]
    exact .idle still
  · obtain ⟨id,w,noted⟩ := busyOrigin still
    rw [cancelBusy noted]
    split
    · exact .refused still
    · exact .restored noted ‹_›

theorem cancelStored {c : Clip} (noted : x.gesture.origin? = some (c.id,w))
    (found : tl.clip c.id = .ok c) (sound : (c.windowed w).check = .ok ()) :
    x.cancel tl = ⟨.ok (),⟨x.threshold,.idle,none⟩,tl.retimed c w⟩ := by
  rw [cancelBusy noted,Timeline.retimedStored found sound]

theorem cancelAbsent (noted : x.gesture.origin? = some (id,w)) (absent : tl.clip? id = none) :
    x.cancel tl = ⟨.error (.absent (.clip id)),x,tl⟩ := by
  have refused : tl.updateClip id { start := some w.1, stop := some w.2 } =
      .error (.absent (.clip id)) := by
    unfold Timeline.updateClip Timeline.clip
    rw [absent]
    rfl
  rw [cancelBusy noted,refused]

theorem cancelEnded (regular : x.Regular) (checked : ∀ c ∈ tl.clips, c.check = .ok ())
    (noted : x.gesture.origin? = some (id,w)) :
    (x.cancel tl).session.Ended ↔ id ∈ tl.clips.map Clip.id := by
  have window := regular.origin id w noted
  cases found : tl.clip? id with
  | none =>
    rw [cancelAbsent noted found]
    exact iff_of_false (fun ended => idleOrigin ended.gesture noted) (Timeline.absentClip found)
  | some c =>
    obtain ⟨mem,rfl⟩ := Timeline.foundClip found
    have there : tl.clip c.id = .ok c := by
      unfold Timeline.clip
      rw [found]
    rw [cancelStored noted there (Clip.checkWindow (checked c mem) window.1 window.2)]
    exact iff_of_true ⟨rfl,rfl⟩ (List.mem_map_of_mem mem)

theorem cancelRegular (regular : x.Regular) (tl : Timeline) : (x.cancel tl).session.Regular := by
  have source := cancelled x tl
  generalize x.cancel tl = o at source
  cases source with
  | idle still => exact regular
  | refused busy => exact regular
  | restored noted applied => exact endedRegular _

theorem releaseRegular (regular : x.Regular) (tl : Timeline) (t : Option Float) :
    (x.release tl t).session.Regular := by
  rw [releaseSession]
  split
  · exact regular
  · exact endedRegular _

end Session

namespace Studio
variable {s : Studio} {x : Session}

theorem eventStep (present : s.session = some x) (reply : α → Reply)
    (act : Session → Timeline → Outcome α) :
    s.event reply act = ((act x s.timeline).result.map reply,
      ⟨(act x s.timeline).timeline,some (act x s.timeline).session⟩) := by
  unfold event onSession
  rw [present]

theorem frameStep (present : s.session = some x) :
    s.step .frame = ((x.frame s.timeline).result.map .landing,
      ⟨(x.frame s.timeline).timeline,some (x.frame s.timeline).session⟩) :=
  eventStep present .landing Session.frame

theorem cancelStep (present : s.session = some x) :
    s.step .cancel = ((x.cancel s.timeline).result.map fun _ => .done,
      ⟨(x.cancel s.timeline).timeline,some (x.cancel s.timeline).session⟩) :=
  eventStep present (fun _ => .done) Session.cancel

end Studio
end Montage
