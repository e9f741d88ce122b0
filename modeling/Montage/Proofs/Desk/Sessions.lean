import Montage.Proofs.Gesture.Ending
import Montage.Proofs.Desk

/-! Sessions in a run. The other sessions and the timeline's own operations go on while a gesture is
in progress, and may take its clip away. Releasing ends the gesture all the same; cancelling then
does not. -/
namespace Montage
namespace Studio
variable {s : Studio}

theorem editSession (s : Studio) (change : Except Fault (Reply × Timeline)) :
    (s.edit change).2.session = s.session := by
  cases change <;> rfl

/-- The session that a command leaves: the one there was, a new one, or what an event made of it. -/
inductive Leaves (s : Studio) : Command → Session → Prop where
  | kept {x : Session} (w : Command) (present : s.session = some x) : Leaves s w x
  | opened (threshold : Float) : Leaves s (.openSession threshold) { threshold }
  | pressed {x y : Session} {id : String} {t : Float} {handle : Option String}
      (present : s.session = some x) (ok : x.press s.timeline id t handle = .ok y) :
      Leaves s (.press id t handle) y
  | moved {x : Session} (t : Float) (present : s.session = some x) : Leaves s (.move t) (x.move t)
  | framed {x : Session} (present : s.session = some x) :
      Leaves s .frame (x.frame s.timeline).session
  | released {x : Session} (t : Option Float) (present : s.session = some x) :
      Leaves s (.release t) (x.release s.timeline t).session
  | cancelled {x : Session} (present : s.session = some x) :
      Leaves s .cancel (x.cancel s.timeline).session

theorem sessionLeaves {w : Command} {y : Session} {act : Session → Except Fault Reply × Studio}
    (after : (s.onSession act).2.session = some y)
    (source : ∀ x, s.session = some x → (act x).2.session = some y → s.Leaves w y) :
    s.Leaves w y := by
  unfold onSession at after
  split at after
  · exact source _ ‹_› after
  · exact .kept w after

theorem eventLeaves {w : Command} {y : Session} {reply : α → Reply}
    {act : Session → Timeline → Outcome α}
    (after : (s.event reply act).2.session = some y)
    (source : ∀ x, s.session = some x → s.Leaves w (act x s.timeline).session) : s.Leaves w y :=
  sessionLeaves after fun x present same => Option.some.inj same ▸ source x present

theorem stepLeaves {w : Command} {y : Session} (after : (s.step w).2.session = some y) :
    s.Leaves w y := by
  cases w with
  | openSession threshold => exact Option.some.inj after ▸ .opened threshold
  | press id t handle =>
    refine sessionLeaves after fun x present same => ?_
    split at same
    · rename_i z pressed
      exact Option.some.inj same ▸ .pressed present pressed
    · exact .kept _ same
  | move t =>
    exact sessionLeaves after fun x present same => Option.some.inj same ▸ .moved t present
  | frame => exact eventLeaves after fun x => .framed
  | release t => exact eventLeaves after fun x => .released t
  | cancel => exact eventLeaves after fun x => .cancelled
  | addClip | addOverlay | addEffect | updateClip | updateOverlay | removeClip | removeOverlay
  | removeEffect | overwriteClip | proposeMove | proposeResize =>
    simp only [step,land,editSession] at after
    exact .kept _ after
  | updateEffect | getClip | getOverlay | getEffect | clipForOverlay | clipForEffect | onTrack
  | ofKinds | length | validate | boundaries | compile => exact .kept _ after

theorem stepRegular (checked : ∀ c ∈ s.timeline.clips, c.check = .ok ())
    (regular : ∀ x ∈ s.session, x.Regular) (w : Command) :
    ∀ y ∈ (s.step w).2.session, y.Regular := by
  intro y after
  cases stepLeaves after with
  | kept _ present => exact regular y present
  | opened threshold => exact Session.endedRegular threshold
  | pressed present ok => exact Session.pressRegular checked ok
  | moved t present => exact Session.moveRegular (regular _ present) t
  | framed present => exact Session.frameRegular (regular _ present) _
  | released t present => exact Session.releaseRegular (regular _ present) _ t
  | cancelled present => exact Session.cancelRegular (regular _ present) _

end Studio
namespace Desk
variable {d : Desk}

theorem stepRegular (kept : d.Kept False) (regular : ∀ x ∈ d.sessions, x.Regular) (a : Act) :
    ∀ x ∈ (d.step a).sessions, x.Regular := by
  have landed (l : Landing) : (d.land l).sessions = d.sessions := by
    unfold land
    split <;> rfl
  cases a with
  | command i c =>
    have after := Studio.stepRegular (s := d.studio i) kept.timeline.clips
      (fun x mem => regular x (List.mem_of_getElem? mem)) c
    intro x mem
    dsimp only [step] at mem
    split at mem
    · rename_i y present
      rcases memPut mem with rfl | old
      · exact after x present
      · exact regular x old
    · exact regular x mem
  | apply l => exact (landed l).symm ▸ regular
  | applyProposal i =>
    dsimp only [step]
    split
    · exact (landed _).symm ▸ regular
    · exact regular

theorem runRegular {as : List Act} (inside : ∀ a ∈ as, a.outside = false) (kept : d.Kept False)
    (regular : ∀ x ∈ d.sessions, x.Regular) : ∀ x ∈ (d.run as).sessions, x.Regular := by
  induction as generalizing d with
  | nil => exact regular
  | cons a as ih =>
    obtain ⟨first,rest⟩ := List.forall_mem_cons.mp inside
    exact ih rest (stepKept first (fun given => given.elim) kept) (stepRegular kept regular a)

theorem sessionsRegular {as : List Act} (inside : ∀ a ∈ as, a.outside = false) :
    ∀ x ∈ (({} : Desk).run as).sessions, x.Regular :=
  runRegular inside (emptyKept False) (by simp)

theorem commandStep {i : Nat} {w : Command} {x y : Session} (present : d.sessions[i]? = some x)
    (after : ((d.studio i).step w).2.session = some y) :
    (d.step (.command i w)).sessions[i]? = some y := by
  obtain ⟨inside,_⟩ := List.getElem?_eq_some_iff.mp present
  dsimp only [step]
  rw [after]
  simp [put,inside]

/-- A release ends the gesture, a cancelled gesture ends just where its clip is still there. -/
theorem gestureEnded {as : List Act} {i : Nat} {x : Session}
    (inside : ∀ a ∈ as, a.outside = false)
    (present : (({} : Desk).run as).sessions[i]? = some x) (busy : x.gesture ≠ .idle) :
    let d := ({} : Desk).run as
    (∀ t, ∃ y, (d.step (.command i (.release t))).sessions[i]? = some y ∧ y.Ended) ∧
    ∃ y, (d.step (.command i .cancel)).sessions[i]? = some y ∧
      (y.Ended ↔ ∃ c ∈ d.timeline.clips, ∃ w, x.gesture.origin? = some (c.id,w)) := by
  intro d
  have event {α : Type} (reply : α → Reply) (act : Session → Timeline → Outcome α) :
      ((d.studio i).event reply act).2.session = some (act x d.timeline).session :=
    congrArg (·.2.session) (Studio.eventStep (s := d.studio i) present reply act)
  refine ⟨fun t => ⟨_,commandStep present (event _ _),?_⟩,_,commandStep present (event _ _),?_⟩
  · rw [Session.releaseSession,if_neg busy]
    exact ⟨rfl,rfl⟩
  · obtain ⟨id,w,noted⟩ := Session.busyOrigin busy
    have regular := sessionsRegular inside x (List.mem_of_getElem? present)
    rw [Session.cancelEnded regular (runChecked inside).clips noted,noted]
    simp [d,eq_comm]

def removing : List Act :=
  [.command 0 (.addClip ⟨"a","video","video",1,4,some "a.mp4",none,none⟩),
   .command 0 (.openSession 1),
   .command 0 (.press "a" 1 none),
   .command 0 (.move 3),
   .command 1 (.removeClip "a")]

def removed : Session := ⟨1,.dragging "a" 0 (1,4),some 3⟩

/-- The last frame of the release is refused, and the gesture is over. -/
theorem removingReleased : (∀ a ∈ removing, a.outside = false) ∧
    (({} : Desk).run removing).sessions[0]? = some removed ∧ removed.gesture ≠ .idle ∧
    ∃ y, ((({} : Desk).run removing).step (.command 0 (.release none))).sessions[0]? = some y ∧
      y.Ended := by
  have inside : ∀ a ∈ removing, a.outside = false := by decide
  have present : (({} : Desk).run removing).sessions[0]? = some removed := by decide +kernel
  have busy : removed.gesture ≠ .idle := by decide
  exact ⟨inside,present,busy,(gestureEnded inside present busy).1 none⟩

/-- The window cannot be put back, and the gesture goes on. -/
theorem removingDragged : ¬ ∀ (as : List Act) (i : Nat) (x : Session),
    (∀ a ∈ as, a.outside = false) → (({} : Desk).run as).sessions[i]? = some x →
      x.gesture ≠ .idle →
        ∃ y, ((({} : Desk).run as).step (.command i .cancel)).sessions[i]? = some y ∧ y.Ended := by
  intro ends
  have present : (({} : Desk).run removing).sessions[0]? = some removed := by decide +kernel
  obtain ⟨y,after,ended⟩ := ends removing 0 removed (by decide) present (by decide)
  have stays : ((({} : Desk).run removing).step (.command 0 .cancel)).sessions[0]? =
      some removed := by decide +kernel
  cases Option.some.inj (after.symm.trans stays)
  exact absurd ended.gesture (by decide)

end Desk
end Montage
