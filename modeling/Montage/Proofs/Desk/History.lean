import Montage.Proofs.Desk.Sessions
import Montage.Proofs.Gesture.Held
import Montage.Proofs.Studio.Edited

/-! Where a gesture comes from. Whatever else goes on, overwriting of clips included, a session
that is in a gesture was pressed once, and has kept since what it noted then; a session that is in
none has nothing noted. -/
namespace Montage

def Session.Settled (x : Session) : Prop := x.gesture = .idle → x.pending = none

namespace Session
variable {x y : Session} {tl : Timeline} {id : String} {t : Float} {handle : Option String}

/-- A press on a body or an edge of a clip that is there; nothing else begins a gesture. -/
theorem pressSource (ok : x.press tl id t handle = .ok y) : x.gesture = .idle ∧
    ∃ c ∈ tl.clips, tl.clip? id = some c ∧ c.id = id ∧
      ∃ h : Option Edge, handle = h.map Edge.name ∧ y = ⟨x.threshold,c.grabbed t h,none⟩ := by
  have idle : x.gesture = .idle := by
    unfold press at ok
    exact not_not.mp (guardOk ok).1
  obtain ⟨c,found,_⟩ := bindOk (by unfold press at ok; exact (guardOk ok).2)
  have stored := Timeline.clipFound found
  obtain ⟨mem,rfl⟩ := Timeline.foundClip stored
  refine ⟨idle,c,mem,stored,rfl,?_⟩
  rcases handleCases handle with ⟨h,rfl⟩ | ⟨name,rfl,unknown⟩
  · rw [pressGrabbed idle found] at ok
    exact ⟨h,rfl,(Except.ok.inj ok).symm⟩
  · rw [pressMisused idle found unknown] at ok
    cases ok

theorem pressIff : (∃ y, x.press tl id t handle = .ok y) ↔
    x.gesture = .idle ∧ (∃ c ∈ tl.clips, c.id = id) ∧
      (handle = none ∨ handle = some "left" ∨ handle = some "right") := by
  constructor
  · rintro ⟨y,ok⟩
    obtain ⟨idle,c,mem,_,named,h,rfl,_⟩ := pressSource ok
    refine ⟨idle,⟨c,mem,named⟩,?_⟩
    rcases h with _ | _ | _
    · exact .inl rfl
    · exact .inr (.inl rfl)
    · exact .inr (.inr rfl)
  · rintro ⟨idle,⟨c,mem,named⟩,known⟩
    obtain ⟨d,found⟩ : ∃ d, tl.clip? id = some d :=
      Option.isSome_iff_exists.mp (List.find?_isSome.mpr ⟨c,mem,by simpa using named⟩)
    obtain ⟨_,rfl⟩ := Timeline.foundClip found
    have there : tl.clip d.id = .ok d := by
      unfold Timeline.clip
      rw [found]
    obtain ⟨h,rfl⟩ : ∃ h : Option Edge, handle = h.map Edge.name := by
      rcases known with rfl | rfl | rfl
      · exact ⟨none,rfl⟩
      · exact ⟨some .left,rfl⟩
      · exact ⟨some .right,rfl⟩
    exact ⟨_,pressGrabbed idle there t h⟩

theorem moveGesture (x : Session) (t : Float) : (x.move t).gesture = x.gesture := by
  unfold move
  split <;> rfl

end Session
namespace Studio
variable {s : Studio} {w : Command} {y : Session}

/-- The command presses a clip, and the idle session begins this gesture. -/
def Begins (s : Studio) (w : Command) (g : Gesture) : Prop :=
  ∃ (x : Session) (c : Clip) (t : Float) (h : Option Edge),
    s.session = some x ∧ x.gesture = .idle ∧ c ∈ s.timeline.clips ∧
    s.timeline.clip? c.id = some c ∧ w = .press c.id t (h.map Edge.name) ∧ g = c.grabbed t h

theorem Leaves.settled (leaves : s.Leaves w y)
    (before : ∀ x, s.session = some x → x.Settled) : y.Settled := by
  cases leaves with
  | kept _ present => exact before y present
  | opened threshold => exact fun _ => rfl
  | pressed present ok =>
    obtain ⟨_,c,_,_,_,h,_,rfl⟩ := Session.pressSource ok
    exact fun _ => rfl
  | @moved x t present =>
    unfold Session.move
    split
    · exact before x present
    · exact fun idle => absurd idle ‹_›
  | @framed x present =>
    rw [Session.frameSession]
    split
    · exact before x present
    · exact fun _ => rfl
  | @released x t present =>
    rw [Session.releaseSession]
    split
    · exact before x present
    · exact fun _ => rfl
  | @cancelled x present =>
    have source := x.cancelled s.timeline
    generalize x.cancel s.timeline = o at source
    cases source with
    | idle still => exact before x present
    | refused busy => exact before x present
    | restored noted applied => exact fun _ => rfl

theorem Leaves.gesture (leaves : s.Leaves w y) : y.gesture = .idle ∨
    (∃ x, s.session = some x ∧ x.gesture = y.gesture) ∨ s.Begins w y.gesture := by
  cases leaves with
  | kept _ present => exact .inr (.inl ⟨y,present,rfl⟩)
  | opened threshold => exact .inl rfl
  | @pressed x _ id t handle present ok =>
    obtain ⟨idle,c,mem,found,rfl,h,rfl,rfl⟩ := Session.pressSource ok
    exact .inr (.inr ⟨x,c,t,h,present,idle,mem,found,rfl,rfl⟩)
  | @moved x t present => exact .inr (.inl ⟨x,present,(x.moveGesture t).symm⟩)
  | @framed x present =>
    refine .inr (.inl ⟨x,present,?_⟩)
    rw [Session.frameSession]
    split <;> rfl
  | @released x t present =>
    left
    rw [Session.releaseSession]
    split
    · assumption
    · rfl
  | @cancelled x present =>
    have source := x.cancelled s.timeline
    generalize x.cancel s.timeline = o at source
    cases source with
    | idle still => exact .inl still
    | refused busy => exact .inr (.inl ⟨x,present,rfl⟩)
    | restored noted applied => exact .inl rfl

end Studio
namespace Desk
variable {d : Desk} {a : Act} {i : Nat} {x y : Session}

theorem putAt {z : α} {j : Nat} {xs : List α} {w : α} (after : (put z j xs)[i]? = some w) :
    xs[i]? = some w ∨ w = z ∧ (j = i ∨ xs[j]? = none) := by
  unfold put at after
  split at after
  · rw [List.getElem?_set] at after
    split at after
    · exact .inr ⟨(Option.some.inj after).symm,.inl ‹_›⟩
    · exact .inl after
  · rename_i beyond
    by_cases inside : i < xs.length
    · rw [List.getElem?_append_left inside] at after
      exact .inl after
    · have last : w ∈ [z] := by
        rw [List.getElem?_append_right (Nat.le_of_not_lt inside)] at after
        exact List.mem_of_getElem? after
      exact .inr ⟨List.mem_singleton.mp last,.inr (List.getElem?_eq_none (Nat.le_of_not_lt beyond))⟩

theorem stepSession (after : (d.step a).sessions[i]? = some y) :
    d.sessions[i]? = some y ∨ ∃ j w, a = .command j w ∧ (d.studio j).Leaves w y ∧
      (j = i ∨ d.sessions[j]? = none) := by
  have landed (l : Landing) : (d.land l).sessions = d.sessions := by
    unfold land
    split <;> rfl
  cases a with
  | command j w =>
    dsimp only [step] at after
    split at after
    · rename_i z left
      rcases putAt after with old | ⟨rfl,at'⟩
      · exact .inl old
      · exact .inr ⟨j,w,rfl,Studio.stepLeaves left,at'⟩
    · exact .inl after
  | apply l => exact .inl (landed l ▸ after)
  | applyProposal k =>
    dsimp only [step] at after
    split at after
    · exact .inl (landed _ ▸ after)
    · exact .inl after

theorem stepSettled (settled : ∀ x ∈ d.sessions, x.Settled) (a : Act) :
    ∀ y ∈ (d.step a).sessions, y.Settled := by
  intro y mem
  obtain ⟨i,at'⟩ := List.mem_iff_getElem?.mp mem
  rcases stepSession at' with old | ⟨j,w,rfl,leaves,_⟩
  · exact settled y (List.mem_of_getElem? old)
  · exact leaves.settled fun x present => settled x (List.mem_of_getElem? present)

theorem runSettled (as : List Act) (settled : ∀ x ∈ d.sessions, x.Settled) :
    ∀ y ∈ (d.run as).sessions, y.Settled := by
  induction as generalizing d with
  | nil => exact settled
  | cons a as ih => exact ih (stepSettled settled a)

/-- The act presses a clip in session `i`, and so begins this gesture. -/
def Begins (d : Desk) (i : Nat) (a : Act) (g : Gesture) : Prop :=
  ∃ w, a = .command i w ∧ (d.studio i).Begins w g

theorem stepGesture (after : (d.step a).sessions[i]? = some y) (busy : y.gesture ≠ .idle) :
    (∃ x, d.sessions[i]? = some x ∧ x.gesture = y.gesture) ∨ d.Begins i a y.gesture := by
  rcases stepSession after with old | ⟨j,w,rfl,leaves,at'⟩
  · exact .inl ⟨y,old,rfl⟩
  rcases leaves.gesture with idle | ⟨x,present,same⟩ | begins
  · exact absurd idle busy
  · rcases at' with rfl | new
    · exact .inl ⟨x,present,same⟩
    · exact absurd (new.symm.trans present) nofun
  · rcases at' with rfl | new
    · exact .inr ⟨w,rfl,begins⟩
    · obtain ⟨x,_,_,_,present,_⟩ := begins
      exact absurd (new.symm.trans present) nofun

/-- The gesture `g` of session `i` after `n` acts: one of these acts began it, and it has been the
same ever since. -/
def Since (as : List Act) (i n : Nat) (g : Gesture) : Prop :=
  ∃ m a, m < n ∧ as[m]? = some a ∧ (({} : Desk).run (as.take m)).Begins i a g ∧
    ∀ k, m < k → k ≤ n → ∃ y, (({} : Desk).run (as.take k)).sessions[i]? = some y ∧ y.gesture = g

theorem runSince {as : List Act} {n : Nat} (inside : n ≤ as.length)
    (present : (({} : Desk).run (as.take n)).sessions[i]? = some x) (busy : x.gesture ≠ .idle) :
    Since as i n x.gesture := by
  -- By the last act: either it began the gesture or there was one before, and the same.
  induction n generalizing x with
  | zero => cases present
  | succ n ih =>
    have here := present
    rw [runNext _ inside] at present
    have all (m : Nat) (g : Gesture) (same : x.gesture = g) (earlier : ∀ k, m < k → k ≤ n →
        ∃ y, (({} : Desk).run (as.take k)).sessions[i]? = some y ∧ y.gesture = g) (k : Nat)
        (after : m < k) (within : k ≤ n + 1) :
        ∃ y, (({} : Desk).run (as.take k)).sessions[i]? = some y ∧ y.gesture = g := by
      rcases Nat.le_succ_iff.mp within with before | rfl
      · exact earlier k after before
      · exact ⟨x,here,same⟩
    rcases stepGesture present busy with ⟨y,before,same⟩ | begins
    · obtain ⟨m,a,less,act,begins,earlier⟩ := ih (Nat.le_of_succ_le inside) before (same ▸ busy)
      rw [← same]
      exact ⟨m,a,Nat.lt_succ_of_lt less,act,begins,all m _ same.symm earlier⟩
    · refine ⟨n,as[n],Nat.lt_succ_self n,List.getElem?_eq_getElem inside,begins,?_⟩
      exact all n _ rfl fun k after before => absurd before (Nat.not_le_of_lt after)

theorem setSame (present : d.sessions[i]? = some x) : d.sessions.set i x = d.sessions := by
  obtain ⟨inside,at'⟩ := List.getElem?_eq_some_iff.mp present
  rw [← at',List.set_getElem_self]

theorem commandRefused {w : Command} {f : Fault} (present : d.sessions[i]? = some x)
    (refused : (d.studio i).step w = (.error f,d.studio i)) : d.step (.command i w) = d := by
  obtain ⟨inside,_⟩ := List.getElem?_eq_some_iff.mp present
  have sessions : put x i d.sessions = d.sessions := by
    unfold put
    rw [if_pos inside,setSame present]
  dsimp only [step]
  rw [refused]
  dsimp only [studio]
  rw [present]
  dsimp only
  rw [sessions]

/-- What the events of session `i`, which is as `x` says, come to on this desk. -/
structure Steady (d : Desk) (i : Nat) (x : Session) : Prop where
  settled : x.gesture = .idle → x.pending = none
  pressed : ∀ id t handle, (∃ r, ((d.studio i).step (.press id t handle)).1 = .ok r) ↔
    x.gesture = .idle ∧ (∃ c ∈ d.timeline.clips, c.id = id) ∧
      (handle = none ∨ handle = some "left" ∨ handle = some "right")
  refused : ∀ id t handle f, ((d.studio i).step (.press id t handle)).1 = .error f →
    d.step (.command i (.press id t handle)) = d
  moved : ∀ t, (d.step (.command i (.move t))).timeline = d.timeline
  framed : x.gesture ≠ .idle →
    (d.step (.command i .frame)).sessions[i]? = some { x with pending := none }

theorem pressStep (present : d.sessions[i]? = some x) (id : String) (t : Float)
    (handle : Option String) : (d.studio i).step (.press id t handle) =
      match x.press d.timeline id t handle with
      | .ok y => (.ok .done,⟨d.timeline,some y⟩)
      | .error f => (.error f,d.studio i) := by
  dsimp only [Studio.step,studio]
  unfold Studio.onSession
  rewrite [present]
  rfl

theorem steady (present : d.sessions[i]? = some x) (settled : x.Settled) : d.Steady i x where
  settled := settled
  pressed id t handle := by
    rw [pressStep present,← Session.pressIff (t := t)]
    cases x.press d.timeline id t handle with
    | error f => simp
    | ok y => simp
  refused id t handle f bad := by
    have step := pressStep present id t handle
    cases pressed : x.press d.timeline id t handle with
    | error g =>
      rw [pressed] at step
      exact commandRefused present step
    | ok y =>
      rw [step,pressed] at bad
      cases bad
  moved t := by
    change ((d.studio i).step (.move t)).2.timeline = d.timeline
    dsimp only [Studio.step]
    unfold Studio.onSession
    split <;> rfl
  framed busy := by
    have after := Studio.frameStep (s := d.studio i) present
    refine commandStep present ?_
    rw [after,Session.frameSession,if_neg busy]

/-- Every act may come between, refused or not, and clips may be overwritten or taken away. -/
theorem runSteady (as : List Act) (present : (({} : Desk).run as).sessions[i]? = some x) :
    (({} : Desk).run as).Steady i x ∧ (x.gesture ≠ .idle → Since as i as.length x.gesture) := by
  have settled := runSettled as (d := {}) (by simp) x (List.mem_of_getElem? present)
  refine ⟨steady present settled,fun busy => runSince le_rfl ?_ busy⟩
  rwa [List.take_length]

def meddling : List Act :=
  [.command 0 (.addClip ⟨"a","video","video",1,4,some "a.mp4",none,none⟩),
   .command 0 (.openSession 1),
   .command 0 (.press "a" 1 (some "middle")),
   .command 0 (.press "a" 4 (some "right")),
   .command 1 (.openSession 1),
   .command 1 (.press "a" 1 none),
   .command 0 (.press "a" 1 none),
   .command 1 (.release (some 3)),
   .command 1 (.removeClip "a"),
   .command 0 (.move 7),
   .command 0 .frame]

def bereft : Session := ⟨1,.resizing "a" .right (1,4),none⟩

/-- The clip was moved by another session and then taken away, and the last frame was refused. -/
theorem meddlingSteady : (({} : Desk).run meddling).sessions[0]? = some bereft ∧
    (({} : Desk).run meddling).Steady 0 bereft ∧
    Since meddling 0 meddling.length (.resizing "a" .right (1,4)) := by
  have present : (({} : Desk).run meddling).sessions[0]? = some bereft := by decide +kernel
  obtain ⟨steady,since⟩ := runSteady meddling present
  exact ⟨present,steady,since (by decide)⟩

end Desk
end Montage
