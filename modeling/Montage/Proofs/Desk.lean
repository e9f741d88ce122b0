import Montage.Proofs.Gesture.Ending
import Montage.Proofs.Gesture.Landing

/-! Runs. A desk is a timeline with any number of sessions on it and the proposals made so far,
each of which may be applied at any later time. One act is a command, to one of the sessions if it
concerns a session, or the application of a proposal; whatever it answers, the run goes on. -/
namespace Montage

/-- Whether a command reaches around the timeline's own operations. -/
def Command.outside : Command → Bool
  | overwriteClip .. => true
  | _ => false

def ClipPatch.times (p : ClipPatch) : List Float := p.start.toList ++ p.stop.toList

def EffectPatch.times (p : EffectPatch) : List Float := p.start.toList ++ p.stop.toList

def Command.times : Command → List Float
  | addClip c => [c.start,c.stop]
  | addEffect e => [e.start,e.stop]
  | updateClip _ p => p.times
  | updateEffect _ p => p.times
  | overwriteClip _ p => p.times
  | proposeMove _ start whole threshold _ => [start,threshold] ++ whole.toList
  | proposeResize _ _ t threshold _ => [t,threshold]
  | openSession threshold => [threshold]
  | press _ t _ => [t]
  | move t => [t]
  | release t => t.toList
  | compile o => o.length.toList
  | _ => []

structure Desk where
  timeline : Timeline := {}
  sessions : List Session := []
  proposals : List Landing := []

inductive Act where
  /-- A number beyond the sessions stands for a new one. -/
  | command (session : Nat) (c : Command)
  | applyProposal (number : Nat)
  | apply (l : Landing)

def Act.outside : Act → Bool
  | command _ c => c.outside
  | _ => false

def Act.times : Act → List Float
  | command _ c => c.times
  | applyProposal _ => []
  | apply l => [l.start,l.stop]

namespace Desk

def studio (d : Desk) (session : Nat) : Studio := ⟨d.timeline,d.sessions[session]?⟩

def put (x : α) (i : Nat) (xs : List α) : List α := if i < xs.length then xs.set i x else xs ++ [x]

def land (d : Desk) (l : Landing) : Desk :=
  match l.apply d.timeline with
  | .ok (_,timeline) => { d with timeline }
  | .error _ => d

def step (d : Desk) : Act → Desk
  | .command i c =>
    let (reply,s) := (d.studio i).step c
    { timeline := s.timeline
      sessions := match s.session with
        | some session => put session i d.sessions
        | none => d.sessions
      proposals := match reply with
        | .ok (.landing (some l)) => d.proposals ++ [l]
        | _ => d.proposals }
  | .applyProposal i =>
    match d.proposals[i]? with
    | some l => d.land l
    | none => d
  | .apply l => d.land l

def run (d : Desk) : List Act → Desk
  | [] => d
  | a :: as => (d.step a).run as

end Desk

/-- How a command leaves a studio: the timeline went through at most one change, and times stay
numbers where those supplied are finite. -/
structure Studio.Follows (timed : Prop) (s : Studio) (r : Except Fault Reply × Studio) : Prop where
  timeline : r.2.timeline = s.timeline ∨
    Timeline.Change (fun c => timed → c.Timed) s.timeline r.2.timeline
  session : timed → ∀ x ∈ r.2.session, x.Timed
  landing : timed → ∀ l, r.1 = .ok (.landing (some l)) → l.Timed

namespace Studio
variable {timed : Prop} {s : Studio}

theorem followsEdit {change : Except Fault (Reply × Timeline)}
    (session : timed → ∀ x ∈ s.session, x.Timed)
    (source : ∀ reply tl, change = .ok (reply,tl) →
      tl = s.timeline ∨ Timeline.Change (fun c => timed → c.Timed) s.timeline tl)
    (landing : timed → ∀ l tl, change = .ok (.landing (some l),tl) → l.Timed) :
    Follows timed s (s.edit change) := by
  cases change with
  | error f => exact ⟨.inl rfl,session,fun _ l same => by cases same⟩
  | ok made =>
    refine ⟨source made.1 made.2 rfl,session,?_⟩
    intro given l same
    obtain ⟨reply,tl⟩ := made
    cases Except.ok.inj same
    exact landing given l tl rfl

theorem followsChange {x : Except Fault α} (answer : α → Reply) (after : α → Timeline)
    (session : timed → ∀ x ∈ s.session, x.Timed) (silent : ∀ a l, answer a ≠ .landing (some l))
    (source : ∀ a, x = .ok a → Timeline.Change (fun c => timed → c.Timed) s.timeline (after a)) :
    Follows timed s (s.edit (x >>= fun a => pure (answer a,after a))) := by
  refine followsEdit session ?_ ?_
  · intro reply tl ok
    obtain ⟨a,made,last⟩ := bindOk ok
    cases Except.ok.inj last
    exact .inr (source a made)
  · intro _ l tl ok
    obtain ⟨a,_,last⟩ := bindOk ok
    exact absurd (congrArg Prod.fst (Except.ok.inj last)) (silent a l)

theorem followsAsk {answer : Except Fault Reply} (session : timed → ∀ x ∈ s.session, x.Timed)
    (silent : ∀ l, answer ≠ .ok (.landing (some l))) : Follows timed s (s.ask answer) :=
  ⟨.inl rfl,session,fun _ l same => absurd same (silent l)⟩

theorem silentBind {x : Except Fault α} {answer : α → Reply}
    (silent : ∀ a l, answer a ≠ .landing (some l)) (l : Landing) :
    (x >>= fun a => pure (answer a)) ≠ .ok (.landing (some l)) := by
  intro same
  obtain ⟨a,_,last⟩ := bindOk same
  exact silent a l (Except.ok.inj last)

theorem silentMap {x : Except Fault α} {answer : α → Reply}
    (silent : ∀ a l, answer a ≠ .landing (some l)) (l : Landing) :
    x.map answer ≠ .ok (.landing (some l)) := by
  intro same
  obtain ⟨a,_,last⟩ := mapOk same
  exact silent a l last

theorem followsSession {act : Session → Except Fault Reply × Studio}
    (session : timed → ∀ x ∈ s.session, x.Timed)
    (source : ∀ x, (timed → x.Timed) → Follows timed s (act x)) :
    Follows timed s (s.onSession act) := by
  unfold onSession
  split
  · rename_i x present
    exact source x fun given => session given x present
  · exact ⟨.inl rfl,session,fun _ l same => by cases same⟩

theorem followsLand {apply : Bool} {proposal : Except Fault Landing}
    (session : timed → ∀ x ∈ s.session, x.Timed)
    (landed : timed → ∀ l, proposal = .ok l → l.Timed) :
    Follows timed s (s.land apply proposal) := by
  refine followsEdit session ?_ ?_
  · intro reply tl ok
    obtain ⟨l,made,ok⟩ := bindOk ok
    split at ok
    · obtain ⟨⟨c,tl'⟩,applied,last⟩ := bindOk ok
      cases Except.ok.inj last
      right
      refine Timeline.windowChange ?_ applied
      intro c start stop given
      have window := landed given l made
      exact ⟨start ▸ window.1,stop ▸ window.2⟩
    · cases Except.ok.inj ok
      exact .inl rfl
  · intro given l tl ok
    obtain ⟨m,made,ok⟩ := bindOk ok
    split at ok
    · obtain ⟨⟨c,tl'⟩,_,last⟩ := bindOk ok
      cases Except.ok.inj last
      exact landed given l made
    · cases Except.ok.inj ok
      exact landed given l made

theorem followsFrame {x : Session} (kept : s.timeline.Kept timed) (given : timed → x.Timed) :
    (timed → (x.frame s.timeline).session.Timed) ∧
      ((x.frame s.timeline).timeline = s.timeline ∨
        Timeline.Change (fun c => timed → c.Timed) s.timeline (x.frame s.timeline).timeline) ∧
      (timed → ∀ l, (x.frame s.timeline).result = .ok (some l) → l.Timed) := by
  have cleared : timed → ({ x with pending := none } : Session).Timed :=
    fun time => ⟨(given time).gesture,by simp⟩
  have source := x.framed s.timeline
  generalize x.frame s.timeline = o at source
  cases source with
  | nothing still => exact ⟨given,.inl rfl,fun _ l same => by cases same⟩
  | refused busy => exact ⟨cleared,.inl rfl,fun _ l same => by cases same⟩
  | @landed t l c tl' busy noted proposed applied =>
    have landed : timed → l.Timed := fun time =>
      Session.proposeTimed (given time) (kept.sound time).clips ((given time).pending t noted)
        proposed
    refine ⟨cleared,.inr (Timeline.windowChange ?_ applied),?_⟩
    · intro c start stop time
      exact ⟨start ▸ (landed time).1,stop ▸ (landed time).2⟩
    · intro time m same
      cases Except.ok.inj same
      exact landed time

theorem followsEvent {reply : α → Reply} {act : Session → Timeline → Outcome α}
    (session : timed → ∀ x ∈ s.session, x.Timed)
    (source : ∀ x, (timed → x.Timed) → (timed → (act x s.timeline).session.Timed) ∧
      ((act x s.timeline).timeline = s.timeline ∨
        Timeline.Change (fun c => timed → c.Timed) s.timeline (act x s.timeline).timeline) ∧
      (timed → ∀ l a, (act x s.timeline).result = .ok a → reply a = .landing (some l) → l.Timed)) :
    Follows timed s (s.event reply act) := by
  refine followsSession session fun x given => ?_
  obtain ⟨after,change,landing⟩ := source x given
  refine ⟨change,?_,?_⟩
  · intro time y same
    exact Option.some.inj same ▸ after time
  · intro time l same
    obtain ⟨a,result,last⟩ := mapOk same
    exact landing time l a result last

theorem followsRelease {t : Option Float} (kept : s.timeline.Kept timed)
    (session : timed → ∀ x ∈ s.session, x.Timed)
    (times : timed → ∀ u ∈ t, u.isFinite = true) :
    Follows timed s (s.event .landing fun session timeline => session.release timeline t) := by
  refine followsEvent session fun x given => ?_
  unfold Session.release
  split
  · exact ⟨given,.inl rfl,fun _ l a same => by cases same⟩
  have flushed : timed → ({ x with pending := t <|> x.pending } : Session).Timed := by
    intro time
    refine ⟨(given time).gesture,?_⟩
    intro u noted
    cases t with
    | none => exact (given time).pending u noted
    | some v => exact times time u noted
  obtain ⟨after,change,landing⟩ := followsFrame kept flushed
  refine ⟨?_,change,?_⟩
  · intro time
    exact ⟨trivial,(after time).pending⟩
  · intro time l a result last
    cases last
    exact landing time l result

theorem originTimed {g : Gesture} {id : String} {w : Float × Float} (timed : g.Timed)
    (noted : g.origin? = some (id,w)) : w.1.isNaN = false ∧ w.2.isNaN = false := by
  cases g with
  | idle => cases noted
  | dragging i grab origin =>
    cases noted
    exact timed.2
  | resizing i edge origin =>
    cases noted
    exact timed

theorem followsCancel (session : timed → ∀ x ∈ s.session, x.Timed) :
    Follows timed s (s.event (fun _ => .done) Session.cancel) := by
  refine followsEvent session fun x given => ?_
  have source := x.cancelled s.timeline
  generalize x.cancel s.timeline = o at source
  cases source with
  | idle still => exact ⟨given,.inl rfl,fun _ l a same last => by cases last⟩
  | refused busy => exact ⟨given,.inl rfl,fun _ l a same last => by cases last⟩
  | restored noted applied =>
    refine ⟨fun _ => ⟨trivial,by simp⟩,.inr (Timeline.windowChange ?_ applied),
      fun _ l a same last => by cases last⟩
    intro c start stop time
    have window := originTimed (given time).gesture noted
    exact ⟨start ▸ window.1,stop ▸ window.2⟩

theorem patchTimed {c : Clip} {p : ClipPatch} (timed : c.Timed)
    (times : ∀ t ∈ p.times, t.isFinite = true) : (p.apply c).Timed := by
  have start : ∀ t ∈ p.start, t.isFinite = true := fun t given => times t (by
    simp only [ClipPatch.times,List.mem_append,Option.mem_toList]
    exact .inl given)
  have stop : ∀ t ∈ p.stop, t.isFinite = true := fun t given => times t (by
    simp only [ClipPatch.times,List.mem_append,Option.mem_toList]
    exact .inr given)
  constructor
  · rw [ClipPatch.apply]
    cases given : p.start with
    | none => exact timed.1
    | some t => exact finiteNumber (start t given)
  · rw [ClipPatch.apply]
    cases given : p.stop with
    | none => exact timed.2
    | some t => exact finiteNumber (stop t given)

theorem stepFollows {c : Command} (inside : c.outside = false)
    (times : timed → ∀ t ∈ c.times, t.isFinite = true) (kept : s.timeline.Kept timed)
    (session : timed → ∀ x ∈ s.session, x.Timed) : Follows timed s (s.step c) := by
  cases c with
  | addClip c =>
    refine followsChange (fun _ => .clip (some c)) id session (by simp) ?_
    intro tl added
    refine Timeline.addClipChange ?_ added
    exact fun time => ⟨finiteNumber (times time _ (by simp [Command.times])),
      finiteNumber (times time _ (by simp [Command.times]))⟩
  | addOverlay t =>
    refine followsChange (fun _ => .overlay t) id session (by simp) ?_
    exact fun tl added => Timeline.addOverlayChange added
  | addEffect e =>
    refine followsChange (fun a => .effect a.1) Prod.snd session (by simp) ?_
    exact fun _ added => Timeline.addEffectChange added
  | updateClip id p =>
    refine followsChange (fun a => .clip (some a.1)) Prod.snd session
      (by simp) ?_
    intro _ updated
    refine Timeline.updateClipChange ?_ updated
    exact fun old found time =>
      patchTimed (kept.times time old (Timeline.foundClip found).1) (times time)
  | updateOverlay id p =>
    refine followsChange (fun a => .overlay a.1) Prod.snd session (by simp) ?_
    exact fun _ updated => Timeline.updateOverlayChange updated
  | updateEffect id p =>
    refine ⟨Timeline.updateEffectChange id p,session,?_⟩
    intro _ l same
    obtain ⟨_,_,last⟩ := mapOk same
    cases last
  | removeClip id =>
    refine followsChange (fun a => .clip (some a.1)) Prod.snd session
      (by simp) ?_
    exact fun _ removed => Timeline.removeClipChange removed
  | removeOverlay id =>
    refine followsChange (fun a => .overlay a.1) Prod.snd session (by simp) ?_
    exact fun _ removed => Timeline.removeOverlayChange removed
  | removeEffect id =>
    refine followsChange (fun a => .effect a.1) Prod.snd session (by simp) ?_
    exact fun _ removed => Timeline.removeEffectChange removed
  | overwriteClip id p => cases inside
  | getClip id => exact followsAsk session (silentBind (by simp))
  | getOverlay id => exact followsAsk session (silentBind (by simp))
  | getEffect id => exact followsAsk session (silentBind (by simp))
  | clipForOverlay id => exact followsAsk session (by simp)
  | clipForEffect id => exact followsAsk session (by simp)
  | onTrack track => exact followsAsk session (by simp)
  | ofKinds kinds => exact followsAsk session (by simp)
  | length => exact followsAsk session (silentMap (by simp))
  | validate => exact followsAsk session (silentMap (by simp))
  | boundaries id sameTrack =>
    refine followsAsk session fun l same => ?_
    split at same
    · obtain ⟨_,_,last⟩ := mapOk same
      cases last
    · cases same
  | proposeMove id start whole threshold apply =>
    refine followsLand session fun time l ok => ?_
    exact Timeline.proposeMoveTimed (kept.sound time).clips
      (finiteNumber (times time start (by simp [Command.times]))) ok
  | proposeResize id side t threshold apply =>
    refine followsLand session fun time l ok => ?_
    exact Timeline.proposeResizeOfTimed (kept.times time)
      (finiteNumber (times time t (by simp [Command.times]))) ok
  | openSession threshold =>
    refine ⟨.inl rfl,fun _ x same => ?_,fun _ l same => by cases same⟩
    cases Option.some.inj same
    exact ⟨trivial,by simp⟩
  | press id t handle =>
    refine followsSession session fun x given => ?_
    split
    · rename_i x' pressed
      refine ⟨.inl rfl,fun time y same => ?_,fun _ l same => by cases same⟩
      cases Option.some.inj same
      exact Session.pressTimed (kept.sound time).clips
        (times time t (by simp [Command.times])) pressed
    · exact ⟨.inl rfl,session,fun _ l same => by cases same⟩
  | move t =>
    refine followsSession session fun x given => ?_
    refine ⟨.inl rfl,fun time y same => ?_,fun _ l same => by cases same⟩
    cases Option.some.inj same
    exact Session.moveTimed (given time) (times time t (by simp [Command.times]))
  | frame =>
    refine followsEvent session fun x given => ?_
    obtain ⟨after,change,landing⟩ := followsFrame kept given
    refine ⟨after,change,fun time l a result last => ?_⟩
    cases last
    exact landing time l result
  | release t =>
    refine followsRelease kept session fun time u given => times time u ?_
    simpa [Command.times] using given
  | cancel => exact followsCancel session
  | compile o => exact followsAsk session (silentMap (by simp))

end Studio
namespace Desk

structure Kept (timed : Prop) (d : Desk) : Prop where
  timeline : d.timeline.Kept timed
  sessions : timed → ∀ x ∈ d.sessions, x.Timed
  proposals : timed → ∀ l ∈ d.proposals, l.Timed

variable {timed : Prop} {d : Desk}

theorem memPut {x y : α} {i : Nat} {xs : List α} (mem : y ∈ put x i xs) : y = x ∨ y ∈ xs := by
  unfold put at mem
  split at mem
  · exact (List.mem_or_eq_of_mem_set mem).symm
  · rcases List.mem_append.mp mem with old | new
    · exact .inr old
    · exact .inl (List.mem_singleton.mp new)

theorem landKept {l : Landing} (kept : d.Kept timed) (window : timed → l.Timed) :
    (d.land l).Kept timed := by
  unfold land
  split
  · rename_i c tl applied
    refine ⟨(Timeline.windowChange ?_ applied).kept kept.timeline,kept.sessions,kept.proposals⟩
    intro c start stop given
    exact ⟨start ▸ (window given).1,stop ▸ (window given).2⟩
  · exact kept

theorem stepKept {a : Act} (inside : a.outside = false)
    (times : timed → ∀ t ∈ a.times, t.isFinite = true) (kept : d.Kept timed) :
    (d.step a).Kept timed := by
  cases a with
  | command i c =>
    have session : timed → ∀ x ∈ (d.studio i).session, x.Timed := fun given x mem =>
      kept.sessions given x (List.mem_of_getElem? mem)
    have follows := Studio.stepFollows (s := d.studio i) inside times kept.timeline session
    refine ⟨?_,?_,?_⟩
    · change ((d.studio i).step c).2.timeline.Kept timed
      rcases follows.timeline with same | change
      · rw [same]
        exact kept.timeline
      · exact change.kept kept.timeline
    · intro given x mem
      dsimp only [step] at mem
      split at mem
      · rename_i after
        rcases memPut mem with new | old
        · exact follows.session given x (new ▸ after)
        · exact kept.sessions given x old
      · exact kept.sessions given x mem
    · intro given l mem
      dsimp only [step] at mem
      split at mem
      · rename_i made answer
        rcases List.mem_append.mp mem with old | new
        · exact kept.proposals given l old
        · exact List.mem_singleton.mp new ▸ follows.landing given made answer
      · exact kept.proposals given l mem
  | applyProposal i =>
    dsimp only [step]
    split
    · rename_i l made
      exact landKept kept fun given => kept.proposals given l (List.mem_of_getElem? made)
    · exact kept
  | apply l =>
    refine landKept kept fun given => ⟨finiteNumber ?_,finiteNumber ?_⟩
    · exact times given l.start (by simp [Act.times])
    · exact times given l.stop (by simp [Act.times])

theorem runKept {as : List Act} (inside : ∀ a ∈ as, a.outside = false)
    (times : timed → ∀ a ∈ as, ∀ t ∈ a.times, t.isFinite = true) (kept : d.Kept timed) :
    (d.run as).Kept timed := by
  induction as generalizing d with
  | nil => exact kept
  | cons a as ih =>
    refine ih (fun b mem => inside b (List.mem_cons_of_mem _ mem))
      (fun given b mem => times given b (List.mem_cons_of_mem _ mem)) ?_
    exact stepKept (inside a List.mem_cons_self) (fun given => times given a List.mem_cons_self) kept

theorem emptyKept (timed : Prop) : ({} : Desk).Kept timed :=
  ⟨Timeline.emptyKept timed,by simp,by simp⟩

theorem runChecked {as : List Act} (inside : ∀ a ∈ as, a.outside = false) :
    (({} : Desk).run as).timeline.Kept False :=
  (runKept inside (fun given => given.elim) (emptyKept False)).timeline

theorem runSound {as : List Act} (inside : ∀ a ∈ as, a.outside = false)
    (times : ∀ a ∈ as, ∀ t ∈ a.times, t.isFinite = true) :
    (({} : Desk).run as).timeline.Sound :=
  (runKept inside (fun _ => times) (emptyKept True)).timeline.sound trivial

def cutting : List Act :=
  [.command 0 (.addOverlay { id := "t", content := "Hello" }),
   .command 0 (.addEffect { id := "e", kind := "zoom" }),
   .command 0 (.addClip ⟨"a","video","video",0,4,some "a.mp4",none,none⟩),
   .command 0 (.addClip ⟨"a","audio","audio",0,4,some "a.mp3",none,none⟩),
   .command 0 (.addClip ⟨"b","effect","effect",1,3,none,none,some "e"⟩),
   .command 0 (.openSession 0.25),
   .command 0 (.press "b" 1 none),
   .command 0 (.move 2),
   .command 0 .frame,
   .command 1 (.openSession 0.25),
   .command 1 (.press "a" 4 (some "right")),
   .command 1 (.release (some 7)),
   .command 0 .cancel,
   .command 0 (.proposeMove "b" 9 none 1 false),
   .applyProposal 2]

/-- Refused calls, two gestures at once, one of them cancelled, and a proposal applied later. -/
theorem cuttingSound : (∀ a ∈ cutting, a.outside = false) ∧
    (∀ a ∈ cutting, ∀ t ∈ a.times, t.isFinite = true) ∧
    (({} : Desk).run cutting).timeline.Sound ∧
    (({} : Desk).run cutting).timeline.clips.map (fun c => (c.id,c.start,c.stop)) =
      [("a",0,7),("b",5,7)] :=
  ⟨by decide,by decide,runSound (by decide) (by decide),by decide +kernel⟩

end Desk
end Montage
