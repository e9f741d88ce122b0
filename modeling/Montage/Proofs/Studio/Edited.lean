import Montage.Proofs.Desk

/-! What a command does to the timeline. Whatever the command is and whatever it answers, the
timeline stays as it was or goes through one edit: the one that the command names, or a new window
for a clip where a session or a proposal asks for one. -/
namespace Montage

def ClipPatch.window (start stop : Float) : ClipPatch := { start := some start, stop := some stop }

/-- The calls that add, update or remove a clip, an overlay or an effect. -/
def Command.edits : Command → Bool
  | addClip _ | addOverlay _ | addEffect _ | updateClip .. | updateOverlay .. | updateEffect ..
  | removeClip _ | removeOverlay _ | removeEffect _ => true
  | _ => false

namespace Timeline

def patchOverlay (tl : Timeline) (id : String) (p : OverlayPatch) : Except Fault Overlay := do
  let old ← tl.overlay id
  match p.other with
  | some name => throw (.unusable (.unknownField name))
  | none =>
    (p.apply old).check
    return p.apply old

def patchEffect (tl : Timeline) (id : String) (p : EffectPatch) : Except Fault Effect := do
  let old ← tl.effect id
  match p.other with
  | some name => throw (.unusable (.unknownField name))
  | none => (p.apply old).normal

inductive Edited (tl : Timeline) : Command → Timeline → Prop where
  | clipAdded {c : Clip} (fresh : tl.clip? c.id = none) (sound : c.check = .ok ()) :
      Edited tl (.addClip c) (sync { tl with clips := tl.clips ++ [c] } c)
  | clipUpdated {id : String} {p : ClipPatch} {old new : Clip} (found : tl.clip? id = some old)
      (patched : patchClip old id p = .ok new) :
      Edited tl (.updateClip id p)
        (sync { tl with clips := replaceFirst (·.id == id) new tl.clips } new)
  | clipOverwritten {id : String} {p : ClipPatch} {old : Clip} (found : tl.clip? id = some old) :
      Edited tl (.overwriteClip id p)
        { tl with clips := replaceFirst (·.id == id) (p.apply old) tl.clips }
  | clipRemoved {id : String} {c : Clip} (found : tl.clip? id = some c) :
      Edited tl (.removeClip id) { tl with clips := tl.clips.eraseP (·.id == id) }
  | overlayAdded {t : Overlay} (fresh : tl.overlay? t.id = none) (sound : t.check = .ok ()) :
      Edited tl (.addOverlay t) { tl with overlays := tl.overlays ++ [t] }
  | overlayUpdated {id : String} {p : OverlayPatch} {new : Overlay}
      (patched : tl.patchOverlay id p = .ok new) :
      Edited tl (.updateOverlay id p)
        { tl with overlays := replaceFirst (·.id == id) new tl.overlays }
  | overlayRemoved {id : String} {t : Overlay} (found : tl.overlay? id = some t) :
      Edited tl (.removeOverlay id) { tl with
        overlays := tl.overlays.eraseP (·.id == id)
        clips := tl.clips.filter fun c => !c.shows id }
  | effectAdded {e stored : Effect} (fresh : tl.effect? e.id = none)
      (sound : e.normal = .ok stored) :
      Edited tl (.addEffect e) (syncLinked { tl with effects := tl.effects ++ [stored] } e.id)
  | effectUpdated {id : String} {p : EffectPatch} {new : Effect}
      (patched : tl.patchEffect id p = .ok new) :
      Edited tl (.updateEffect id p)
        (syncLinked { tl with effects := replaceFirst (·.id == id) new tl.effects } id)
  | effectRemoved {id : String} {e : Effect} (found : tl.effect? id = some e) :
      Edited tl (.removeEffect id) { tl with
        effects := tl.effects.eraseP (·.id == id)
        clips := tl.clips.filter fun c => !c.drives id }

/-- By no edit, by the one that was called, or by a new window for a clip. -/
inductive Passed (call : Option Command) (tl : Timeline) : Timeline → Prop where
  | same : Passed call tl tl
  | called {c : Command} {tl' : Timeline} (named : call = some c) (edit : Edited tl c tl') :
      Passed call tl tl'
  | windowed {id : String} {start stop : Float} {tl' : Timeline}
      (edit : Edited tl (.updateClip id (.window start stop)) tl') : Passed call tl tl'

variable {tl tl' : Timeline} {call : Option Command}

theorem updateEdited {id : String} {p : ClipPatch} {new : Clip}
    (ok : tl.updateClip id p = .ok (new,tl')) : Edited tl (.updateClip id p) tl' := by
  obtain ⟨old,found,patched,rfl⟩ := updateClipSource ok
  exact .clipUpdated found patched

theorem landPassed {l : Landing} {c : Clip} (ok : l.apply tl = .ok (c,tl')) :
    Passed call tl tl' :=
  .windowed (updateEdited ok)

theorem updateOverlayEq (id : String) (p : OverlayPatch) :
    tl.updateOverlay id p = (tl.patchOverlay id p >>= fun new =>
      pure (new,{ tl with overlays := replaceFirst (·.id == id) new tl.overlays })) := by
  unfold updateOverlay patchOverlay
  cases tl.overlay id with
  | error f => rfl
  | ok old =>
    cases p.other with
    | some name => rfl
    | none =>
      cases checked : (p.apply old).check <;> simp [checked,bind,Except.bind,pure,Except.pure]

theorem updateEffectEq (id : String) (p : EffectPatch) :
    tl.updateEffect id p = match tl.patchEffect id p with
      | .error f => (.error f,tl)
      | .ok new =>
        let after := syncLinked { tl with effects := replaceFirst (·.id == id) new tl.effects } id
        (after.effect id,after) := rfl

end Timeline

namespace Studio
variable {s : Studio} {call : Option Command}

theorem editPassed {x : Except Fault α} {answer : α → Reply} (after : α → Timeline)
    (source : ∀ a, x = .ok a → Timeline.Passed call s.timeline (after a)) :
    Timeline.Passed call s.timeline
      (s.edit (x >>= fun a => pure (answer a,after a))).2.timeline := by
  cases x with
  | error f => exact .same
  | ok a => exact source a rfl

theorem sessionPassed {act : Session → Except Fault Reply × Studio}
    (source : ∀ x, Timeline.Passed call s.timeline (act x).2.timeline) :
    Timeline.Passed call s.timeline (s.onSession act).2.timeline := by
  unfold onSession
  split
  · exact source _
  · exact .same

theorem landedPassed (apply : Bool) (proposal : Except Fault Landing) :
    Timeline.Passed call s.timeline (s.land apply proposal).2.timeline := by
  unfold land
  cases proposal with
  | error f => exact .same
  | ok l =>
    cases apply with
    | false => exact .same
    | true => exact editPassed Prod.snd fun _ applied => Timeline.landPassed applied

theorem framePassed (x : Session) : Timeline.Passed call s.timeline (x.frame s.timeline).timeline := by
  have source := x.framed s.timeline
  generalize x.frame s.timeline = o at source
  cases source with
  | nothing still => exact .same
  | refused busy => exact .same
  | landed busy noted proposed applied => exact Timeline.landPassed applied

theorem releasePassed (x : Session) (t : Option Float) :
    Timeline.Passed call s.timeline (x.release s.timeline t).timeline := by
  unfold Session.release
  split
  · exact .same
  · exact framePassed _

theorem cancelPassed (x : Session) :
    Timeline.Passed call s.timeline (x.cancel s.timeline).timeline := by
  have source := x.cancelled s.timeline
  generalize x.cancel s.timeline = o at source
  cases source with
  | idle still => exact .same
  | refused busy => exact .same
  | restored noted applied => exact .windowed (Timeline.updateEdited applied)

theorem stepPassed (s : Studio) (c : Command) :
    Timeline.Passed (some c) s.timeline (s.step c).2.timeline := by
  cases c with
  | addClip c =>
    refine editPassed (fun tl => tl) fun tl added => ?_
    obtain ⟨fresh,sound,rfl⟩ := Timeline.addClipSource added
    exact .called rfl (.clipAdded fresh sound)
  | addOverlay t =>
    refine editPassed (fun tl => tl) fun tl added => ?_
    obtain ⟨fresh,sound,rfl⟩ := Timeline.addOverlaySource added
    exact .called rfl (.overlayAdded fresh sound)
  | addEffect e =>
    refine editPassed Prod.snd fun _ added => ?_
    obtain ⟨stored,fresh,sound,same⟩ := Timeline.addEffectSource added
    exact same ▸ .called rfl (.effectAdded fresh sound)
  | updateClip id p =>
    refine editPassed Prod.snd fun _ updated => ?_
    exact .called rfl (Timeline.updateEdited updated)
  | updateOverlay id p =>
    refine editPassed Prod.snd fun _ updated => ?_
    rw [Timeline.updateOverlayEq] at updated
    obtain ⟨new,patched,last⟩ := bindOk updated
    cases Except.ok.inj last
    exact .called rfl (.overlayUpdated patched)
  | updateEffect id p =>
    change Timeline.Passed _ _ (s.timeline.updateEffect id p).2
    rw [Timeline.updateEffectEq]
    split
    · exact .same
    · exact .called rfl (.effectUpdated ‹_›)
  | removeClip id =>
    refine editPassed Prod.snd fun _ removed => ?_
    obtain ⟨found,same⟩ := Timeline.removeClipSource removed
    exact same ▸ .called rfl (.clipRemoved found)
  | removeOverlay id =>
    refine editPassed Prod.snd fun _ removed => ?_
    obtain ⟨found,same⟩ := Timeline.removeOverlaySource removed
    exact same ▸ .called rfl (.overlayRemoved found)
  | removeEffect id =>
    refine editPassed Prod.snd fun _ removed => ?_
    obtain ⟨found,same⟩ := Timeline.removeEffectSource removed
    exact same ▸ .called rfl (.effectRemoved found)
  | overwriteClip id p =>
    refine editPassed (fun tl => tl) fun tl overwritten => ?_
    obtain ⟨old,found,last⟩ := bindOk overwritten
    cases Except.ok.inj last
    exact .called rfl (.clipOverwritten (Timeline.clipFound found))
  | proposeMove id start whole threshold apply => exact landedPassed apply _
  | proposeResize id side t threshold apply => exact landedPassed apply _
  | press id t handle =>
    refine sessionPassed fun x => ?_
    split <;> exact .same
  | move t => exact sessionPassed fun x => .same
  | frame => exact sessionPassed framePassed
  | release t => exact sessionPassed fun x => releasePassed x t
  | cancel => exact sessionPassed cancelPassed
  | getClip | getOverlay | getEffect | clipForOverlay | clipForEffect | onTrack | ofKinds | length
  | validate | boundaries | openSession | compile => exact .same

end Studio

def Act.call? : Act → Option Command
  | command _ c => some c
  | _ => none

namespace Desk

theorem stepPassed (d : Desk) (a : Act) :
    Timeline.Passed a.call? d.timeline (d.step a).timeline := by
  have landed (call : Option Command) (l : Landing) :
      Timeline.Passed call d.timeline (d.land l).timeline := by
    unfold land
    split
    · exact Timeline.landPassed ‹_›
    · exact .same
  cases a with
  | command i c => exact Studio.stepPassed (d.studio i) c
  | apply l => exact landed _ l
  | applyProposal i =>
    dsimp only [step]
    split
    · exact landed _ _
    · exact .same

theorem runNext (d : Desk) {as : List Act} {n : Nat} (inside : n < as.length) :
    d.run (as.take (n + 1)) = (d.run (as.take n)).step as[n] := by
  induction as generalizing d n with
  | nil => cases inside
  | cons a as ih =>
    cases n with
    | zero => rfl
    | succ n => exact ih (d.step a) (Nat.lt_of_succ_lt_succ inside)

theorem everyState {P : Desk → Prop} {d : Desk} {as : List Act} (first : P d)
    (step : ∀ (n : Nat) (_ : n < as.length), P (d.run (as.take n)) →
      P ((d.run (as.take n)).step as[n])) : ∀ n ≤ as.length, P (d.run (as.take n)) := by
  intro n inside
  induction n with
  | zero => exact first
  | succ n ih =>
    rw [runNext d inside]
    exact step n inside (ih (Nat.le_of_succ_le inside))

end Desk
end Montage
