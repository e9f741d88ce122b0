import Montage.Proofs.Studio.Edited

/-! Refusals. A call that is refused has changed nothing, but for one that gives an effect another
id: the effect is stored by then, and it is the answer that cannot be found under the old id. -/
namespace Montage

/-- The update of an effect passes every check and gives the effect another id. -/
def Command.renames (tl : Timeline) : Command → Bool
  | updateEffect id p =>
    match tl.patchEffect id p with
    | .ok new => new.id != id
    | .error _ => false
  | _ => false

namespace Timeline
variable {tl : Timeline}

theorem syncIds (tl : Timeline) (c : Clip) :
    (tl.sync c).effects.map Effect.id = tl.effects.map Effect.id := by
  rw [syncGives,List.map_map]
  exact List.map_congr_left fun e _ => c.givesId e

theorem syncLinkedIds (tl : Timeline) (id : String) :
    (tl.syncLinked id).effects.map Effect.id = tl.effects.map Effect.id := by
  unfold syncLinked
  split
  · exact syncIds tl _
  · rfl

theorem effectSome {id : String} : (tl.effect? id).isSome = true ↔ id ∈ tl.effects.map Effect.id := by
  simp [effect?,List.find?_isSome]

theorem effectRefused {id : String} {f : Fault} (refused : tl.effect id = .error f) :
    tl.effect? id = none := by
  unfold effect at refused
  split at refused
  · cases refused
  · assumption

theorem patchEffectFound {id : String} {p : EffectPatch} {new : Effect}
    (patched : tl.patchEffect id p = .ok new) : ∃ old, tl.effect id = .ok old := by
  obtain ⟨old,found,_⟩ := bindOk patched
  exact ⟨old,found⟩

end Timeline

namespace Studio
variable {s : Studio} {c : Command} {f : Fault}

theorem editRefused {change : Except Fault (Reply × Timeline)}
    (refused : (s.edit change).1 = .error f) : (s.edit change).2.timeline = s.timeline := by
  cases change with
  | error g => rfl
  | ok made => cases refused

theorem sessionRefused {act : Session → Except Fault Reply × Studio}
    (source : ∀ x, (act x).1 = .error f → (act x).2.timeline = s.timeline)
    (refused : (s.onSession act).1 = .error f) :
    (s.onSession act).2.timeline = s.timeline := by
  unfold onSession at refused ⊢
  split
  · rename_i x present
    rw [present] at refused
    exact source x refused
  · rfl

theorem frameRefused {x : Session} {tl : Timeline} (refused : (x.frame tl).result = .error f) :
    (x.frame tl).timeline = tl := by
  have source := x.framed tl
  generalize x.frame tl = o at source refused
  cases source with
  | nothing still => rfl
  | refused busy => rfl
  | landed busy noted proposed applied => cases refused

theorem releaseRefused {x : Session} {t : Option Float} {tl : Timeline}
    (refused : (x.release tl t).result = .error f) : (x.release tl t).timeline = tl := by
  unfold Session.release at refused ⊢
  split
  · rfl
  · rename_i busy
    rw [if_neg busy] at refused
    exact frameRefused refused

theorem cancelRefused {x : Session} {tl : Timeline} (refused : (x.cancel tl).result = .error f) :
    (x.cancel tl).timeline = tl := by
  have source := x.cancelled tl
  generalize x.cancel tl = o at source refused
  cases source with
  | idle still => rfl
  | refused busy => rfl
  | restored noted applied => cases refused

theorem eventRefused {reply : α → Reply} {act : Session → Timeline → Outcome α}
    (source : ∀ x, (act x s.timeline).result = .error f → (act x s.timeline).timeline = s.timeline)
    (refused : (s.event reply act).1 = .error f) :
    (s.event reply act).2.timeline = s.timeline :=
  sessionRefused (fun x bad => source x (mapError bad)) refused

theorem renamedLost {tl : Timeline} {id : String} {p : EffectPatch}
    (refused : (tl.updateEffect id p).1 = .error f) :
    (tl.updateEffect id p).2 = tl ↔ Command.renames tl (.updateEffect id p) = false := by
  rw [Timeline.updateEffectEq] at refused ⊢
  unfold Command.renames
  dsimp only
  cases patched : tl.patchEffect id p with
  | error g => exact ⟨fun _ => rfl,fun _ => rfl⟩
  | ok new =>
    rw [patched] at refused
    have lost := Timeline.effectRefused refused
    obtain ⟨old,found⟩ := Timeline.patchEffectFound patched
    have stored := List.find?_some (Timeline.effectFound found)
    constructor
    · intro same
      dsimp only at same
      rw [same,Timeline.effectFound found] at lost
      cases lost
    · intro kept
      exfalso
      have here : new ∈ replaceFirst (·.id == id) new tl.effects :=
        memReplaceFirst ⟨old,List.mem_of_find?_eq_some (Timeline.effectFound found),stored⟩
      have named : id ∈ (replaceFirst (·.id == id) new tl.effects).map Effect.id :=
        List.mem_map.mpr ⟨new,here,by simpa using kept⟩
      have isSome := Timeline.effectSome.mpr (Timeline.syncLinkedIds
        { tl with effects := replaceFirst (·.id == id) new tl.effects } id ▸ named)
      rw [lost] at isSome
      cases isSome

/-- Any call at all, of the timeline or of a session. -/
theorem refusedUnchanged (refused : (s.step c).1 = .error f) :
    (s.step c).2.timeline = s.timeline ↔ c.renames s.timeline = false := by
  cases c with
  | updateEffect id p => exact renamedLost (mapError refused)
  | addClip | addOverlay | addEffect | updateClip | updateOverlay | removeClip | removeOverlay
  | removeEffect | overwriteClip => exact ⟨fun _ => rfl,fun _ => editRefused refused⟩
  | proposeMove | proposeResize => exact ⟨fun _ => rfl,fun _ => editRefused refused⟩
  | press id t handle =>
    refine ⟨fun _ => rfl,fun _ => sessionRefused (fun x bad => ?_) refused⟩
    split <;> rfl
  | move t => exact ⟨fun _ => rfl,fun _ => sessionRefused (fun x _ => rfl) refused⟩
  | frame => exact ⟨fun _ => rfl,fun _ => eventRefused (fun x => frameRefused) refused⟩
  | release t => exact ⟨fun _ => rfl,fun _ => eventRefused (fun x => releaseRefused) refused⟩
  | cancel => exact ⟨fun _ => rfl,fun _ => eventRefused (fun x => cancelRefused) refused⟩
  | getClip | getOverlay | getEffect | clipForOverlay | clipForEffect | onTrack | ofKinds | length
  | validate | boundaries | openSession | compile => exact ⟨fun _ => rfl,fun _ => rfl⟩

def fading : Studio := { timeline := { effects := [{ id := "e", kind := "fade" }] } }

/-- A strength out of range, given together with another id, is refused before either is stored. -/
theorem fadingUnchanged :
    (fading.step (.updateEffect "e" { id := some "x", intensity := some 101 })).1 =
        .error (.rejected (.intensityOutOfRange "x" 101)) ∧
      (fading.step (.updateEffect "e" { id := some "x", intensity := some 101 })).2.timeline =
        fading.timeline :=
  ⟨rfl,(refusedUnchanged (c := .updateEffect "e" { id := some "x", intensity := some 101 })
    (f := .rejected (.intensityOutOfRange "x" 101)) rfl).mpr (by decide +kernel)⟩

/-- The new id alone is stored, and the call refused. -/
theorem fadingRenamed : ¬ ∀ (as : List Act) (c : Command) (f : Fault),
    (∀ a ∈ as, a.outside = false) → c.edits = true →
      (Studio.step ⟨(({} : Desk).run as).timeline,none⟩ c).1 = .error f →
        (Studio.step ⟨(({} : Desk).run as).timeline,none⟩ c).2.timeline =
          (({} : Desk).run as).timeline := by
  intro keeps
  have same := keeps [.command 0 (.addEffect { id := "e", kind := "fade" })]
    (.updateEffect "e" { id := some "x" }) (.absent (.effect "e")) (by decide) rfl rfl
  revert same
  decide +kernel

end Studio
end Montage
