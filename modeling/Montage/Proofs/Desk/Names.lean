import Montage.Proofs.Studio.Refused

/-! Ids of overlays and effects. Adding refuses an id that is taken; an update may give any id. So
ids stay distinct just as long as no update takes one that is in use. -/
namespace Montage

structure Timeline.Named (tl : Timeline) : Prop where
  overlays : (tl.overlays.map Overlay.id).Nodup
  effects : (tl.effects.map Effect.id).Nodup

/-- The update of an overlay or an effect passes every check and gives it an id that is in use. -/
def Command.collides (tl : Timeline) : Command → Bool
  | updateOverlay id p =>
    match tl.patchOverlay id p with
    | .ok new => new.id != id && (tl.overlay? new.id).isSome
    | .error _ => false
  | updateEffect id p =>
    match tl.patchEffect id p with
    | .ok new => new.id != id && (tl.effect? new.id).isSome
    | .error _ => false
  | _ => false

def Act.collides (tl : Timeline) (a : Act) : Bool := a.call?.any (·.collides tl)

namespace Timeline
variable {tl tl' : Timeline} {call : Option Command}

theorem patchOverlayFound {id : String} {p : OverlayPatch} {new : Overlay}
    (patched : tl.patchOverlay id p = .ok new) : ∃ t ∈ tl.overlays, t.id = id := by
  obtain ⟨old,found,_⟩ := bindOk patched
  have found := overlayFound found
  exact ⟨old,List.mem_of_find?_eq_some found,by simpa using List.find?_some found⟩

theorem patchEffectStored {id : String} {p : EffectPatch} {new : Effect}
    (patched : tl.patchEffect id p = .ok new) : ∃ e ∈ tl.effects, e.id = id := by
  obtain ⟨old,found⟩ := patchEffectFound patched
  have found := effectFound found
  exact ⟨old,List.mem_of_find?_eq_some found,by simpa using List.find?_some found⟩

theorem overlaySome {id : String} :
    (tl.overlay? id).isSome = true ↔ id ∈ tl.overlays.map Overlay.id := by
  simp [overlay?,List.find?_isSome]

theorem syncNamed (tl : Timeline) (c : Clip) : (tl.sync c).Named ↔ tl.Named := by
  have overlays := (syncSource tl c).2.1
  have effects := syncIds tl c
  exact ⟨fun named => ⟨overlays ▸ named.overlays,effects ▸ named.effects⟩,
    fun named => ⟨overlays ▸ named.overlays,effects ▸ named.effects⟩⟩

theorem syncLinkedNamed (tl : Timeline) (id : String) : (tl.syncLinked id).Named ↔ tl.Named := by
  unfold syncLinked
  split
  · exact syncNamed tl _
  · rfl

theorem freeName {new id : String} {found : Bool} {names : List String}
    (known : found = true ↔ new ∈ names) :
    (new = id ∨ new ∉ names) ↔ (new != id && found) = false := by
  rw [← known,Bool.and_eq_false_imp,bne_iff_ne,Bool.not_eq_true]
  exact or_iff_not_imp_left

theorem Edited.named {c : Command} (edit : Edited tl c tl') (named : tl.Named) :
    tl'.Named ↔ c.collides tl = false := by
  cases edit with
  | clipAdded fresh sound =>
    exact iff_of_true ((syncNamed _ _).mpr ⟨named.overlays,named.effects⟩) rfl
  | clipUpdated found patched =>
    exact iff_of_true ((syncNamed _ _).mpr ⟨named.overlays,named.effects⟩) rfl
  | clipOverwritten found => exact iff_of_true ⟨named.overlays,named.effects⟩ rfl
  | clipRemoved found => exact iff_of_true ⟨named.overlays,named.effects⟩ rfl
  | overlayAdded fresh sound =>
    refine iff_of_true ⟨nodupAppended named.overlays fun taken => ?_,named.effects⟩ rfl
    simpa [fresh] using overlaySome.mpr taken
  | @overlayUpdated id p new patched =>
    have collides : Command.collides tl (.updateOverlay id p) =
        (new.id != id && (tl.overlay? new.id).isSome) := by
      simp only [Command.collides,patched]
    rw [collides,← freeName overlaySome,
      ← nodupReplaced named.overlays (patchOverlayFound patched)]
    exact ⟨Named.overlays,fun unique => ⟨unique,named.effects⟩⟩
  | overlayRemoved found =>
    exact iff_of_true ⟨named.overlays.sublist (List.eraseP_sublist.map _),named.effects⟩ rfl
  | effectAdded fresh sound =>
    refine iff_of_true ((syncLinkedNamed _ _).mpr ⟨named.overlays,?_⟩) rfl
    refine nodupAppended named.effects fun taken => ?_
    rw [(Effect.normalSource sound).2] at taken
    simpa [fresh] using effectSome.mpr taken
  | @effectUpdated id p new patched =>
    have collides : Command.collides tl (.updateEffect id p) =
        (new.id != id && (tl.effect? new.id).isSome) := by
      simp only [Command.collides,patched]
    rw [collides,← freeName effectSome,syncLinkedNamed,
      ← nodupReplaced named.effects (patchEffectStored patched)]
    exact ⟨Named.effects,fun unique => ⟨named.overlays,unique⟩⟩
  | effectRemoved found =>
    exact iff_of_true ⟨named.overlays,named.effects.sublist (List.eraseP_sublist.map _)⟩ rfl

theorem collidesEdited {s : Studio} {c : Command} (collides : c.collides s.timeline = true) :
    Edited s.timeline c (s.step c).2.timeline := by
  cases c with
  | updateOverlay id p =>
    unfold Command.collides at collides
    dsimp only at collides
    split at collides
    · rename_i new patched
      have stored : (s.step (.updateOverlay id p)).2.timeline =
          { s.timeline with
            overlays := replaceFirst (·.id == id) new s.timeline.overlays } := by
        simp only [Studio.step,updateOverlayEq,patched]
        rfl
      exact stored ▸ .overlayUpdated patched
    · cases collides
  | updateEffect id p =>
    unfold Command.collides at collides
    dsimp only at collides
    split at collides
    · rename_i new patched
      have stored : (s.step (.updateEffect id p)).2.timeline = syncLinked { s.timeline with
          effects := replaceFirst (·.id == id) new s.timeline.effects } id := by
        simp only [Studio.step,updateEffectEq,patched]
      exact stored ▸ .effectUpdated patched
    · cases collides
  | _ => cases collides

end Timeline
namespace Desk
variable {d : Desk} {as : List Act}

theorem stepNamed (a : Act) (named : d.timeline.Named) :
    (d.step a).timeline.Named ↔ a.collides d.timeline = false := by
  constructor
  · intro kept
    cases a with
    | command i c =>
      by_contra collides
      have taken : c.collides (d.studio i).timeline = true := by
        rwa [Bool.not_eq_false] at collides
      have edit := Timeline.collidesEdited taken
      exact collides ((edit.named named).mp kept)
    | applyProposal i => rfl
    | apply l => rfl
  · intro free
    have passed := stepPassed d a
    generalize (d.step a).timeline = tl at passed
    cases passed with
    | same => exact named
    | called call edit =>
      rw [Act.collides,call] at free
      exact (edit.named named).mpr free
    | windowed edit => exact (edit.named named).mpr rfl

theorem runNamed (as : List Act) :
    (∀ n ≤ as.length, (({} : Desk).run (as.take n)).timeline.Named) ↔
      ∀ (n : Nat) (_ : n < as.length),
        as[n].collides (({} : Desk).run (as.take n)).timeline = false := by
  constructor
  · intro named n inside
    have after := named (n + 1) inside
    rw [runNext _ inside] at after
    exact (stepNamed as[n] (named n inside.le)).mp after
  · intro free
    refine everyState (P := fun d => d.timeline.Named) ⟨List.nodup_nil,List.nodup_nil⟩ ?_
    exact fun n inside named => (stepNamed as[n] named).mpr (free n inside)

def captioning : List Act :=
  [.command 0 (.addOverlay { id := "a", content := "A" }),
   .command 0 (.addOverlay { id := "b", content := "B" }),
   .command 0 (.updateOverlay "a" { id := some "b" })]

/-- An update may take the id of another overlay. -/
theorem captioningClash : ¬ ∀ as : List Act,
    (∀ a ∈ as, ∃ c : Command, a = .command 0 c ∧ c.edits = true) →
      ∀ n ≤ as.length, (({} : Desk).run (as.take n)).timeline.Named := by
  intro named
  have calls : ∀ a ∈ captioning, ∃ c : Command, a = .command 0 c ∧ c.edits = true := by
    simp [captioning,Command.edits]
  have unique := (named captioning calls 3 (by decide)).overlays
  revert unique
  decide +kernel

end Desk
end Montage
