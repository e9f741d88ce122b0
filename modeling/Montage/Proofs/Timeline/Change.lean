import Montage.Proofs.Answer
import Montage.Timeline.Edit

/-! What a call can do to a timeline. Whichever call it is, a timeline that differs afterwards has
gone through one of nine changes, and what was stored has passed its check. `W` is what else is
known of the clips that were stored. -/
namespace Montage.Timeline

inductive Change (W : Clip → Prop) (tl : Timeline) : Timeline → Prop where
  | clipAdded {c : Clip} (known : W c) (fresh : tl.clip? c.id = none) (sound : c.check = .ok ()) :
      Change W tl (sync { tl with clips := tl.clips ++ [c] } c)
  | clipUpdated {id : String} {p : ClipPatch} {old new : Clip} (known : W new)
      (found : tl.clip? id = some old) (patched : patchClip old id p = .ok new) :
      Change W tl (sync { tl with clips := replaceFirst (·.id == id) new tl.clips } new)
  | clipRemoved {id : String} {c : Clip} (found : tl.clip? id = some c) :
      Change W tl { tl with clips := tl.clips.eraseP (·.id == id) }
  | overlayAdded {t : Overlay} (fresh : tl.overlay? t.id = none) (sound : t.check = .ok ()) :
      Change W tl { tl with overlays := tl.overlays ++ [t] }
  | overlayUpdated {id : String} {p : OverlayPatch} {old : Overlay}
      (found : tl.overlay? id = some old) (fields : p.other = none)
      (sound : (p.apply old).check = .ok ()) :
      Change W tl { tl with overlays := replaceFirst (·.id == id) (p.apply old) tl.overlays }
  | overlayRemoved {id : String} {t : Overlay} (found : tl.overlay? id = some t) :
      Change W tl { tl with
        overlays := tl.overlays.eraseP (·.id == id)
        clips := tl.clips.filter fun c => !c.shows id }
  | effectAdded {e stored : Effect} (fresh : tl.effect? e.id = none)
      (sound : e.normal = .ok stored) :
      Change W tl (syncLinked { tl with effects := tl.effects ++ [stored] } e.id)
  | effectUpdated {id : String} {p : EffectPatch} {old new : Effect}
      (found : tl.effect? id = some old) (fields : p.other = none)
      (sound : (p.apply old).normal = .ok new) :
      Change W tl
        (syncLinked { tl with effects := replaceFirst (·.id == id) new tl.effects } id)
  | effectRemoved {id : String} {e : Effect} (found : tl.effect? id = some e) :
      Change W tl { tl with
        effects := tl.effects.eraseP (·.id == id)
        clips := tl.clips.filter fun c => !c.drives id }

variable {W : Clip → Prop} {tl tl' : Timeline}

theorem clipFound {id : String} {c : Clip} (ok : tl.clip id = .ok c) : tl.clip? id = some c := by
  unfold clip at ok
  split at ok
  · rename_i found
    rw [found,Except.ok.inj ok]
  · cases ok

theorem overlayFound {id : String} {t : Overlay} (ok : tl.overlay id = .ok t) :
    tl.overlay? id = some t := by
  unfold overlay at ok
  split at ok
  · rename_i found
    rw [found,Except.ok.inj ok]
  · cases ok

theorem effectFound {id : String} {e : Effect} (ok : tl.effect id = .ok e) :
    tl.effect? id = some e := by
  unfold effect at ok
  split at ok
  · rename_i found
    rw [found,Except.ok.inj ok]
  · cases ok

theorem patchSource {old new : Clip} {id : String} {p : ClipPatch}
    (ok : patchClip old id p = .ok new) :
    (∀ i ∈ p.id, i = id) ∧ p.other = none ∧ new = p.apply old ∧ new.check = .ok () := by
  unfold patchClip at ok
  split at ok
  · obtain ⟨_,bad⟩ := guardOk ok
    cases bad
  · rename_i fields
    obtain ⟨same,ok⟩ := guardOk ok
    obtain ⟨_,sound,last⟩ := bindOk ok
    cases Except.ok.inj last
    refine ⟨?_,fields,rfl,sound⟩
    intro i mem
    simp only [Option.mem_def] at mem
    simpa [mem] using same

theorem addClipSource {c : Clip} (ok : tl.addClip c = .ok tl') :
    tl.clip? c.id = none ∧ c.check = .ok () ∧
      tl' = sync { tl with clips := tl.clips ++ [c] } c := by
  unfold addClip at ok
  obtain ⟨fresh,ok⟩ := guardOk ok
  obtain ⟨_,sound,last⟩ := bindOk ok
  exact ⟨by simpa using fresh,sound,(Except.ok.inj last).symm⟩

theorem updateClipSource {id : String} {p : ClipPatch} {new : Clip}
    (ok : tl.updateClip id p = .ok (new,tl')) :
    ∃ old, tl.clip? id = some old ∧ patchClip old id p = .ok new ∧
      tl' = sync { tl with clips := replaceFirst (·.id == id) new tl.clips } new := by
  obtain ⟨old,found,ok⟩ := bindOk ok
  obtain ⟨stored,patched,last⟩ := bindOk ok
  cases Except.ok.inj last
  exact ⟨old,clipFound found,patched,rfl⟩

theorem removeClipSource {id : String} {c : Clip} (ok : tl.removeClip id = .ok (c,tl')) :
    tl.clip? id = some c ∧ tl' = { tl with clips := tl.clips.eraseP (·.id == id) } := by
  obtain ⟨old,found,last⟩ := bindOk ok
  cases Except.ok.inj last
  exact ⟨clipFound found,rfl⟩

theorem addOverlaySource {t : Overlay} (ok : tl.addOverlay t = .ok tl') :
    tl.overlay? t.id = none ∧ t.check = .ok () ∧
      tl' = { tl with overlays := tl.overlays ++ [t] } := by
  obtain ⟨_,fresh,ok⟩ := bindOk ok
  obtain ⟨_,sound,last⟩ := bindOk ok
  exact ⟨by simpa using (checkedOk fresh).1,sound,(Except.ok.inj last).symm⟩

theorem removeOverlaySource {id : String} {t : Overlay} (ok : tl.removeOverlay id = .ok (t,tl')) :
    tl.overlay? id = some t ∧ tl' = { tl with
      overlays := tl.overlays.eraseP (·.id == id)
      clips := tl.clips.filter fun c => !c.shows id } := by
  obtain ⟨old,found,last⟩ := bindOk ok
  cases Except.ok.inj last
  exact ⟨overlayFound found,rfl⟩

theorem addEffectSource {e e' : Effect} (ok : tl.addEffect e = .ok (e',tl')) :
    ∃ stored, tl.effect? e.id = none ∧ e.normal = .ok stored ∧
      tl' = syncLinked { tl with effects := tl.effects ++ [stored] } e.id := by
  unfold addEffect at ok
  obtain ⟨fresh,ok⟩ := guardOk ok
  obtain ⟨stored,sound,last⟩ := bindOk ok
  cases Except.ok.inj last
  exact ⟨stored,by simpa using fresh,sound,rfl⟩

theorem removeEffectSource {id : String} {e : Effect} (ok : tl.removeEffect id = .ok (e,tl')) :
    tl.effect? id = some e ∧ tl' = { tl with
      effects := tl.effects.eraseP (·.id == id)
      clips := tl.clips.filter fun c => !c.drives id } := by
  obtain ⟨old,found,last⟩ := bindOk ok
  cases Except.ok.inj last
  exact ⟨effectFound found,rfl⟩

theorem addClipChange {c : Clip} (known : W c) (ok : tl.addClip c = .ok tl') :
    Change W tl tl' := by
  obtain ⟨fresh,sound,rfl⟩ := addClipSource ok
  exact .clipAdded known fresh sound

theorem updateClipChange {id : String} {p : ClipPatch} {new : Clip}
    (known : ∀ old, tl.clip? id = some old → W (p.apply old))
    (ok : tl.updateClip id p = .ok (new,tl')) : Change W tl tl' := by
  obtain ⟨old,found,patched,rfl⟩ := updateClipSource ok
  have shape := (patchSource patched).2.2.1
  exact .clipUpdated (shape ▸ known old found) found patched

theorem removeClipChange {id : String} {c : Clip} (ok : tl.removeClip id = .ok (c,tl')) :
    Change W tl tl' := by
  obtain ⟨found,rfl⟩ := removeClipSource ok
  exact .clipRemoved found

theorem addOverlayChange {t : Overlay} (ok : tl.addOverlay t = .ok tl') : Change W tl tl' := by
  obtain ⟨fresh,sound,rfl⟩ := addOverlaySource ok
  exact .overlayAdded fresh sound

theorem updateOverlayChange {id : String} {p : OverlayPatch} {t : Overlay}
    (ok : tl.updateOverlay id p = .ok (t,tl')) : Change W tl tl' := by
  obtain ⟨old,found,ok⟩ := bindOk ok
  split at ok
  · cases ok
  · rename_i fields
    obtain ⟨_,sound,last⟩ := bindOk ok
    cases Except.ok.inj last
    exact .overlayUpdated (overlayFound found) fields sound

theorem removeOverlayChange {id : String} {t : Overlay} (ok : tl.removeOverlay id = .ok (t,tl')) :
    Change W tl tl' := by
  obtain ⟨found,rfl⟩ := removeOverlaySource ok
  exact .overlayRemoved found

theorem addEffectChange {e e' : Effect} (ok : tl.addEffect e = .ok (e',tl')) :
    Change W tl tl' := by
  obtain ⟨stored,fresh,sound,rfl⟩ := addEffectSource ok
  exact .effectAdded fresh sound

/-- A refused update leaves the timeline as it was; an update may change it and still fault. -/
theorem updateEffectChange (id : String) (p : EffectPatch) :
    (tl.updateEffect id p).2 = tl ∨ Change W tl (tl.updateEffect id p).2 := by
  unfold updateEffect
  dsimp only
  split
  · exact .inl rfl
  · rename_i new checked
    right
    obtain ⟨old,found,ok⟩ := bindOk checked
    split at ok
    · cases ok
    · rename_i fields
      exact .effectUpdated (effectFound found) fields ok

theorem removeEffectChange {id : String} {e : Effect} (ok : tl.removeEffect id = .ok (e,tl')) :
    Change W tl tl' := by
  obtain ⟨found,rfl⟩ := removeEffectSource ok
  exact .effectRemoved found

end Montage.Timeline
