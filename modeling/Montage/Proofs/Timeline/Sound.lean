import Montage.Proofs.Timeline.Change
import Montage.Proofs.Timeline.Given
import Montage.Proofs.Timeline.Replaced
import Montage.Proofs.Double.Number

/-! What is true of a timeline as long as only its own operations change it. Everything stored has
passed its check and clip ids differ; where times are numbers, the checks give windows that begin
at zero or later and are not empty. Nothing is claimed about a clip overwritten from outside. -/
namespace Montage

def Clip.Timed (c : Clip) : Prop := c.start.isNaN = false ∧ c.stop.isNaN = false

structure Clip.Sound (c : Clip) : Prop where
  track : c.track ∈ trackNames
  kind : c.kind = c.track
  start : 0 ≤ c.start
  window : c.start < c.stop
  source : c.kind ∈ sourceKinds → ∃ s, c.source = some s ∧ s ≠ ""
  overlay : c.kind = "text" → ∃ s, c.overlay = some s ∧ s ≠ ""
  effect : c.kind = "effect" → ∃ s, c.effect = some s ∧ s ≠ ""

structure Overlay.Sound (t : Overlay) : Prop where
  align : t.align ∈ alignments
  animation : t.animation = none ∨ t.animation = some "fade"
  fontSize : 0 < t.fontSize

structure Effect.Sound (e : Effect) : Prop where
  kind : e.kind ∈ effectKinds
  least : 0 ≤ e.intensity
  most : e.intensity ≤ 100

structure Timeline.Sound (tl : Timeline) : Prop where
  ids : (tl.clips.map Clip.id).Nodup
  clips : ∀ c ∈ tl.clips, c.Sound
  overlays : ∀ t ∈ tl.overlays, t.Sound
  effects : ∀ e ∈ tl.effects, e.Sound

/-- What the operations keep. That windows are made of numbers is kept only where callers give
numbers; `timed` says whether they do. -/
structure Timeline.Kept (timed : Prop) (tl : Timeline) : Prop where
  ids : (tl.clips.map Clip.id).Nodup
  clips : ∀ c ∈ tl.clips, c.check = .ok ()
  times : timed → ∀ c ∈ tl.clips, c.Timed
  overlays : ∀ t ∈ tl.overlays, t.check = .ok ()
  effects : ∀ e ∈ tl.effects, e.Sound

theorem refGiven {r : Option String} (given : ¬ noRef r = true) : ∃ s, r = some s ∧ s ≠ "" := by
  cases r with
  | none => exact absurd rfl given
  | some s => exact ⟨s,rfl,by simpa [noRef] using given⟩

namespace Clip
variable {c : Clip}

/-- The check compares times as they are; NaN passes every comparison. -/
theorem checkSource (ok : c.check = .ok ()) :
    c.track ∈ trackNames ∧ c.kind = c.track ∧ ¬ c.start < 0 ∧ ¬ c.stop ≤ c.start ∧
      (c.kind ∈ sourceKinds → ∃ s, c.source = some s ∧ s ≠ "") ∧
      (c.kind = "text" → ∃ s, c.overlay = some s ∧ s ≠ "") ∧
      (c.kind = "effect" → ∃ s, c.effect = some s ∧ s ≠ "") := by
  unfold check at ok
  obtain ⟨track,ok⟩ := checkedOk ok
  obtain ⟨kind,ok⟩ := checkedOk ok
  obtain ⟨start,ok⟩ := checkedOk ok
  obtain ⟨window,ok⟩ := checkedOk ok
  obtain ⟨source,ok⟩ := checkedOk ok
  obtain ⟨overlay,ok⟩ := checkedOk ok
  obtain ⟨effect,_⟩ := checkedOk ok
  refine ⟨not_not.mp track,not_not.mp kind,start,window,?_,?_,?_⟩
  · exact fun media => refGiven fun none => source ⟨media,none⟩
  · exact fun text => refGiven fun none => overlay ⟨text,none⟩
  · exact fun placed => refGiven fun none => effect ⟨placed,none⟩

theorem checkOpen (ok : c.check = .ok ()) : ¬ c.stop ≤ c.start := (checkSource ok).2.2.2.1

/-- A span is NaN if a time is. -/
theorem spanOpen (opens : ¬ c.stop ≤ c.start) : ¬ c.span ≤ 0 := by
  intro low
  have number (missing : c.stop.isNaN = true ∨ c.start.isNaN = true) : False :=
    Bool.false_ne_true ((numberOfLe low).1.symm.trans (differenceNaN missing))
  have stop : c.stop.isNaN = false := Bool.eq_false_iff.mpr fun missing => number (.inl missing)
  have start : c.start.isNaN = false := Bool.eq_false_iff.mpr fun missing => number (.inr missing)
  have positive : 0 < c.span := differencePositive ((notLeIff stop start).mp opens)
  exact (notLeIff (numberOfLess positive).2 rfl).mpr positive low

theorem soundOf (ok : c.check = .ok ()) (timed : c.Timed) : c.Sound := by
  obtain ⟨track,kind,start,window,source,overlay,effect⟩ := checkSource ok
  exact ⟨track,kind,(notLtIff timed.1 rfl).mp start,(notLeIff timed.2 timed.1).mp window,source,
    overlay,effect⟩

theorem Sound.timed (sound : c.Sound) : c.Timed := numberOfLess sound.window

theorem Sound.finite (sound : c.Sound) : c.start.isFinite = true :=
  finiteStart sound.start sound.window

theorem Sound.spanPositive (sound : c.Sound) : 0 < c.span := differencePositive sound.window

end Clip

theorem Overlay.soundOf {t : Overlay} (ok : t.check = .ok ()) : t.Sound := by
  obtain ⟨_,align,ok⟩ := bindOk ok
  obtain ⟨_,animation,size⟩ := bindOk ok
  refine ⟨?_,?_,?_⟩
  · unfold checkAlign at align
    split at align
    · assumption
    · cases align
  · unfold checkAnimation at animation
    split at animation
    · exact .inl ‹_›
    · split at animation
      · rename_i given same
        exact .inr (same ▸ given)
      · cases animation
  · have := (checkedOk size).1
    omega

theorem normalKindListed {kind name : String} (ok : normalKind kind = .ok name) :
    name ∈ effectKinds := by
  unfold normalKind at ok
  dsimp only at ok
  generalize (if kind = "zoom" then "amplify" else if kind = "blur" then "soften" else kind) = k at ok
  split at ok
  · rename_i listed
    exact Except.ok.inj ok ▸ listed
  · cases ok

/-- NaN is not let in. -/
theorem Effect.admitted {e : Effect} (ok : e.checkIntensity = .ok ()) :
    0 ≤ e.intensity ∧ e.intensity ≤ 100 := by
  unfold checkIntensity at ok
  split at ok
  · assumption
  · cases ok

theorem Effect.normalSource {e stored : Effect} (ok : e.normal = .ok stored) :
    stored.Sound ∧ stored.id = e.id := by
  obtain ⟨kind,listed,ok⟩ := bindOk ok
  obtain ⟨_,range,last⟩ := bindOk ok
  cases Except.ok.inj last
  obtain ⟨least,most⟩ := admitted range
  exact ⟨⟨normalKindListed listed,least,most⟩,rfl⟩

namespace Timeline
variable {tl tl' : Timeline}

theorem checkClipsSource {cs : List Clip} (valid : tl.checkClips cs = .ok ()) :
    ∀ c ∈ cs, c.check = .ok () ∧ tl.checkRefs c = .ok () := by
  induction cs with
  | nil => simp
  | cons c cs ih =>
    obtain ⟨_,check,valid⟩ := bindOk valid
    obtain ⟨_,refs,valid⟩ := bindOk valid
    exact List.forall_mem_cons.mpr ⟨⟨check,refs⟩,ih valid⟩

theorem overlayStored {c : Clip} (refs : tl.checkRefs c = .ok ()) (text : c.kind = "text") :
    ∃ t ∈ tl.overlays, c.overlay = some t.id := by
  obtain ⟨known,_⟩ := checkedOk refs
  cases placed : c.overlay with
  | none => simp [text,placed] at known
  | some id =>
    have stored : id ∈ tl.overlays.map Overlay.id := by simpa [text,placed] using known
    obtain ⟨t,mem,rfl⟩ := List.mem_map.mp stored
    exact ⟨t,mem,rfl⟩

theorem foundClip {id : String} {c : Clip} (found : tl.clip? id = some c) :
    c ∈ tl.clips ∧ c.id = id :=
  ⟨List.mem_of_find?_eq_some found,by simpa using List.find?_some found⟩

theorem absentClip {id : String} (absent : tl.clip? id = none) : id ∉ tl.clips.map Clip.id := by
  intro mem
  obtain ⟨c,mem,same⟩ := List.mem_map.mp mem
  have := List.find?_eq_none.mp absent c mem
  simp [same] at this

theorem syncSource (tl : Timeline) (c : Clip) :
    (tl.sync c).clips = tl.clips ∧ (tl.sync c).overlays = tl.overlays ∧
      ∀ e ∈ (tl.sync c).effects, ∃ d ∈ tl.effects,
        e.id = d.id ∧ e.kind = d.kind ∧ e.intensity = d.intensity := by
  rw [syncGives]
  refine ⟨rfl,rfl,fun e mem => ?_⟩
  obtain ⟨d,stored,rfl⟩ := List.mem_map.mp mem
  obtain ⟨start,stop,same⟩ := c.givesWindow d
  exact ⟨d,stored,same ▸ ⟨rfl,rfl,rfl⟩⟩

theorem Kept.sync {timed : Prop} (kept : tl.Kept timed) (c : Clip) : (tl.sync c).Kept timed := by
  obtain ⟨clips,overlays,effects⟩ := syncSource tl c
  refine ⟨clips ▸ kept.ids,clips ▸ kept.clips,clips ▸ kept.times,overlays ▸ kept.overlays,?_⟩
  intro e mem
  obtain ⟨d,mem,_,kind,intensity⟩ := effects e mem
  have sound := kept.effects d mem
  exact ⟨kind ▸ sound.kind,intensity ▸ sound.least,intensity ▸ sound.most⟩

theorem Kept.syncLinked {timed : Prop} (kept : tl.Kept timed) (id : String) :
    (tl.syncLinked id).Kept timed := by
  unfold Timeline.syncLinked
  split
  · exact kept.sync _
  · exact kept

theorem Kept.fewer {timed : Prop} (kept : tl.Kept timed) (clips : tl'.clips.Sublist tl.clips)
    (overlays : tl'.overlays ⊆ tl.overlays) (effects : tl'.effects ⊆ tl.effects) :
    tl'.Kept timed where
  ids := kept.ids.sublist (clips.map Clip.id)
  clips c mem := kept.clips c (clips.subset mem)
  times given c mem := kept.times given c (clips.subset mem)
  overlays t mem := kept.overlays t (overlays mem)
  effects e mem := kept.effects e (effects mem)

theorem Change.kept {timed : Prop} (change : Change (fun c => timed → c.Timed) tl tl')
    (kept : tl.Kept timed) : tl'.Kept timed := by
  cases change with
  | @clipAdded c known fresh sound =>
    apply Kept.sync
    refine ⟨?_,forallAppendOne kept.clips sound,?_,kept.overlays,kept.effects⟩
    · exact nodupAppended kept.ids (absentClip fresh)
    · exact fun given => forallAppendOne (kept.times given) (known given)
  | @clipUpdated id p old new known found patched =>
    obtain ⟨fixed,_,shape,sound⟩ := patchSource patched
    have same : new.id = id := by
      have stored := (foundClip found).2
      rw [shape,ClipPatch.apply]
      cases given : p.id with
      | none => exact stored
      | some i => exact fixed i given
    apply Kept.sync
    refine ⟨?_,forallReplaceFirst kept.clips sound,?_,kept.overlays,kept.effects⟩
    · dsimp only
      rw [keysReplaceFirst]
      · exact kept.ids
      · intro d _ here
        simp only [beq_iff_eq] at here
        rw [here,same]
    · exact fun given => forallReplaceFirst (kept.times given) (known given)
  | clipRemoved found =>
    exact kept.fewer List.eraseP_sublist (List.Subset.refl _) (List.Subset.refl _)
  | overlayAdded fresh sound =>
    exact ⟨kept.ids,kept.clips,kept.times,forallAppendOne kept.overlays sound,kept.effects⟩
  | overlayUpdated found fields sound =>
    exact ⟨kept.ids,kept.clips,kept.times,forallReplaceFirst kept.overlays sound,kept.effects⟩
  | overlayRemoved found =>
    exact kept.fewer List.filter_sublist List.eraseP_sublist.subset (List.Subset.refl _)
  | effectAdded fresh sound =>
    apply Kept.syncLinked
    exact ⟨kept.ids,kept.clips,kept.times,kept.overlays,
      forallAppendOne kept.effects (Effect.normalSource sound).1⟩
  | effectUpdated found fields sound =>
    apply Kept.syncLinked
    exact ⟨kept.ids,kept.clips,kept.times,kept.overlays,
      forallReplaceFirst kept.effects (Effect.normalSource sound).1⟩
  | effectRemoved found =>
    exact kept.fewer List.filter_sublist (List.Subset.refl _) List.eraseP_sublist.subset

theorem emptyKept (timed : Prop) : ({} : Timeline).Kept timed :=
  ⟨List.nodup_nil,by simp,by simp,by simp,by simp⟩

theorem Kept.sound {timed : Prop} (kept : tl.Kept timed) (given : timed) : tl.Sound where
  ids := kept.ids
  clips c mem := Clip.soundOf (kept.clips c mem) (kept.times given c mem)
  overlays t mem := Overlay.soundOf (kept.overlays t mem)
  effects := kept.effects

end Timeline
end Montage
