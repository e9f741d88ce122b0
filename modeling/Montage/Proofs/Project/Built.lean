import Montage.Project
import Montage.Proofs.Render.SideFiles

/-! Projects that were built. A timeline read from a manifest has gone through the same checks as
any other. They leave out three things that a compilation runs into: the colour of a text, the last
end where no length is given, and how long the number of the rate is. The other whole numbers are
read from doubles and never too long. -/
namespace Montage

section
variable {α β : Type} {x : Probing α} {f : α → Probing β} {log mid log' : List Probe}

theorem boundRun {a : α} (made : x.run log = (.ok a,mid)) : (x >>= f).run log = (f a).run mid := by
  change ExceptT.bindCont f (x.run log).1 (x.run log).2 = _
  rw [made]
  rfl

theorem failedRun {e : Fault} (made : x.run log = (.error e,mid)) :
    (x >>= f).run log = (.error e,mid) := by
  change ExceptT.bindCont f (x.run log).1 (x.run log).2 = _
  rw [made]
  rfl

theorem liftedRun (x : Except Fault α) (log : List Probe) :
    (liftM x : Probing α).run log = (x,log) := by
  cases x <;> rfl

theorem probeOk {b : β} (ok : (x >>= f).run log = (.ok b,log')) :
    ∃ a mid, x.run log = (.ok a,mid) ∧ (f a).run mid = (.ok b,log') := by
  rcases made : x.run log with ⟨_ | a,mid⟩
  · rw [failedRun made] at ok
    cases ok
  · rw [boundRun made] at ok
    exact ⟨a,mid,rfl,ok⟩

theorem liftedOk {x : Except Fault α} {a : α} (ok : (liftM x : Probing α).run log = (.ok a,log')) :
    x = .ok a := by
  rw [liftedRun] at ok
  exact congrArg Prod.fst ok

theorem probeAnswered (x : Probing α) (log : List Probe)
    (some : (x.run log).1.toOption.isSome = true) :
    ∃ a log', x.run log = (.ok a,log') := by
  rcases made : x.run log with ⟨_ | a,log'⟩
  · rw [made] at some
    cases some
  · exact ⟨a,log',rfl⟩

end

theorem Value.twoIff {v a b : Value} :
    v.two? = some (a,b) ↔ v = .list [a,b] ∨ v = .pair a b := by
  unfold two?
  split <;> simp_all

namespace Project
variable {timed : Prop} {tl tl' : Timeline}

theorem addOverlayKept {t : Overlay} {composite : Bool} (kept : tl.Kept timed)
    (ok : addOverlay tl t composite = .ok tl') : tl'.Kept timed := by
  unfold addOverlay at ok
  split at ok
  · obtain ⟨_,_,ok⟩ := bindOk ok
    obtain ⟨_,_,last⟩ := bindOk ok
    cases last
  · exact (Timeline.addOverlayChange ok).kept kept

theorem addOverlaysKept {entries : List Value} {i : Nat} (kept : tl.Kept timed)
    (ok : addOverlays tl i entries = .ok tl') : tl'.Kept timed := by
  induction entries generalizing tl i with
  | nil => exact Except.ok.inj ok ▸ kept
  | cons entry rest ih =>
    obtain ⟨⟨t,composite⟩,_,ok⟩ := bindOk ok
    obtain ⟨next,added,ok⟩ := bindOk ok
    exact ih (addOverlayKept kept added) ok

theorem addEffectsKept {entries : List Value} {i : Nat} (kept : tl.Kept timed)
    (ok : addEffects tl i entries = .ok tl') : tl'.Kept timed := by
  induction entries generalizing tl i with
  | nil => exact Except.ok.inj ok ▸ kept
  | cons entry rest ih =>
    obtain ⟨e,_,ok⟩ := bindOk ok
    obtain ⟨⟨stored,next⟩,added,ok⟩ := bindOk ok
    exact ih ((Timeline.addEffectChange added).kept kept) ok

variable {media : Media} {probe : Bool} {log log' : List Probe}

/-- Times of a manifest may be anything. -/
theorem addClipsKept {paths : List (Scalar × Value)} {entries : List Value} {i : Nat}
    (kept : tl.Kept False) (ok : (addClips media probe paths tl i entries).run log = (.ok tl',log')) :
    tl'.Kept False := by
  induction entries generalizing tl i log with
  | nil => cases ok; exact kept
  | cons entry rest ih =>
    obtain ⟨c,mid,_,ok⟩ := probeOk ok
    obtain ⟨next,mid',added,ok⟩ := probeOk ok
    exact ih ((Timeline.addClipChange (fun given => given.elim) (liftedOk added)).kept kept) ok

/-- What a project was made from. -/
theorem ofEntriesSource {raw : List (Scalar × Value)} {project : Project}
    (ok : (ofEntries media probe raw).run log = (.ok project,log')) :
    (∃ video, Entry.entries (entryAt? raw "video") = .ok video ∧
      resolution video = .ok (project.width,project.height) ∧ rateOf video = .ok project.rate) ∧
    lengthIn raw = .ok project.length ∧
    ∃ texts effects clips paths withTexts withEffects mid mid',
      addOverlays {} 0 texts = .ok withTexts ∧ addEffects withTexts 0 effects = .ok withEffects ∧
      (addClips media probe paths withEffects 0 clips).run mid = (.ok project.timeline,mid') := by
  obtain ⟨video,_,read,ok⟩ := probeOk ok
  obtain ⟨⟨width,height⟩,_,size,ok⟩ := probeOk ok
  obtain ⟨rate,_,rated,ok⟩ := probeOk ok
  obtain ⟨paths,_,_,ok⟩ := probeOk ok
  obtain ⟨texts,_,_,ok⟩ := probeOk ok
  obtain ⟨withTexts,_,overlays,ok⟩ := probeOk ok
  obtain ⟨effects,_,_,ok⟩ := probeOk ok
  obtain ⟨withEffects,_,linked,ok⟩ := probeOk ok
  obtain ⟨clips,mid,_,ok⟩ := probeOk ok
  obtain ⟨timeline,mid',added,ok⟩ := probeOk ok
  obtain ⟨_,_,_,ok⟩ := probeOk ok
  obtain ⟨length,_,measured,ok⟩ := probeOk ok
  cases ok
  exact ⟨⟨video,liftedOk read,liftedOk size,liftedOk rated⟩,liftedOk measured,texts,effects,clips,
    paths,withTexts,withEffects,mid,mid',liftedOk overlays,liftedOk linked,added⟩

theorem ofEntriesKept {raw : List (Scalar × Value)} {project : Project}
    (ok : (ofEntries media probe raw).run log = (.ok project,log')) :
    project.timeline.Kept False := by
  obtain ⟨_,_,_,_,_,_,_,_,_,_,overlays,effects,added⟩ := ofEntriesSource ok
  exact addClipsKept (addEffectsKept (addOverlaysKept (Timeline.emptyKept False) overlays) effects)
    added

theorem buildKept {raw : Value} {project : Project}
    (ok : (build media probe raw).run log = (.ok project,log')) : project.timeline.Kept False := by
  cases raw with
  | mapping entries => exact ofEntriesKept ok
  | _ => cases ok

theorem resolutionShort {video : List (Scalar × Value)} {w h : Int}
    (ok : resolution video = .ok (w,h)) :
    w.natAbs < 10 ^ mostDigits ∧ h.natAbs < 10 ^ mostDigits := by
  unfold resolution at ok
  dsimp only at ok
  split at ok
  · obtain ⟨_,_,ok⟩ := bindOk ok
    obtain ⟨_,_,ok⟩ := bindOk ok
    obtain ⟨_,width,ok⟩ := bindOk ok
    obtain ⟨_,height,last⟩ := bindOk ok
    cases Except.ok.inj last
    exact ⟨wholePartShort (wholeOk.mp width),wholePartShort (wholeOk.mp height)⟩
  · cases ok

theorem overlayShort {i : Nat} {entry : Value} {t : Overlay} {composite : Bool}
    (ok : overlay i entry = .ok (t,composite)) : t.fontSize.natAbs < 10 ^ mostDigits := by
  unfold overlay at ok
  obtain ⟨_,_,ok⟩ := bindOk ok
  obtain ⟨_,ok⟩ := guardOk ok
  obtain ⟨_,_,ok⟩ := bindOk ok
  dsimp only at ok
  split at ok
  · obtain ⟨_,_,bad⟩ := bindOk ok
    cases bad
  -- The animation, the id, the content, both places, and the size as it is given come first.
  iterate 9 obtain ⟨_,_,ok⟩ := bindOk ok
  obtain ⟨fontSize,size,ok⟩ := bindOk ok
  -- Colour, alignment and three flags follow.
  iterate 5 obtain ⟨_,_,ok⟩ := bindOk ok
  cases Except.ok.inj ok
  exact wholePartShort (wholeOk.mp size)

theorem addOverlaysShort {entries : List Value} {i : Nat}
    (ok : addOverlays tl i entries = .ok tl')
    (short : ∀ t ∈ tl.overlays, t.fontSize.natAbs < 10 ^ mostDigits) :
    ∀ t ∈ tl'.overlays, t.fontSize.natAbs < 10 ^ mostDigits := by
  induction entries generalizing tl i with
  | nil => exact Except.ok.inj ok ▸ short
  | cons entry rest ih =>
    obtain ⟨⟨t,composite⟩,read,ok⟩ := bindOk ok
    obtain ⟨next,added,ok⟩ := bindOk ok
    refine ih ok ?_
    unfold addOverlay at added
    split at added
    · obtain ⟨_,_,added⟩ := bindOk added
      obtain ⟨_,_,last⟩ := bindOk added
      cases last
    · obtain ⟨_,_,rfl⟩ := Timeline.addOverlaySource added
      exact List.forall_mem_append.mpr ⟨short,List.forall_mem_singleton.mpr (overlayShort read)⟩

theorem addEffectsOverlays {entries : List Value} {i : Nat}
    (ok : addEffects tl i entries = .ok tl') : tl'.overlays = tl.overlays := by
  induction entries generalizing tl i with
  | nil => exact Except.ok.inj ok ▸ rfl
  | cons entry rest ih =>
    obtain ⟨e,_,ok⟩ := bindOk ok
    obtain ⟨⟨_,next⟩,added,ok⟩ := bindOk ok
    obtain ⟨stored,_,_,rfl⟩ := Timeline.addEffectSource added
    refine (ih ok).trans ?_
    unfold Timeline.syncLinked
    split
    · exact (Timeline.syncSource _ _).2.1
    · rfl

theorem addClipsOverlays {paths : List (Scalar × Value)} {entries : List Value} {i : Nat}
    (ok : (addClips media probe paths tl i entries).run log = (.ok tl',log')) :
    tl'.overlays = tl.overlays := by
  induction entries generalizing tl i log with
  | nil => cases ok; rfl
  | cons entry rest ih =>
    obtain ⟨c,mid,_,ok⟩ := probeOk ok
    obtain ⟨next,mid',added,ok⟩ := probeOk ok
    obtain ⟨_,_,rfl⟩ := Timeline.addClipSource (liftedOk added)
    exact (ih ok).trans (Timeline.syncSource _ _).2.1

/-- The letters of no overlay are of a size too long to be written, nor is the picture. -/
theorem buildShort {raw : Value} {project : Project}
    (ok : (build media probe raw).run log = (.ok project,log')) :
    project.width.natAbs < 10 ^ mostDigits ∧ project.height.natAbs < 10 ^ mostDigits ∧
      ∀ t ∈ project.timeline.overlays, t.fontSize.natAbs < 10 ^ mostDigits := by
  cases raw with
  | mapping entries =>
    obtain ⟨⟨_,_,size,_⟩,_,_,_,_,_,_,_,_,_,overlays,effects,added⟩ := ofEntriesSource ok
    obtain ⟨width,height⟩ := resolutionShort size
    refine ⟨width,height,?_⟩
    rw [addClipsOverlays added,addEffectsOverlays effects]
    exact addOverlaysShort overlays nofun
  | _ => cases ok

/-- Length, size and rate are those of the project. -/
structure Asked (project : Project) (o : Options) : Prop where
  length : o.length = project.length
  pair : o.numbers = 2
  width : o.width = project.width
  height : o.height = project.height
  rate : o.rate = project.rate

theorem buildCompiles {raw : Value} {project : Project} {o : Options}
    (built : (build media probe raw).run log = (.ok project,log'))
    (playable : ∃ c ∈ project.timeline.clips, c.kind ∈ sourceKinds)
    (asked : project.Asked o) (policy : o.policy ∈ effectPolicies) :
    (∃ p, project.timeline.compile o = .ok p) ↔
      (project.length = none → project.timeline.endsRound = true) ∧ project.timeline.Legible ∧
      ((∃ c ∈ project.timeline.clips, c.kind ∈ visualKinds) →
        project.rate.natAbs < 10 ^ mostDigits) := by
  obtain ⟨width,height,sizes⟩ := buildShort built
  rw [Timeline.compileIff (buildKept built),asked.length]
  constructor
  · rintro ⟨_,ends,seen⟩
    exact ⟨ends,fun visual x mem => ((seen visual).2.2 x mem).color,
      fun visual => asked.rate ▸ (seen visual).2.1.rate⟩
  · rintro ⟨ends,legible,rate⟩
    refine ⟨playable,ends,fun visual => ⟨policy,?_,fun x mem => ?_⟩⟩
    · exact ⟨asked.pair,asked.width ▸ width,asked.height ▸ height,asked.rate ▸ rate visual⟩
    · have stored := List.mem_of_getElem? (Picture.placedSource mem).1
      exact ⟨legible visual x mem,sizes _ stored⟩

def captioned (color : String) : Value :=
  .mapping [
    (.text "texts",.list [.mapping [(.text "id",.text "t"),(.text "content",.text "Hello"),
      (.text "color",.text color)]]),
    (.text "clips",.list [
      .mapping [(.text "id",.text "a"),(.text "track",.text "video"),(.text "path",.text "a.mp4"),
        (.text "start",.whole 0),(.text "end",.whole 4)],
      .mapping [(.text "id",.text "b"),(.text "track",.text "text"),(.text "text",.text "t"),
        (.text "start",.whole 1),(.text "end",.whole 3)]])]

def caption (color : String) : Timeline where
  clips := [⟨"a","video","video",0,4,some "a.mp4",none,none⟩,
    ⟨"b","text","text",1,3,none,some "t",none⟩]
  overlays := [{ id := "t", content := "Hello", color }]

theorem captionBuilt (color : String) (known : color ∈ ["white","pink"]) :
    ∃ project log, (build [] false (captioned color)).run [] = (.ok project,log) ∧
      project.timeline = caption color ∧ project.length = none ∧ project.rate = 30 := by
  have answers : ∀ color ∈ ["white","pink"],
      (((build [] false (captioned color)).run []).1.toOption.map fun p =>
        (p.timeline,p.length,p.rate)) = some (caption color,none,30) := by decide +kernel
  have answer := answers color known
  rcases made : (build [] false (captioned color)).run [] with ⟨_ | project,log⟩
  · rw [made] at answer
    cases answer
  · rw [made] at answer
    have same := Prod.mk.inj (Option.some.inj answer)
    exact ⟨project,log,rfl,same.1,Prod.mk.inj same.2⟩

theorem captionCompiles : ∃ project log,
    (build [] false (captioned "white")).run [] = (.ok project,log) ∧
      (∃ c ∈ project.timeline.clips, c.kind ∈ sourceKinds) ∧
      project.Asked project.options ∧ project.options.policy ∈ effectPolicies ∧
      ∃ p, project.timeline.compile project.options = .ok p := by
  obtain ⟨project,log,built,timeline,length,rate⟩ := captionBuilt "white" (by decide)
  have asked : project.Asked project.options := ⟨rfl,rfl,rfl,rfl,rfl⟩
  have playable : ∃ c ∈ project.timeline.clips, c.kind ∈ sourceKinds := by
    rw [timeline]
    decide
  have ends : project.timeline.endsRound = true := by
    rw [timeline]
    decide +kernel
  have legible : project.timeline.Legible := by
    rw [timeline]
    unfold Timeline.Legible
    decide +kernel
  have policy : project.options.policy ∈ effectPolicies := by simp [options,effectPolicies]
  have short : project.rate.natAbs < 10 ^ mostDigits := by
    rw [rate]
    decide +kernel
  exact ⟨project,log,built,playable,asked,policy,
    (buildCompiles built playable asked policy).mpr ⟨fun _ => ends,legible,fun _ => short⟩⟩

/-- A manifest may name a colour that no filter can be given. -/
theorem captionRefused : ¬ ∀ (media : Media) (probe : Bool) (raw : Value) (log log' : List Probe)
    (project : Project) (policy : String), (build media probe raw).run log = (.ok project,log') →
      (∃ c ∈ project.timeline.clips, c.kind ∈ sourceKinds) → policy ∈ effectPolicies →
      ∃ p, project.timeline.compile { project.options with policy } = .ok p := by
  intro compiles
  obtain ⟨project,log,built,timeline,_⟩ := captionBuilt "pink" (by decide)
  have plan := compiles [] false (captioned "pink") [] log project "first" built
    (by rw [timeline]; decide) (by decide)
  have drawn := ((Timeline.compileIff (buildKept built)).mp plan).2.2
  rw [timeline] at drawn
  have legible := (drawn (by decide)).2.2
  clear drawn
  revert legible
  decide +kernel

end Project
end Montage
