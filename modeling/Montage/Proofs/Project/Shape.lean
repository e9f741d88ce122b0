import Montage.Proofs.Manifest.Shape
import Montage.Proofs.Media.Allotted

/-! Shapes of manifests. What a manifest says is checked, and a fault is reported by its wording;
but that its parts have the shape to be read at all is checked in some places only. `Shaped` says
what is taken for granted: every manifest that is accepted has that shape, and one that has it is
accepted or rejected. -/
namespace Montage.Project
open Entry

/-- The numbers of a text. -/
structure Measured (es : List (Scalar × Value)) : Prop where
  x : ∀ v, found es ["x"] = some v → v.Fits
  y : ∀ v, found es ["y"] = some v → v.Fits
  size : ∀ v, found es ["font_size","fontSize"] = some v → v.Countable

theorem overlayExpects (i : Nat) (v : Value) : Expects (Identified Measured v) (overlay i v) := by
  unfold overlay
  refine identifiedExpects ?_ ?_
  · rintro es rfl
    simp only [hasMapping,underMapping,getMapping,firstMapping,okBind,pure_bind]
    refine Expects.guard fun _ => ?_
    refine ((numberExpects _ _ _).bind fun x _ => (numberExpects _ _ _).bind fun y _ =>
      countedExpects fun n => (orderlyOk _).expects).iff ?_
    have fits := fun n finite => (wholeFits (n := n) finite).fits
    rw [givenIff (fits 100 (by decide +kernel)),givenIff (fits 100 (by decide +kernel)),
      givenIff (wholeFits (n := 48) (by decide +kernel))]
    exact ⟨fun ⟨x,y,size,_⟩ => ⟨x,y,size⟩,fun shaped => ⟨shaped.x,shaped.y,shaped.size,trivial⟩⟩
  · intro unmapped a ok
    obtain ⟨found,_,ok⟩ := bindOk ok
    dsimp only at ok
    split at ok
    · obtain ⟨id,read,_⟩ := bindOk ok
      exact underOther unmapped "id" id read
    · obtain ⟨animation,read,_⟩ := bindOk ok
      exact getOther unmapped "animation" animation read

/-- An animation that is neither a list nor a mapping. -/
def Animated (v : Value) : Prop :=
  ∀ es w, v = .mapping es → found es ["animation"] = some w → ¬ w.Composite

theorem animatedMapping {es : List (Scalar × Value)} : Animated (.mapping es) ↔
    ∀ w, found es ["animation"] = some w → ¬ w.Composite :=
  ⟨fun animated w => animated es w rfl,fun all _ w same => by cases same; exact all w⟩

theorem overlayAnimated {i : Nat} {v : Value} {t : Overlay} {composite : Bool}
    (ok : overlay i v = .ok (t,composite)) : composite = false ↔ Animated v := by
  have entry := (overlayExpects i v).held _ ok
  unfold overlay at ok
  obtain ⟨found,searched,ok⟩ := bindOk ok
  obtain ⟨some,ok⟩ := guardOk ok
  have some : found = true := by simpa using some
  obtain ⟨es,rfl,_⟩ := entry.mapping (some ▸ searched)
  simp only [hasMapping,underMapping,getMapping,firstMapping,okBind,pure_bind] at ok
  obtain ⟨_,ok⟩ := guardOk ok
  obtain ⟨x,_,ok⟩ := bindOk ok
  obtain ⟨y,_,ok⟩ := bindOk ok
  obtain ⟨size,_,ok⟩ := bindOk ok
  obtain ⟨fontSize,_,ok⟩ := bindOk ok
  rw [← (Prod.mk.inj (Except.ok.inj ok)).2,animatedMapping]
  -- Only a text can be passed over, so a list or a mapping that is found is what is checked.
  generalize Entry.found es ["animation"] = animation
  rcases animation with _ | w
  · exact ⟨fun _ _ => nofun,fun _ => rfl⟩
  rw [show (∀ v, Option.some w = Option.some v → ¬ v.Composite) ↔ ¬ w.Composite by simp]
  unfold Value.Composite
  cases w with
  | scalar s =>
    cases s with
    | text s =>
      refine iff_of_true ?_ (by simp)
      by_cases hidden : s = "none" ∨ s = "" <;> simp [present,hidden]
    | _ => exact iff_of_true rfl (by simp)
  | list vs => exact iff_of_false nofun (by simp)
  | mapping es => exact iff_of_false nofun (by simp)
  | _ => exact iff_of_true rfl (by simp)

structure Gauged (es : List (Scalar × Value)) : Prop where
  intensity : ∀ v, found es ["intensity"] = some v → v.Fits
  start : ∀ v, found es ["start","startTime"] = some v → v.Fits
  stop : ∀ v, found es ["end","endTime"] = some v → v.Fits

theorem effectExpects (i : Nat) (v : Value) : Expects (Identified Gauged v) (effect i v) := by
  unfold effect
  refine identifiedExpects ?_ ?_
  · rintro es rfl
    simp only [underMapping,getMapping,firstMapping,okBind]
    split
    · exact expectsRejected _ _
    · refine ((numberExpects _ _ _).bind fun intensity _ => (numberExpects _ _ _).bind fun start _ =>
        (numberExpects _ _ _).bind fun stop _ => (orderlyOk _).expects).iff ?_
      have fits : (Value.real 0).Fits := fun _ => nofun
      rw [givenIff (wholeFits (n := 50) (by decide +kernel)).fits,givenIff fits,givenIff fits]
      exact ⟨fun ⟨intensity,start,stop,_⟩ => ⟨intensity,start,stop⟩,
        fun shaped => ⟨shaped.intensity,shaped.start,shaped.stop,trivial⟩⟩
  · intro unmapped a ok
    obtain ⟨kind,read,ok⟩ := bindOk ok
    rw [firstOther unmapped read] at ok
    obtain ⟨id,read,_⟩ := bindOk ok
    exact underOther unmapped "id" id read

theorem addOverlayExpects (tl : Timeline) (t : Overlay) (composite : Bool) :
    Expects (composite = false) (addOverlay tl t composite) := by
  cases composite with
  | true =>
    refine .never (fun tl' ok => ?_) nofun
    obtain ⟨_,_,ok⟩ := bindOk ok
    obtain ⟨_,_,ok⟩ := bindOk ok
    cases ok
  | false => exact (tl.addOverlayOrderly t).expects.iff (by simp)

structure TextShaped (v : Value) : Prop where
  entry : Identified Measured v
  animated : Animated v

theorem addOverlaysExpects (vs : List Value) (tl : Timeline) (i : Nat) :
    Expects (∀ v ∈ vs, TextShaped v) (addOverlays tl i vs) := by
  induction vs generalizing tl i with
  | nil => exact (orderlyOk tl).expects.iff (by simp)
  | cons v vs ih =>
    have added (read : Overlay × Bool) (ok : overlay i v = .ok read) :=
      ((addOverlayExpects tl read.1 read.2).iff (overlayAnimated ok)).bind fun next _ => ih next (i + 1)
    refine ((overlayExpects i v).bind added).iff ?_
    rw [List.forall_mem_cons,← and_assoc]
    exact and_congr_left fun _ => ⟨fun ⟨entry,animated⟩ => ⟨entry,animated⟩,
      fun shaped => ⟨shaped.entry,shaped.animated⟩⟩

theorem addEffectsExpects (vs : List Value) (tl : Timeline) (i : Nat) :
    Expects (∀ v ∈ vs, Identified Gauged v) (addEffects tl i vs) := by
  induction vs generalizing tl i with
  | nil => exact (orderlyOk tl).expects.iff (by simp)
  | cons v vs ih =>
    have added (e : Effect) (_ : effect i v = .ok e) :=
      (tl.addEffectOrderly e).expects.bind fun next _ => ih next.2 (i + 1)
    refine ((effectExpects i v).bind added).iff ?_
    rw [List.forall_mem_cons,and_iff_right trivial]

section
variable {es : List (Scalar × Value)} {place : String}

theorem trackOrderly : Orderly (trackOf place (.mapping es)) := by
  unfold trackOf
  rw [firstMapping,okBind]
  dsimp only
  split
  · exact Orderly.choose (fun _ => orderlyOk _) fun _ => orderlyRejected _
  · exact orderlyRejected _

theorem startExpects : Expects (∀ v, found es ["start","startTime"] = some v → v.Fits)
    (startOf place (.mapping es)) := by
  unfold startOf
  rw [firstMapping,okBind,← presentIff nullFits]
  split
  · rename_i v shown
    exact (numberExpects place "start" v).iff (by simp [shown])
  · exact expectsRejected _ _

theorem sourceOrderly {track : String} {paths : List (Scalar × Value)} :
    Orderly (sourceOf place track paths (.mapping es)) := by
  unfold sourceOf
  rw [firstMapping,okBind]
  refine Orderly.choose (fun _ => orderlyOk _) fun _ => ?_
  refine Orderly.choose (fun _ => orderlyRejected _) fun _ => ?_
  split
  · exact orderlyOk _
  · exact orderlyRejected _

theorem sourceKind {track path : String} {paths : List (Scalar × Value)} {v : Value}
    (ok : sourceOf place track paths v = .ok (some path)) : track ∈ sourceKinds := by
  unfold sourceOf at ok
  split at ok
  · cases ok
  · exact not_not.mp ‹_›

theorem refOrderly {keys : List String} : Orderly (refOf keys (.mapping es)) := by
  unfold refOf
  rw [firstMapping]
  exact orderlyOk _

theorem stopExpects {media : Media} {track : String} {start : Float} {source : Option String}
    (known : source ≠ none → track ∈ sourceKinds) :
    Probing.Expects (∀ v, found es ["end","endTime"] = some v → v.Fits)
      (stopOf media false place track start source (.mapping es)) := by
  unfold stopOf
  rw [firstMapping,liftedBind,← presentIff nullFits]
  split
  · rename_i v shown
    exact ((numberExpects place "end" v).iff (by simp [shown])).lifted
  split
  · exact (expectsRejected _ _).lifted
  · rename_i none _ path
    obtain ⟨n,length,_,finite⟩ := defaultLengthKnown (known (Option.some_ne_none path))
    change Probing.Expects _ ((liftM (defaultLength track) : Probing Int) >>= _)
    rw [length,liftedBind,toFloatWhole finite]
    exact (orderlyOk _).expects.lifted.iff (by simp [none])

end

structure Timed (es : List (Scalar × Value)) : Prop where
  start : ∀ v, found es ["start","startTime"] = some v → v.Fits
  stop : ∀ v, found es ["end","endTime"] = some v → v.Fits

theorem clipExpects (media : Media) (paths : List (Scalar × Value)) (i : Nat) (v : Value) :
    Probing.Expects (Identified Timed v) (clip media false paths i v) := by
  unfold clip
  refine identifiedProbing ?_ ?_
  · rintro es rfl
    rw [underMapping,liftedBind]
    refine (trackOrderly.expects.onward fun track _ => startExpects.onward fun start _ =>
      sourceOrderly.expects.onward fun source sourced => (stopExpects ?_).bind fun _ _ _ _ =>
      refOrderly.expects.onward fun _ _ => refOrderly.expects.onward fun _ _ =>
      (orderlyOk _).expects.lifted).iff ?_
    · intro some
      obtain ⟨path,rfl⟩ := Option.ne_none_iff_exists'.mp some
      exact sourceKind sourced
    · exact ⟨fun ⟨_,start,_,stop,_⟩ => ⟨start,stop⟩,
        fun timed => ⟨trivial,timed.start,trivial,timed.stop,trivial,trivial,trivial⟩⟩
  · intro unmapped log a ok
    cases read : under "id" v with
    | error f =>
      rw [read] at ok
      cases ok
    | ok id => exact underOther unmapped "id" id read

theorem addClipsExpects (media : Media) (paths : List (Scalar × Value)) (vs : List Value)
    (tl : Timeline) (i : Nat) :
    Probing.Expects (∀ v ∈ vs, Identified Timed v) (addClips media false paths tl i vs) := by
  induction vs generalizing tl i with
  | nil => exact (orderlyOk tl).expects.lifted.iff (by simp)
  | cons v vs ih =>
    refine ((clipExpects media paths i v).bind fun c _ _ _ =>
      (tl.addClipOrderly c).expects.onward fun next _ => ih next (i + 1)).iff ?_
    rw [List.forall_mem_cons,and_iff_right trivial]

/-- If a list of two or a pair, then of two that have whole parts if they are numbers. -/
def Sized (v : Value) : Prop :=
  ∀ w h, v = .list [w,h] ∨ v = .pair w h → w.bare.Countable ∧ h.bare.Countable

theorem resolutionExpects (video : List (Scalar × Value)) :
    Expects (∀ v, entryAt? video "resolution" = some v → Sized v) (resolution video) := by
  have usual : Sized usualSize := by
    rintro w h (same | same)
    · cases same
    · cases same
      exact ⟨wholeFits (by decide +kernel),wholeFits (by decide +kernel)⟩
  unfold resolution
  rw [← givenIff usual]
  dsimp only
  split
  · rename_i w h two
    refine ((numberExpects _ _ _).bind fun x first => (numberExpects _ _ _).bind fun y second =>
      ((wholeExpects x).iff (numberFinite first)).bind fun _ _ =>
      ((wholeExpects y).iff (numberFinite second)).bind fun _ _ => (orderlyOk _).expects).iff ?_
    refine ⟨fun ⟨_,_,width,height,_⟩ _ _ same => ?_,fun sized => ?_⟩
    · cases two.symm.trans (Value.twoIff.mpr same)
      exact ⟨width,height⟩
    · obtain ⟨width,height⟩ := sized w h (Value.twoIff.mp two)
      exact ⟨width.fits,height.fits,width,height,trivial⟩
  · exact expectsRejected _ _

theorem rateOrderly (video : List (Scalar × Value)) : Orderly (rateOf video) := by
  unfold rateOf
  split
  · exact Orderly.choose (fun _ => orderlyRejected _) fun _ => orderlyOk _
  · exact orderlyRejected _

theorem pathsOrderly (v : Option Value) : Orderly (paths v) := by
  unfold paths
  split
  · exact orderlyOk _
  · refine Orderly.choose (fun _ => orderlyOk _) fun _ => ?_
    split
    · exact orderlyOk _
    · exact orderlyRejected _

theorem lengthExpects (raw : List (Scalar × Value)) :
    Expects (∀ v, entryAt? raw "duration" = some v → v.Fits) (lengthIn raw) := by
  unfold lengthIn
  rw [← presentIff nullFits]
  split
  · rename_i none
    exact (orderlyOk _).expects.iff (by simp [none])
  · rename_i v some
    have positive (x : Float) : Expects True (if x ≤ 0 then
        (throw (.rejected (.durationNotPositive x)) : Except Fault PUnit) >>= fun _ => pure (Option.some x)
      else pure (Option.some x)) := Expects.guard fun _ => (orderlyOk _).expects
    refine ((numberExpects _ _ v).bind fun x _ => positive x).iff ?_
    simp [some]

/-- What a manifest is taken to be without a check that would tell of it. -/
structure Shaped (raw : List (Scalar × Value)) : Prop where
  video : (∃ es, entryAt? raw "video" = some (.mapping es)) ∨ ListOf Keyed (entryAt? raw "video")
  size : ∀ video, entries (entryAt? raw "video") = .ok video →
    ∀ v, entryAt? video "resolution" = some v → Sized v
  texts : ListOf TextShaped (entryAt? raw "texts")
  effects : ListOf (Identified Gauged) (entryAt? raw "effects")
  clips : ListOf (Identified Timed) (entryAt? raw "clips")
  length : ∀ v, entryAt? raw "duration" = some v → v.Fits

theorem ofEntriesExpects (media : Media) (raw : List (Scalar × Value)) :
    Probing.Expects (Shaped raw) (ofEntries media false raw) := by
  have size (video : List (Scalar × Value)) (read : entries (entryAt? raw "video") = .ok video) :
      Expects (∀ video, entries (entryAt? raw "video") = .ok video →
        ∀ v, entryAt? video "resolution" = some v → Sized v) (resolution video) := by
    refine (resolutionExpects video).iff ⟨fun sized other same => ?_,fun all => all video read⟩
    cases read.symm.trans same
    exact sized
  unfold ofEntries
  refine Probing.Expects.iff ((entriesExpects _).onward fun video read =>
    (size video read).onward fun ⟨width,height⟩ _ => (rateOrderly video).expects.onward fun rate _ =>
    (pathsOrderly _).expects.onward fun paths _ =>
    itemsProbing fun texts => (addOverlaysExpects texts _ _).onward fun _ _ =>
    itemsProbing fun effects => (addEffectsExpects effects _ _).onward fun _ _ =>
    itemsProbing fun clips => (addClipsExpects media paths clips _ _).bind fun tl _ _ _ =>
    (tl.checkClipsOrderly tl.clips).expects.onward fun _ _ =>
    (lengthExpects raw).onward fun _ _ => (orderlyOk _).expects.lifted) ?_
  exact ⟨fun ⟨video,size,_,_,texts,effects,clips,_,length,_⟩ =>
      ⟨video,size,texts,effects,clips,length⟩,
    fun shaped => ⟨shaped.video,shaped.size,trivial,trivial,shaped.texts,shaped.effects,
      shaped.clips,trivial,shaped.length,trivial⟩⟩

/-- A manifest that has the shape is built or rejected, and one that is built has the shape. -/
theorem buildOrderly (media : Media) (raw : List (Scalar × Value)) (log : List Probe) :
    (Shaped raw →
      (∃ project log', (build media false (.mapping raw)).run log = (.ok project,log')) ∨
        ∃ cause log', (build media false (.mapping raw)).run log =
          (.error (.rejected cause),log')) ∧
    ∀ project log', (build media false (.mapping raw)).run log = (.ok project,log') →
      Shaped raw := by
  have expects := ofEntriesExpects media raw log
  change Expects _ ((build media false (.mapping raw)).run log).1 at expects
  rcases made : (build media false (.mapping raw)).run log with ⟨f | project,log'⟩
  · rw [made] at expects
    refine ⟨fun shaped => ?_,fun _ _ => nofun⟩
    obtain ⟨cause,rfl⟩ := orderlyError.mp (expects.orderly shaped)
    exact .inr ⟨cause,log',rfl⟩
  · rw [made] at expects
    exact ⟨fun _ => .inl ⟨project,log',rfl⟩,fun _ _ _ => expects.held project rfl⟩

def placedAt (x : Value) : List (Scalar × Value) :=
  [(.text "texts",.list [.mapping [(.text "id",.text "t"),(.text "content",.text "Hello"),
    (.text "x",x)]])]

theorem placedShaped {x : Value} (fits : x.bare.Fits) : Shaped (placedAt x) := by
  have measured : Measured [(.text "id",.text "t"),(.text "content",.text "Hello"),(.text "x",x)] :=
    ⟨fun v same => by cases same; exact fits,fun _ => nofun,fun _ => nofun⟩
  refine ⟨.inr ⟨[],rfl,nofun⟩,fun video read _ => ?_,?_,⟨[],rfl,nofun⟩,⟨[],rfl,nofun⟩,fun _ => nofun⟩
  · cases read
    nofun
  · refine ⟨_,rfl,List.forall_mem_singleton.mpr ⟨⟨⟨true,rfl⟩,fun _ => ⟨_,rfl,measured⟩⟩,?_⟩⟩
    exact animatedMapping.mpr fun _ => nofun

/-- A text is placed at a word, which is told, and at a number. -/
theorem placedOrderly : Shaped (placedAt (.text "left")) ∧
    (∃ cause log', (build [] false (.mapping (placedAt (.text "left")))).run [] =
      (.error (.rejected cause),log')) ∧
    ∃ project log', (build [] false (.mapping (placedAt (.whole 5)))).run [] = (.ok project,log') ∧
      Shaped (placedAt (.whole 5)) := by
  have shaped : Shaped (placedAt (.text "left")) := placedShaped fun _ => nofun
  refine ⟨shaped,?_,?_⟩
  · rcases (buildOrderly [] (placedAt (.text "left")) []).1 shaped with ⟨project,log',ok⟩ | rejected
    · have refused : ((build [] false (.mapping (placedAt (.text "left")))).run []).1.toOption.isSome =
          false := by decide +kernel
      rw [ok] at refused
      cases refused
    · exact rejected
  · obtain ⟨project,log',made⟩ := probeAnswered (build [] false (.mapping (placedAt (.whole 5)))) []
      (by decide +kernel)
    exact ⟨project,log',made,(buildOrderly [] (placedAt (.whole 5)) []).2 project log' made⟩

/-- A number among the texts is neither taken nor told of. -/
theorem numberUntold :
    ¬ ((∃ project log', (build [] false (.mapping [(.text "texts",.list [.whole 5])])).run [] =
        (.ok project,log')) ∨
      ∃ cause log', (build [] false (.mapping [(.text "texts",.list [.whole 5])])).run [] =
        (.error (.rejected cause),log')) := by
  have answer : (build [] false (.mapping [(.text "texts",.list [.whole 5])])).run [] =
      (.error (.unusable .notSearchable),[]) := rfl
  rw [answer]
  rintro (⟨_,_,ok⟩ | ⟨_,_,rejected⟩)
  · cases ok
  · cases rejected

end Montage.Project
