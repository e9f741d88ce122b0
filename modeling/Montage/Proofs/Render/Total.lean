import Montage.Proofs.Render.Compile
import Montage.Proofs.Render.Strength
import Montage.Proofs.Timeline.Length

/-! When there is a plan. Effects that are stored can always be carried out, since their strength
has been checked; colours of overlays have not, and neither has the last end of a timeline that has
to be rounded, nor whether whole numbers are too long to be written. These are all that can be
missing. -/
namespace Montage

theorem effectTotal {e : Effect} (kind : e.kind ∈ allowedKinds) (sound : e.Sound)
    (policy : String) (width height rate : Int) :
    ∃ filters, effectFilters e policy width height rate = .ok filters := by
  obtain ⟨radius,soft⟩ : ∃ r, softenRadius e.intensity = .ok r :=
    ⟨_,radiusShown sound.least sound.most⟩
  simp only [allowedKinds,List.mem_cons,List.not_mem_nil,or_false] at kind
  rcases kind with amplify | fade | soften
  · exact ⟨_,by rw [effectFilters,if_pos amplify]; rfl⟩
  · exact ⟨_,by rw [effectFilters,if_neg (by simp [fade]),if_pos fade]; rfl⟩
  · by_cases first : policy = "first"
    · refine ⟨[boxBlurFilter e radius],?_⟩
      rw [effectFilters,if_neg (by simp [soften]),if_neg (by simp [soften]),if_pos soften,
        if_pos first,soft]
      rfl
    · refine ⟨[gaussBlurFilter e],?_⟩
      rw [effectFilters,if_neg (by simp [soften]),if_neg (by simp [soften]),if_pos soften,
        if_neg first]
      rfl

theorem selectedMem {effects selected : List Effect} {policy : String}
    (ok : selectEffects effects policy = .ok selected) :
    ∀ e ∈ selected, e ∈ effects ∧ e.kind ∈ allowedKinds := by
  have allowed : ∀ e ∈ allowedEffects effects, e ∈ effects ∧ e.kind ∈ allowedKinds := by
    intro e mem
    have inside := (orderedByPerm Effect.start _).subset mem
    simpa using List.mem_filter.mp inside
  unfold selectEffects at ok
  split at ok
  · cases ok
  split at ok
  · cases Except.ok.inj ok
    exact fun e mem => allowed e (List.mem_of_mem_take mem)
  · cases Except.ok.inj ok
    exact allowed

theorem mapMTotal {f : α → Except ε β} {xs : List α} (each : ∀ x ∈ xs, ∃ y, f x = .ok y) :
    ∃ ys, xs.mapM f = .ok ys := by
  rcases answerCases (xs.mapM f) with ok | ⟨e,bad⟩
  · exact ok
  · obtain ⟨x,mem,bad⟩ := mapMError bad
    obtain ⟨y,ok⟩ := each x mem
    rw [ok] at bad
    cases bad

theorem digitsIff {n : Int} : checkDigits n = .ok () ↔ n.natAbs < 10 ^ mostDigits := by
  unfold checkDigits
  split
  · exact iff_of_true rfl ‹_›
  · exact iff_of_false nofun ‹_›

/-- A size of two numbers and a rate, none of them too long to be written. -/
structure Options.Writable (o : Options) : Prop where
  pair : o.numbers = 2
  width : o.width.natAbs < 10 ^ mostDigits
  height : o.height.natAbs < 10 ^ mostDigits
  rate : o.rate.natAbs < 10 ^ mostDigits

theorem pictureChecked {o : Options} : o.checkPicture = .ok () ↔ o.Writable := by
  constructor
  · intro ok
    unfold Options.checkPicture at ok
    obtain ⟨pair,ok⟩ := guardOk ok
    obtain ⟨_,width,ok⟩ := bindOk ok
    obtain ⟨_,height,rate⟩ := bindOk ok
    exact ⟨not_not.mp pair,digitsIff.mp width,digitsIff.mp height,digitsIff.mp rate⟩
  · intro writable
    unfold Options.checkPicture
    rw [if_neg (not_not.mpr writable.pair)]
    exact bindTotal (digitsIff.mpr writable.width) (bindTotal (digitsIff.mpr writable.height)
      (digitsIff.mpr writable.rate))

instance (o : Options) : Decidable o.Writable := decidable_of_iff _ pictureChecked

def Overlay.readable (t : Overlay) : Bool := (filterColor t.color).isOk

/-- Its colour can be read, and the size of its letters is not too long to be written. -/
structure Overlay.Writable (t : Overlay) : Prop where
  color : t.readable = true
  size : t.fontSize.natAbs < 10 ^ mostDigits

instance (t : Overlay) : Decidable t.Writable :=
  decidable_of_iff (t.readable = true ∧ t.fontSize.natAbs < 10 ^ mostDigits)
    ⟨fun ⟨color,size⟩ => ⟨color,size⟩,fun writable => ⟨writable.color,writable.size⟩⟩

/-- Where an overlay is placed on the picture, its colour can be read. -/
def Timeline.Legible (tl : Timeline) : Prop :=
  (∃ c ∈ tl.clips, c.kind ∈ visualKinds) → ∀ x ∈ Picture.placedTexts tl, x.2.1.readable = true

namespace Picture
variable {tl : Timeline} {o : Options}

theorem drawIff {t : Overlay} (c : Clip) (path : String) (font : Option String) :
    (∃ f, drawText t c path font = .ok f) ↔ t.Writable := by
  constructor
  · rintro ⟨f,ok⟩
    obtain ⟨color,read,ok⟩ := bindOk ok
    obtain ⟨_,size,_⟩ := bindOk ok
    exact ⟨by rw [Overlay.readable,read]; rfl,digitsIff.mp size⟩
  · rintro ⟨readable,size⟩
    rcases answerCases (filterColor t.color) with ⟨color,read⟩ | ⟨f,bad⟩
    · exact ⟨_,bindTotal read (bindTotal (digitsIff.mpr size) rfl)⟩
    · rw [Overlay.readable,bad] at readable
      cases readable

theorem linkedSound {timed : Prop} (kept : tl.Kept timed) : ∀ e ∈ linkedEffects tl, e.Sound := by
  intro e mem
  obtain ⟨d,stored,linked⟩ := List.mem_filterMap.mp mem
  obtain ⟨c,_,rfl⟩ := Option.map_eq_some_iff.mp linked
  have sound := kept.effects d stored
  exact ⟨sound.kind,sound.least,sound.most⟩

theorem chainTotal {timed : Prop} (kept : tl.Kept timed) (known : o.policy ∈ effectPolicies)
    (base : String) : ∃ selected chain, selectEffects (linkedEffects tl) o.policy = .ok selected ∧
      effectNodes o base selected = .ok chain := by
  obtain ⟨selected,chosen⟩ : ∃ selected, selectEffects (linkedEffects tl) o.policy =
      .ok selected := by
    unfold selectEffects
    rw [if_neg (not_not.mpr known)]
    split <;> exact ⟨_,rfl⟩
  obtain ⟨chain,made⟩ : ∃ chain, effectNodes o base selected = .ok chain := by
    refine mapMTotal ?_
    rintro ⟨e,k⟩ mem
    obtain ⟨stored,allowed⟩ := selectedMem chosen e (List.fst_mem_of_mem_zipIdx mem)
    obtain ⟨filters,ok⟩ := effectTotal allowed (linkedSound kept e stored) o.policy o.width
      o.height o.rate
    exact ⟨_,by dsimp only [effectNode]; rw [ok]; rfl⟩
  exact ⟨selected,chain,chosen,made⟩

theorem buildIff (inputs : List String) (visual : List Clip) {timed : Prop}
    (kept : tl.Kept timed) :
    (∃ p, build tl o inputs visual = .ok p) ↔
      o.policy ∈ effectPolicies ∧ o.Writable ∧ ∀ x ∈ placedTexts tl, x.2.1.Writable := by
  constructor
  · rintro ⟨p,ok⟩
    obtain ⟨_,checked,ok⟩ := bindOk ok
    obtain ⟨texts,drawn,ok⟩ := bindOk ok
    obtain ⟨selected,chosen,_⟩ := bindOk ok
    refine ⟨?_,pictureChecked.mp checked,?_⟩
    · by_contra unknown
      unfold selectEffects at chosen
      rw [if_pos unknown] at chosen
      cases chosen
    · intro x mem
      have paired := mapMOk drawn
      obtain ⟨k,at',same⟩ := List.getElem_of_mem mem
      have numbered : (x,k) ∈ (placedTexts tl).zipIdx :=
        List.mem_zipIdx_iff_getElem?.mpr (by rw [← same]; exact List.getElem?_eq_getElem at')
      obtain ⟨n,_,made⟩ := pairedLeft paired numbered
      obtain ⟨f,shown,_⟩ := textNodeSource made
      exact (drawIff _ _ _).mp ⟨f,shown⟩
  · rintro ⟨known,writable,legible⟩
    obtain ⟨texts,drawn⟩ : ∃ texts, textNodes tl o (joinedLabel visual) = .ok texts := by
      refine mapMTotal ?_
      rintro ⟨x,k⟩ mem
      obtain ⟨f,shown⟩ := (drawIff x.2.2 (sidePath o x.1) o.font).mpr
        (legible x (List.fst_mem_of_mem_zipIdx mem))
      exact ⟨_,by dsimp only [textNode]; rw [shown]; rfl⟩
    obtain ⟨selected,chain,chosen,made⟩ := chainTotal kept known
      (link "txt" (joinedLabel visual) (placedTexts tl).length)
    exact ⟨_,bindTotal (pictureChecked.mpr writable)
      (bindTotal drawn (bindTotal chosen (bindTotal made rfl)))⟩

end Picture

def Timeline.endsRound (tl : Timeline) : Bool :=
  match tl.clips.map Clip.stop with
  | [] => true
  | x :: xs => (greatest x xs * 10 + 0.5).isFinite

namespace Timeline
variable {tl : Timeline} {o : Options}

theorem lengthIff : (∃ x, tl.length = .ok x) ↔ tl.endsRound = true := by
  unfold length lengthOf endsRound
  cases stops : tl.clips.map Clip.stop with
  | nil => simp
  | cons x xs =>
    have whole := wholeIff (fun negative n d => Exact.signed negative n / d)
      (greatest x xs * 10 + 0.5)
    dsimp only
    constructor
    · rintro ⟨y,ok⟩
      obtain ⟨last,rounded,_⟩ := bindOk ok
      obtain ⟨tenths,known,_⟩ := bindOk rounded
      exact whole.mp ⟨tenths,wholeOk.mp known⟩
    · intro ends
      obtain ⟨tenths,known⟩ := whole.mpr ends
      exact ⟨_,bindTotal (bindTotal (wholeOk.mpr known) rfl) rfl⟩

theorem plannedIff :
    (∃ x, plannedLength tl o = .ok x) ↔ (o.length = none → tl.endsRound = true) := by
  unfold plannedLength
  cases o.length with
  | some x => simp [pure,Except.pure]
  | none => simpa using lengthIff

/-- The last end can be rounded just when all ends can. -/
theorem endsRoundEach (least : ∀ c ∈ tl.clips, 0 ≤ c.stop) :
    tl.endsRound = true ↔ ∀ c ∈ tl.clips, (c.stop * 10 + 0.5).isFinite = true := by
  have positive : ∀ t ∈ tl.clips.map Clip.stop, 0 ≤ t := List.forall_mem_map.mpr least
  rw [← List.forall_mem_map (P := fun t : Float => (t * 10 + 0.5).isFinite = true)]
  unfold endsRound
  generalize tl.clips.map Clip.stop = xs at positive
  cases xs with
  | nil => simp
  | cons x xs =>
    have numbers : ∀ t ∈ x :: xs, t.isNaN = false := fun t mem => (numberOfLe (positive t mem)).2
    constructor
    · exact fun ends t mem => tenthsFinite (positive t mem) (leGreatest numbers t mem) ends
    · exact fun each => each _ (greatestMem x xs)

theorem endsRoundFewer {tl' : Timeline} (fewer : tl'.clips ⊆ tl.clips)
    (least : ∀ c ∈ tl.clips, 0 ≤ c.stop) (ends : tl.endsRound = true) : tl'.endsRound = true :=
  (endsRoundEach fun c mem => least c (fewer mem)).mpr fun c mem =>
    (endsRoundEach least).mp ends c (fewer mem)

theorem ofKindsSome (tl : Timeline) (kinds : List String) :
    tl.ofKinds kinds ≠ [] ↔ ∃ c ∈ tl.clips, c.kind ∈ kinds := by
  constructor
  · intro some
    obtain ⟨c,mem⟩ := List.exists_mem_of_ne_nil _ some
    exact ⟨c,ofKindsMem.mp mem⟩
  · rintro ⟨c,stored⟩
    exact List.ne_nil_of_mem (ofKindsMem.mpr stored)

theorem playable : ¬ (tl.visual = [] ∧ tl.audio = []) ↔ ∃ c ∈ tl.clips, c.kind ∈ sourceKinds := by
  have seen := ofKindsSome tl visualKinds
  have heard := ofKindsSome tl ["audio"]
  rw [Classical.not_and_iff_not_or_not]
  change tl.ofKinds visualKinds ≠ [] ∨ tl.ofKinds ["audio"] ≠ [] ↔ _
  rw [seen,heard,← exists_or]
  refine exists_congr fun c => ?_
  rw [← and_or_left]
  simp only [visualKinds,sourceKinds,List.mem_cons,List.not_mem_nil,or_false]
  tauto

theorem pictureIff {timed : Prop} (kept : tl.Kept timed) (inputs : List String) :
    (∃ picture, tl.picture o inputs = .ok picture) ↔
      ((∃ c ∈ tl.clips, c.kind ∈ visualKinds) →
        o.policy ∈ effectPolicies ∧ o.Writable ∧
          ∀ x ∈ Picture.placedTexts tl, x.2.1.Writable) := by
  have seen := ofKindsSome tl visualKinds
  rw [← seen,← Picture.buildIff inputs tl.visual kept]
  unfold Timeline.picture
  by_cases none : tl.visual = []
  · have empty : ¬ tl.ofKinds visualKinds ≠ [] := not_not.mpr none
    simp [none,empty]
  · rw [if_neg (by simpa using none)]
    constructor
    · rintro ⟨picture,ok⟩ _
      obtain ⟨p,built,_⟩ := mapOk ok
      exact ⟨p,built⟩
    · intro total
      obtain ⟨p,built⟩ := total none
      exact ⟨some p,by rw [built]; rfl⟩

theorem compileIff {timed : Prop} (kept : tl.Kept timed) :
    (∃ p, tl.compile o = .ok p) ↔
      (∃ c ∈ tl.clips, c.kind ∈ sourceKinds) ∧ (o.length = none → tl.endsRound = true) ∧
      ((∃ c ∈ tl.clips, c.kind ∈ visualKinds) →
        o.policy ∈ effectPolicies ∧ o.Writable ∧
          ∀ x ∈ Picture.placedTexts tl, x.2.1.Writable) := by
  rw [← playable,← plannedIff]
  constructor
  · rintro ⟨p,ok⟩
    obtain ⟨length,sources,picture,some,known,_,drawn,_⟩ := compileSource ok
    exact ⟨some,⟨length,known⟩,(pictureIff kept _).mp ⟨picture,drawn⟩⟩
  · rintro ⟨some,⟨length,known⟩,drawable⟩
    obtain ⟨sources,found⟩ := sourcesOfTotal kept.sources
    obtain ⟨picture,drawn⟩ := (pictureIff kept (distinct sources)).mpr drawable
    refine ⟨assembled tl o length (distinct sources) picture,?_⟩
    rw [compileEq,if_neg (by simpa using some)]
    exact bindTotal known (bindTotal found (bindTotal drawn rfl))

end Timeline
end Montage
