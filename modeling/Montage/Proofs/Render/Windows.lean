import Montage.Proofs.Render.Parts
import Montage.Proofs.Render.Total

/-! Windows that count. An effect is seen in the window of the clip that places it. The window that
is stored with the effect never reaches a plan, not even through the order in which effects are
applied; and an effect that no clip places leaves nothing behind. -/
namespace Montage

/-- The same effects in other windows, and any others that no clip places. -/
inductive Rewindowed (tl : Timeline) : List Effect → List Effect → Prop where
  | nil : Rewindowed tl [] []
  | window {e e' : Effect} {es es' : List Effect} (id : e'.id = e.id) (kind : e'.kind = e.kind)
      (intensity : e'.intensity = e.intensity) (rest : Rewindowed tl es es') :
      Rewindowed tl (e :: es) (e' :: es')
  | gone {e : Effect} {es es' : List Effect} (unplaced : ∀ c ∈ tl.clips, c.drives e.id = false)
      (rest : Rewindowed tl es es') : Rewindowed tl (e :: es) es'
  | added {e' : Effect} {es es' : List Effect} (unplaced : ∀ c ∈ tl.clips, c.drives e'.id = false)
      (rest : Rewindowed tl es es') : Rewindowed tl es (e' :: es')

structure Timeline.WindowsAside (tl tl' : Timeline) : Prop where
  clips : tl'.clips = tl.clips
  overlays : tl'.overlays = tl.overlays
  effects : Rewindowed tl tl.effects tl'.effects

namespace Timeline
variable {tl tl' : Timeline}

def placing (tl : Timeline) (e : Effect) : Option Effect :=
  (tl.clipForEffect e.id).map fun c => { e with start := c.start, stop := c.stop }

theorem placingSame {e e' : Effect} (id : e'.id = e.id) (kind : e'.kind = e.kind)
    (intensity : e'.intensity = e.intensity) : tl.placing e' = tl.placing e := by
  obtain ⟨_,_,_,start,stop⟩ := e
  obtain ⟨_,_,_,start',stop'⟩ := e'
  dsimp only at id kind intensity
  subst id kind intensity
  rfl

theorem placingNone {e : Effect} (unplaced : ∀ c ∈ tl.clips, c.drives e.id = false) :
    tl.placing e = none := by
  have absent : tl.clipForEffect e.id = none := List.find?_eq_none.mpr fun c mem => by
    simp [unplaced c mem]
  unfold placing
  rw [absent]
  rfl

theorem placingRewindowed {es es' : List Effect} (same : Rewindowed tl es es') :
    es'.filterMap tl.placing = es.filterMap tl.placing := by
  induction same with
  | nil => rfl
  | window id kind intensity rest ih =>
    rw [List.filterMap_cons,List.filterMap_cons,placingSame id kind intensity,ih]
  | gone unplaced rest ih => rw [List.filterMap_cons_none (placingNone unplaced),ih]
  | added unplaced rest ih => rw [List.filterMap_cons_none (placingNone unplaced),ih]

theorem rewindowedPlaced (es : List Effect) : Rewindowed tl es (es.filterMap tl.placing) := by
  induction es with
  | nil => exact .nil
  | cons e es ih =>
    cases found : tl.clipForEffect e.id with
    | none =>
      have none : tl.placing e = none := by simp [placing,found]
      rw [List.filterMap_cons_none none]
      -- No clip is found for it, so it is dropped on one side only.
      refine .gone (fun c mem => ?_) ih
      simpa using List.find?_eq_none.mp found c mem
    | some c =>
      have here : tl.placing e = some { e with start := c.start, stop := c.stop } := by
        simp [placing,found]
      rw [List.filterMap_cons_some here]
      exact .window rfl rfl rfl ih

theorem WindowsAside.linked (same : tl.WindowsAside tl') :
    Picture.linkedEffects tl' = Picture.linkedEffects tl := by
  have placing : tl'.placing = tl.placing := by
    unfold Timeline.placing clipForEffect
    rw [same.clips]
  change tl'.effects.filterMap tl'.placing = tl.effects.filterMap tl.placing
  rw [placing]
  exact placingRewindowed same.effects

theorem WindowsAside.compile (same : tl.WindowsAside tl') (o : Options) :
    tl'.compile o = tl.compile o := by
  have ofKinds (kinds : List String) : tl'.ofKinds kinds = tl.ofKinds kinds := by
    unfold Timeline.ofKinds
    rw [same.clips]
  have length : plannedLength tl' o = plannedLength tl o := by
    unfold plannedLength Timeline.length
    rw [same.clips]
  refine compileSame (ofKinds visualKinds) (ofKinds ["audio"]) ?_ same.linked length
  refine Picture.placedSame same.overlays fun id => ?_
  unfold clipForOverlay
  rw [same.clips]

/-- Only the effects that some clip places, each in the window of that clip. -/
def placedOnly (tl : Timeline) : Timeline := { tl with effects := Picture.linkedEffects tl }

theorem compileWindowsAside (same : tl.WindowsAside tl') (o : Options) :
    tl'.compile o = tl.compile o ∧ tl.placedOnly.compile o = tl.compile o := by
  have placed : tl.WindowsAside tl.placedOnly := ⟨rfl,rfl,rewindowedPlaced tl.effects⟩
  exact ⟨same.compile o,placed.compile o⟩

def dissolving (effects : List Effect) : Timeline where
  clips := [⟨"a","video","video",0,5,some "a.mp4",none,none⟩,
    ⟨"b","effect","effect",3,4,none,none,some "f"⟩,
    ⟨"c","effect","effect",1,2,none,none,some "s"⟩]
  effects := effects

def crossed : Timeline := dissolving [⟨"f","fade",50,3,4⟩,⟨"s","soften",50,1,2⟩]

/-- The stored windows stand the other way round, and one effect is placed nowhere. -/
def recrossed : Timeline :=
  dissolving [⟨"f","fade",50,0,1⟩,⟨"u","amplify",90,0,5⟩,⟨"s","soften",50,8,9⟩]

theorem crossedAside : crossed.WindowsAside recrossed ∧
    ∃ p, crossed.compile { policy := "layered" } = .ok p ∧
      recrossed.compile { policy := "layered" } = .ok p ∧
      crossed.placedOnly.compile { policy := "layered" } = .ok p := by
  have same : crossed.WindowsAside recrossed :=
    ⟨rfl,rfl,.window rfl rfl rfl (.added (by decide) (.window rfl rfl rfl .nil))⟩
  have checked : ∀ e ∈ crossed.effects,
      e.kind ∈ effectKinds ∧ 0 ≤ e.intensity ∧ e.intensity ≤ 100 := by decide
  have sound : ∀ e ∈ crossed.effects, e.Sound := fun e mem =>
    ⟨(checked e mem).1,(checked e mem).2.1,(checked e mem).2.2⟩
  have kept : crossed.Kept False := ⟨by decide,by decide,nofun,by decide,sound⟩
  obtain ⟨p,ok⟩ := (compileIff (o := { policy := "layered" }) kept).mpr
    ⟨by decide,fun _ => by decide +kernel,fun _ => ⟨by decide,by decide +kernel,by decide⟩⟩
  obtain ⟨other,placed⟩ := compileWindowsAside same { policy := "layered" }
  exact ⟨same,p,ok,other.trans ok,placed.trans ok⟩

end Timeline
end Montage
