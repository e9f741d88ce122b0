import Montage.Proofs.Timeline.Ordered
import Montage.Render.Effects

/-! Queries by time. A query takes the items that it asks for, each as often as it is stored, and
brings them into the order of their starts. Items of one start stay as they were stored, also where
it is zero with one sign for some and with the other for the rest. -/
namespace Montage

theorem filteredStable {key : α → Float} {xs : List α} (wanted : α → Prop) [DecidablePred wanted]
    (numbers : ∀ x ∈ xs, (key x).isNaN = false) :
    StableOrder key (xs.filter wanted) (orderedBy key (xs.filter wanted)) :=
  orderedByStable fun x mem => numbers x (List.mem_of_mem_filter mem)

namespace Timeline
variable {tl : Timeline}

theorem onTrackStable (numbers : ∀ c ∈ tl.clips, c.start.isNaN = false) (track : String) :
    StableOrder Clip.start (tl.clips.filter fun c => c.track = track) (tl.onTrack track) :=
  filteredStable _ numbers

theorem ofKindsStable (numbers : ∀ c ∈ tl.clips, c.start.isNaN = false) (kinds : List String) :
    StableOrder Clip.start (tl.clips.filter fun c => c.kind ∈ kinds) (tl.ofKinds kinds) := by
  have same : (tl.clips.filter fun c => kinds.contains c.kind) =
      tl.clips.filter fun c => c.kind ∈ kinds :=
    List.filter_congr fun c _ => List.contains_eq_mem c.kind kinds
  unfold ofKinds
  rw [same]
  exact filteredStable _ numbers

end Timeline

theorem allowedStable {es : List Effect} (numbers : ∀ e ∈ es, e.start.isNaN = false) :
    StableOrder Effect.start (es.filter fun e => e.kind ∈ allowedKinds) (allowedEffects es) := by
  have same : (es.filter fun e => allowedKinds.contains e.kind) =
      es.filter fun e => e.kind ∈ allowedKinds :=
    List.filter_congr fun e _ => List.contains_eq_mem e.kind allowedKinds
  unfold allowedEffects
  rw [same]
  exact filteredStable _ numbers

theorem selectedBoth (es : List Effect) :
    selectEffects es "layered" = .ok (allowedEffects es) ∧
      selectEffects es "first" = .ok ((allowedEffects es).take 1) :=
  ⟨rfl,rfl⟩

theorem queriesStable {tl : Timeline} {es : List Effect}
    (clips : ∀ c ∈ tl.clips, c.start.isNaN = false) (effects : ∀ e ∈ es, e.start.isNaN = false) :
    (∀ track, StableOrder Clip.start (tl.clips.filter fun c => c.track = track)
      (tl.onTrack track)) ∧
    (∀ kinds, StableOrder Clip.start (tl.clips.filter fun c => c.kind ∈ kinds)
      (tl.ofKinds kinds)) ∧
    ∃ layered, selectEffects es "layered" = .ok layered ∧
      StableOrder Effect.start (es.filter fun e => e.kind ∈ allowedKinds) layered ∧
      selectEffects es "first" = .ok (layered.take 1) := by
  obtain ⟨all,one⟩ := selectedBoth es
  exact ⟨Timeline.onTrackStable clips,Timeline.ofKindsStable clips,_,all,allowedStable effects,one⟩

/-- Two of the clips and both effects start at zero, which has two signs. -/
def overture : Timeline where
  clips := [⟨"a","image","image",2,4,some "a.png",none,none⟩,
    ⟨"b","image","image",0,3,some "b.png",none,none⟩,
    ⟨"c","image","image",-0,1,some "c.png",none,none⟩]
  effects := [⟨"x","soften",50,0,3⟩,⟨"y","sparkle",50,-1,1⟩,⟨"z","amplify",50,-0,1⟩]

theorem overtureStable : (∀ c ∈ overture.clips, c.start.isNaN = false) ∧
    (∀ e ∈ overture.effects, e.start.isNaN = false) ∧
    StableOrder Clip.start overture.clips (overture.onTrack "image") ∧
    StableOrder Clip.start overture.clips (overture.ofKinds ["image","video"]) ∧
    ∃ layered, selectEffects overture.effects "layered" = .ok layered ∧
      StableOrder Effect.start [⟨"x","soften",50,0,3⟩,⟨"z","amplify",50,-0,1⟩] layered ∧
      selectEffects overture.effects "first" = .ok (layered.take 1) := by
  have clips : ∀ c ∈ overture.clips, c.start.isNaN = false := by decide
  have effects : ∀ e ∈ overture.effects, e.start.isNaN = false := by decide
  obtain ⟨track,kinds,selected⟩ := queriesStable clips effects
  exact ⟨clips,effects,track "image",kinds ["image","video"],selected⟩

end Montage
