import Montage.Proofs.Render.Parts
import Montage.Proofs.Timeline.Length

/-! Clips in another order. Which of two clips was added first matters only where they start
together or place the same overlay or effect. All else that depends on the order of clips, such as
the numbers of inputs and labels, goes by their times. -/
namespace Montage

/-- The same clips in another order, in which clips that start together stand as they did, and so
do those that place the same overlay or effect. -/
structure Timeline.Reordered (tl tl' : Timeline) : Prop where
  overlays : tl'.overlays = tl.overlays
  effects : tl'.effects = tl.effects
  clips : tl'.clips.Perm tl.clips
  starts : ∀ t : Float, tl'.clips.filter (·.start == t) = tl.clips.filter (·.start == t)
  shown : ∀ id, tl'.clips.filter (·.shows id) = tl.clips.filter (·.shows id)
  driven : ∀ id, tl'.clips.filter (·.drives id) = tl.clips.filter (·.drives id)

theorem filterSwapped {p : α → Bool} {x y : α} (apart : ¬ (p x = true ∧ p y = true))
    (xs ys : List α) : (xs ++ y :: x :: ys).filter p = (xs ++ x :: y :: ys).filter p := by
  by_cases first : p x = true
  · have second : ¬ p y = true := fun both => apart ⟨first,both⟩
    simp [first,second]
  · simp [List.filter_cons,first]

namespace Timeline
variable {tl tl' : Timeline}

theorem Reordered.swapped (xs : List Clip) {ys : List Clip} {c d : Clip}
    (clips : tl.clips = xs ++ c :: d :: ys)
    (starts : ¬ (c.start == d.start) = true) (texts : ∀ id, ¬ (c.shows id ∧ d.shows id))
    (effects : ∀ id, ¬ (c.drives id ∧ d.drives id)) :
    tl.Reordered { tl with clips := xs ++ d :: c :: ys } where
  overlays := rfl
  effects := rfl
  clips := by
    rw [clips]
    exact (List.Perm.swap c d ys).append_left xs
  starts t := by
    rw [clips]
    refine filterSwapped (fun both => starts ?_) xs ys
    obtain ⟨below,above⟩ := beqPlaces both.1
    obtain ⟨below',above'⟩ := beqPlaces both.2
    exact beqOfLe (leTrans below above') (leTrans below' above)
  shown id := by
    rw [clips]
    exact filterSwapped (texts id) xs ys
  driven id := by
    rw [clips]
    exact filterSwapped (effects id) xs ys

theorem Reordered.trans {tl'' : Timeline} (first : tl.Reordered tl') (second : tl'.Reordered tl'') :
    tl.Reordered tl'' where
  overlays := second.overlays.trans first.overlays
  effects := second.effects.trans first.effects
  clips := second.clips.trans first.clips
  starts t := (second.starts t).trans (first.starts t)
  shown id := (second.shown id).trans (first.shown id)
  driven id := (second.driven id).trans (first.driven id)

theorem ofKindsReordered (moved : tl.Reordered tl') (numbers : ∀ c ∈ tl.clips, c.Timed)
    (kinds : List String) : tl'.ofKinds kinds = tl.ofKinds kinds := by
  refine orderedBySame (fun c mem => (numbers c (List.mem_of_mem_filter mem)).1)
    (moved.clips.filter _) fun t => ?_
  rw [List.filter_comm,moved.starts t,List.filter_comm]

theorem lengthReordered (moved : tl.Reordered tl') (numbers : ∀ c ∈ tl.clips, c.Timed)
    (o : Options) : plannedLength tl' o = plannedLength tl o := by
  have ends : ∀ t ∈ tl.clips.map Clip.stop, t.isNaN = false :=
    List.forall_mem_map.mpr fun c mem => (numbers c mem).2
  have length : tl'.length = tl.length := lengthOfPerm ends (moved.clips.map Clip.stop)
  unfold plannedLength
  rw [length]

theorem compileReordered (moved : tl.Reordered tl') (numbers : ∀ c ∈ tl.clips, c.Timed)
    (o : Options) : tl'.compile o = tl.compile o :=
  compileSame (ofKindsReordered moved numbers visualKinds)
    (ofKindsReordered moved numbers ["audio"])
    (Picture.placedSame moved.overlays fun id => findSame (moved.shown id))
    (Picture.linkedSame moved.effects fun id => findSame (moved.driven id))
    (lengthReordered moved numbers o)

def opening : Clip := ⟨"a","video","video",0,2,some "a.mp4",none,none⟩

def still : Clip := ⟨"b","image","image",2,5,some "b.png",none,none⟩

def greeting : Clip := ⟨"c","text","text",2,3,none,some "t",none⟩

def postcard (clips : List Clip) : Timeline where
  clips := clips
  overlays := [{ id := "t", content := "Hello" }]

/-- The other two begin together and stay as they are. -/
theorem openingLast :
    (postcard [opening,still,greeting]).Reordered (postcard [still,greeting,opening]) ∧
      (∀ c ∈ (postcard [opening,still,greeting]).clips, c.Timed) ∧
      (postcard [still,greeting,opening]).compile {} =
        (postcard [opening,still,greeting]).compile {} := by
  have numbers : ∀ c ∈ (postcard [opening,still,greeting]).clips, c.Timed := by
    unfold Clip.Timed
    decide
  have once : (postcard [opening,still,greeting]).Reordered (postcard [still,opening,greeting]) :=
    .swapped [] rfl (by decide) (by simp [Clip.shows,opening])
      (by simp [Clip.drives,opening])
  have twice : (postcard [still,opening,greeting]).Reordered (postcard [still,greeting,opening]) :=
    .swapped [still] rfl (by decide) (by simp [Clip.shows,opening])
      (by simp [Clip.drives,opening])
  have moved := once.trans twice
  exact ⟨moved,numbers,compileReordered moved numbers {}⟩

end Timeline
end Montage
