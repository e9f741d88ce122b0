import Montage.Proofs.Timeline.Sound
import Montage.Gesture.Snap

/-! One clip between the others. As no other clip has its id, it is the one that is found, its
edges are those left out when it is drawn to the others', and a new window is stored in its place.
Only the last window that was stored shows; so the first may be had again. -/
namespace Montage

def Clip.windowed (c : Clip) (w : Float × Float) : Clip := { c with start := w.1, stop := w.2 }

@[simp] theorem Clip.windowedAgain (c : Clip) (v w : Float × Float) :
    (c.windowed v).windowed w = c.windowed w := rfl

theorem Clip.checkWindow {c : Clip} {start stop : Float} (sound : c.check = .ok ())
    (first : ¬ start < 0) (window : ¬ stop ≤ start) :
    { c with start, stop }.check = .ok () := by
  unfold check at sound ⊢
  obtain ⟨track,sound⟩ := checkedOk sound
  obtain ⟨kind,sound⟩ := checkedOk sound
  obtain ⟨_,sound⟩ := checkedOk sound
  obtain ⟨_,sound⟩ := checkedOk sound
  rw [if_neg track,if_neg kind,if_neg first,if_neg window]
  exact sound

def edges (cs : List Clip) : List Float := cs.flatMap fun c => [c.start,c.stop]

def landedStart (target room span : Float) : Float :=
  firstMin (firstMax target 0) (firstMax 0 (room - span))

namespace Timeline
variable {tl : Timeline} {xs ys : List Clip} {c : Clip}

theorem splitBetween (ids : (tl.clips.map Clip.id).Nodup) (mem : c ∈ tl.clips) :
    ∃ xs ys, tl.clips = xs ++ c :: ys ∧ ∀ d ∈ xs ++ ys, d.id ≠ c.id := by
  obtain ⟨xs,ys,clips⟩ := List.append_of_mem mem
  rw [clips,List.map_append,List.map_cons,List.nodup_middle,List.nodup_cons,
    ← List.map_append] at ids
  exact ⟨xs,ys,clips,fun d mem same => ids.1 (same ▸ List.mem_map_of_mem mem)⟩

theorem clipBetween (clips : tl.clips = xs ++ c :: ys) (apart : ∀ d ∈ xs ++ ys, d.id ≠ c.id) :
    tl.clip? c.id = some c := by
  have none : xs.find? (·.id == c.id) = none :=
    List.find?_eq_none.mpr fun d mem => by simpa using apart d (List.mem_append_left _ mem)
  unfold clip?
  rw [clips,List.find?_append,none,Option.none_or,List.find?_cons,beq_self_eq_true]

theorem clipOkBetween (clips : tl.clips = xs ++ c :: ys) (apart : ∀ d ∈ xs ++ ys, d.id ≠ c.id) :
    tl.clip c.id = .ok c := by
  unfold clip
  rw [clipBetween clips apart]

theorem boundariesBetween (clips : tl.clips = xs ++ c :: ys)
    (apart : ∀ d ∈ xs ++ ys, d.id ≠ c.id) : tl.boundaries c.id = edges (xs ++ ys) := by
  have others : tl.clips.filter (·.id != c.id) = xs ++ ys := by
    rw [clips,List.filter_append,List.filter_cons_of_neg (by simp),← List.filter_append]
    exact List.filter_eq_self.mpr fun d mem => by simpa using apart d mem
  unfold boundaries
  rw [others,edges]

/-- The timeline when the window of a clip has been stored anew. -/
def retimed (tl : Timeline) (c : Clip) (w : Float × Float) : Timeline :=
  sync { tl with clips := replaceFirst (·.id == c.id) (c.windowed w) tl.clips } (c.windowed w)

theorem retimedStored {w : Float × Float} (found : tl.clip c.id = .ok c)
    (sound : (c.windowed w).check = .ok ()) :
    tl.updateClip c.id { start := some w.1, stop := some w.2 } =
      .ok (c.windowed w,tl.retimed c w) := by
  have patched : patchClip c c.id { start := some w.1, stop := some w.2 } =
      .ok (c.windowed w) := by
    unfold patchClip
    simp only [Option.any_none,Bool.false_eq_true,if_false]
    exact bindTotal sound rfl
  exact bindTotal found (bindTotal patched rfl)

theorem retimedSource {tl' : Timeline} {id : String} {d : Clip} {start stop : Float}
    (found : tl.clip? id = some c)
    (ok : tl.updateClip id { start := some start, stop := some stop } = .ok (d,tl')) :
    tl' = tl.retimed c (start,stop) := by
  obtain ⟨old,found',patched,rfl⟩ := updateClipSource ok
  cases Option.some.inj (found.symm.trans found')
  rw [(patchSource patched).2.2.1,← (foundClip found).2]
  rfl

theorem syncWith (tl : Timeline) (c : Clip) (clips : List Clip) :
    { tl with clips }.sync c = { tl.sync c with clips } := by
  simp only [syncGives]

theorem syncAgain (tl : Timeline) (c : Clip) (v w : Float × Float) :
    (tl.sync (c.windowed v)).sync (c.windowed w) = tl.sync (c.windowed w) := by
  simp only [syncGives,List.map_map]
  congr 1
  refine List.map_congr_left fun e _ => ?_
  cases drives : c.drives e.id with
  | true => exact @givesOver (c.windowed w) e drives (c.windowed v)
  | false => exact congrArg (c.windowed w).gives (givesApart drives)

theorem retimedEq (clips : tl.clips = xs ++ c :: ys) (apart : ∀ d ∈ xs ++ ys, d.id ≠ c.id)
    (w : Float × Float) :
    tl.retimed c w = { tl.sync (c.windowed w) with clips := xs ++ c.windowed w :: ys } := by
  unfold retimed
  rw [syncWith,clips,replacedBetween (fun d mem => by
    simpa using apart d (List.mem_append_left _ mem)) (by simp)]

theorem retimedClips (clips : tl.clips = xs ++ c :: ys) (apart : ∀ d ∈ xs ++ ys, d.id ≠ c.id)
    (w : Float × Float) : (tl.retimed c w).clips = xs ++ c.windowed w :: ys := by
  rw [retimedEq clips apart]

theorem retimedAgain (clips : tl.clips = xs ++ c :: ys) (apart : ∀ d ∈ xs ++ ys, d.id ≠ c.id)
    (v w : Float × Float) : (tl.retimed c v).retimed (c.windowed v) w = tl.retimed c w := by
  rw [retimedEq (retimedClips clips apart v) apart,retimedEq clips apart v,syncWith,
    retimedEq clips apart w,Clip.windowedAgain,syncAgain]

theorem retimedBack (clips : tl.clips = xs ++ c :: ys) (apart : ∀ d ∈ xs ++ ys, d.id ≠ c.id) :
    tl.retimed c (c.start,c.stop) = tl.sync c := by
  rw [retimedEq clips apart]
  change { tl.sync c with clips := xs ++ c :: ys } = tl.sync c
  rw [← clips,← (syncSource tl c).1]

theorem windowBetween {start stop : Float} (clips : tl.clips = xs ++ c :: ys)
    (apart : ∀ d ∈ xs ++ ys, d.id ≠ c.id) (sound : { c with start, stop }.check = .ok ()) :
    ∃ tl', (⟨c.id,start,stop⟩ : Landing).apply tl = .ok ({ c with start, stop },tl') ∧
      tl'.clips = xs ++ { c with start, stop } :: ys :=
  ⟨_,retimedStored (w := (start,stop)) (clipOkBetween clips apart) sound,
    retimedClips clips apart (start,stop)⟩

theorem proposedBetween {room : Float} (clips : tl.clips = xs ++ c :: ys)
    (apart : ∀ d ∈ xs ++ ys, d.id ≠ c.id) (measured : tl.length = .ok room) (u threshold : Float) :
    tl.proposeMove c.id u none threshold =
      .ok ⟨c.id,landedStart (snapTime u (edges (xs ++ ys)) threshold) room c.span,
        landedStart (snapTime u (edges (xs ++ ys)) threshold) room c.span + c.span⟩ := by
  unfold proposeMove
  rw [clipOkBetween clips apart,boundariesBetween clips apart]
  refine bindTotal rfl ?_
  dsimp only
  rw [measured]
  rfl

end Timeline
end Montage
