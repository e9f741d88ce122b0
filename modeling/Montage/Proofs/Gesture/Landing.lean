import Montage.Proofs.Timeline.Sound
import Montage.Gesture.Session

/-! Where gestures land, as windows of numbers. Snapping picks one of the candidates or stays where
it is, clamping picks one of its bounds, and a span added to a start that is not negative gives a
number; so no gesture on clips with windows of numbers can store NaN. -/
namespace Montage

def Landing.Timed (l : Landing) : Prop := l.start.isNaN = false ∧ l.stop.isNaN = false

theorem nearerSource (t threshold : Float) (best : Option (Float × Float)) (c : Float) :
    nearer t threshold best c = best ∨ ∃ d, nearer t threshold best c = some (c,d) := by
  unfold nearer
  dsimp only
  split
  · split
    · exact .inr ⟨_,rfl⟩
    · split
      · exact .inr ⟨_,rfl⟩
      · exact .inl rfl
  · exact .inl rfl

theorem nearestSource (t threshold : Float) (candidates : List Float) (best : Option (Float × Float))
    (p : Float × Float) (found : candidates.foldl (nearer t threshold) best = some p) :
    best = some p ∨ p.1 ∈ candidates := by
  induction candidates generalizing best with
  | nil => exact .inl found
  | cons c cs ih =>
    rcases ih (nearer t threshold best c) found with here | rest
    · rcases nearerSource t threshold best c with kept | ⟨d,taken⟩
      · exact .inl (kept ▸ here)
      · rw [taken] at here
        cases Option.some.inj here
        exact .inr List.mem_cons_self
    · exact .inr (List.mem_cons_of_mem _ rest)

theorem snapTimeSource (t threshold : Float) (candidates : List Float) :
    snapTime t candidates threshold = t ∨ snapTime t candidates threshold ∈ candidates := by
  unfold snapTime
  split
  · rename_i c d found
    rcases nearestSource t threshold candidates none (c,d) found with none | mem
    · cases none
    · exact .inr mem
  · exact .inl rfl

namespace Timeline
variable {tl tl' : Timeline} {l : Landing} {id : String} {t threshold : Float}

theorem boundaryEdge {b : Float} (mem : b ∈ tl.boundaries id) :
    ∃ c ∈ tl.clips, b = c.start ∨ b = c.stop := by
  obtain ⟨c,stored,edge⟩ := List.mem_flatMap.mp mem
  exact ⟨c,(List.mem_filter.mp stored).1,by simpa using edge⟩

theorem boundaryNumber (timed : ∀ c ∈ tl.clips, c.Timed) (id : String) :
    ∀ b ∈ tl.boundaries id, b.isNaN = false := by
  intro b mem
  obtain ⟨c,stored,rfl | rfl⟩ := boundaryEdge mem
  · exact (timed c stored).1
  · exact (timed c stored).2

theorem snappedNumber (id : String) (threshold : Float) (timed : ∀ c ∈ tl.clips, c.Timed)
    (number : t.isNaN = false) :
    (snapTime t (tl.boundaries id) threshold).isNaN = false := by
  rcases snapTimeSource t threshold (tl.boundaries id) with same | mem
  · rw [same]
    exact number
  · exact boundaryNumber timed id _ mem

theorem proposeMoveTimed {start : Float} {length : Option Float}
    (sound : ∀ c ∈ tl.clips, c.Sound) (number : start.isNaN = false)
    (ok : tl.proposeMove id start length threshold = .ok l) : l.Timed := by
  obtain ⟨c,found,ok⟩ := bindOk ok
  have window := sound c (foundClip (clipFound found)).1
  have landed : ∀ room : Float, l = ⟨id,firstMin (firstMax (snapTime start (tl.boundaries id)
      threshold) 0) (firstMax 0 room),firstMin (firstMax (snapTime start (tl.boundaries id)
      threshold) 0) (firstMax 0 room) + c.span⟩ → l.Timed := by
    rintro room rfl
    have snapped := snappedNumber id threshold
      (fun c mem => (sound c mem).timed) number
    have lower := leFirstMin (leFirstMaxRight snapped (rfl : (0 : Float).isNaN = false))
      (leFirstMax (rfl : (0 : Float).isNaN = false) room)
    exact ⟨(numberOfLe lower).2,sumNumber lower (leOfLess window.spanPositive)⟩
  split at ok
  · exact landed _ (Except.ok.inj ok).symm
  · obtain ⟨whole,_,last⟩ := bindOk ok
    exact landed _ (Except.ok.inj last).symm

theorem proposeResizeTimed {edge : Edge} (timed : ∀ c ∈ tl.clips, c.Timed)
    (number : t.isNaN = false) (ok : tl.proposeResize id edge t threshold = .ok l) : l.Timed := by
  obtain ⟨c,found,ok⟩ := bindOk ok
  have window := timed c (foundClip (clipFound found)).1
  have snapped := snappedNumber id threshold timed number
  cases edge with
  | left =>
    cases Except.ok.inj ok
    exact ⟨firstMaxNumber rfl _,firstMaxNumber window.2 _⟩
  | right =>
    cases Except.ok.inj ok
    exact ⟨window.1,firstMaxNumber snapped _⟩

theorem proposeResizeOfTimed {side : String} (timed : ∀ c ∈ tl.clips, c.Timed)
    (number : t.isNaN = false) (ok : tl.proposeResizeOf id side t threshold = .ok l) :
    l.Timed := by
  unfold proposeResizeOf at ok
  split at ok
  · exact proposeResizeTimed timed number ok
  · cases ok

theorem windowChange {W : Clip → Prop} {start stop : Float} {c : Clip}
    (known : ∀ c : Clip, c.start = start → c.stop = stop → W c)
    (ok : tl.updateClip id { start := some start, stop := some stop } = .ok (c,tl')) :
    Change W tl tl' :=
  updateClipChange (fun _ _ => known _ rfl rfl) ok

end Timeline

def Gesture.Timed : Gesture → Prop
  | idle => True
  | dragging _ grab origin =>
    grab.isNaN = false ∧ origin.1.isNaN = false ∧ origin.2.isNaN = false
  | resizing _ _ origin => origin.1.isNaN = false ∧ origin.2.isNaN = false

structure Session.Timed (s : Session) : Prop where
  gesture : s.gesture.Timed
  pending : ∀ t ∈ s.pending, t.isFinite = true

namespace Session
variable {s s' : Session} {tl : Timeline}

theorem pressTimed {id : String} {t : Float} {handle : Option String}
    (sound : ∀ c ∈ tl.clips, c.Sound) (finite : t.isFinite = true)
    (ok : s.press tl id t handle = .ok s') : s'.Timed := by
  unfold press at ok
  obtain ⟨_,ok⟩ := guardOk ok
  obtain ⟨c,found,ok⟩ := bindOk ok
  have window := sound c (Timeline.foundClip (Timeline.clipFound found)).1
  split at ok
  · cases Except.ok.inj ok
    have grab := differenceNumber (finiteNumber finite) window.timed.1 (.inl finite)
    exact ⟨⟨grab,window.timed.1,window.timed.2⟩,by simp⟩
  · split at ok
    · cases Except.ok.inj ok
      exact ⟨window.timed,by simp⟩
    · cases ok

theorem moveTimed (timed : s.Timed) {t : Float} (finite : t.isFinite = true) :
    (s.move t).Timed := by
  unfold move
  split
  · exact timed
  · exact ⟨timed.gesture,by simpa using finite⟩

theorem proposeTimed {t : Float} {l : Landing} (timed : s.Timed)
    (sound : ∀ c ∈ tl.clips, c.Sound) (finite : t.isFinite = true)
    (ok : s.propose tl t = .ok (some l)) : l.Timed := by
  have kept := timed.gesture
  unfold propose at ok
  cases gesture : s.gesture with
  | idle =>
    rw [gesture] at ok
    cases ok
  | dragging id grab origin =>
    rw [gesture] at ok kept
    obtain ⟨landing,ok,same⟩ := mapOk ok
    cases Option.some.inj same
    exact Timeline.proposeMoveTimed sound
      (differenceNumber (finiteNumber finite) kept.1 (.inl finite)) ok
  | resizing id edge origin =>
    rw [gesture] at ok
    obtain ⟨landing,ok,same⟩ := mapOk ok
    cases Option.some.inj same
    exact Timeline.proposeResizeTimed (fun c mem => (sound c mem).timed) (finiteNumber finite) ok

end Session
end Montage
