import Montage.Proofs.Gesture.Ending

/-! A gesture in progress. Between the press and the end of the gesture nothing but frames touches
the timeline; what every frame keeps holds when the gesture ends. -/
namespace Montage

/-- What the pointer may do before the gesture ends; `N` holds of the times it passes through. -/
def Command.hovers (N : Float → Prop) : Command → Prop
  | move t => N t
  | frame => True
  | _ => False

/-- The gesture that begins when the clip is pressed on its body or on an edge. -/
def Clip.grabbed (c : Clip) (p : Float) : Option Edge → Gesture
  | none => .dragging c.id (p - c.start) (c.start,c.stop)
  | some e => .resizing c.id e (c.start,c.stop)

theorem Clip.grabbedOrigin (c : Clip) (p : Float) (h : Option Edge) :
    (c.grabbed p h).origin? = some (c.id,c.start,c.stop) := by
  cases h <;> rfl

theorem Clip.grabbedBusy (c : Clip) (p : Float) (h : Option Edge) : c.grabbed p h ≠ .idle := by
  cases h <;> exact Gesture.noConfusion

theorem handleCases (handle : Option String) :
    (∃ h : Option Edge, handle = h.map Edge.name) ∨
      ∃ name, handle = some name ∧ Edge.ofName? name = none := by
  cases handle with
  | none => exact .inl ⟨none,rfl⟩
  | some name =>
    by_cases left : name = "left"
    · exact .inl ⟨some .left,congrArg some left⟩
    by_cases right : name = "right"
    · exact .inl ⟨some .right,congrArg some right⟩
    exact .inr ⟨name,rfl,by simp [Edge.ofName?,left,right]⟩

namespace Session
variable {x : Session} {tl tl' : Timeline} {c : Clip} {g : Gesture} {threshold p t : Float}

theorem pressGrabbed (idle : x.gesture = .idle) (found : tl.clip c.id = .ok c) (p : Float)
    (h : Option Edge) :
    x.press tl c.id p (h.map Edge.name) = .ok ⟨x.threshold,c.grabbed p h,none⟩ := by
  unfold press
  rw [found]
  cases h with
  | none => simp [idle,Clip.grabbed,bind,Except.bind,pure,Except.pure]
  | some e => simp [idle,Clip.grabbed,Edge.ofName?_name,bind,Except.bind,pure,Except.pure]

theorem pressMisused {name : String} (idle : x.gesture = .idle) (found : tl.clip c.id = .ok c)
    (unknown : Edge.ofName? name = none) (p : Float) :
    x.press tl c.id p (some name) = .error (.misused (.resizeHandle name)) := by
  unfold press
  rw [found]
  simp [idle,unknown,bind,Except.bind,throw,throwThe,MonadExceptOf.throw]

theorem frameNothing (tl : Timeline) :
    (⟨threshold,g,none⟩ : Session).frame tl = ⟨.ok none,⟨threshold,g,none⟩,tl⟩ := rfl

theorem frameLanded {l : Landing} {d : Clip} (busy : g ≠ .idle)
    (proposed : (⟨threshold,g,some t⟩ : Session).propose tl t = .ok (some l))
    (applied : l.apply tl = .ok (d,tl')) :
    (⟨threshold,g,some t⟩ : Session).frame tl = ⟨.ok (some l),⟨threshold,g,none⟩,tl'⟩ := by
  unfold frame
  dsimp only
  rw [if_neg busy,proposed]
  dsimp only
  rw [applied]

end Session
namespace Studio
variable {P : Timeline → Prop} {N : Float → Prop} {threshold : Float} {g : Gesture} {s : Studio}

structure Held (P : Timeline → Prop) (N : Float → Prop) (threshold : Float) (g : Gesture)
    (s : Studio) : Prop where
  timeline : P s.timeline
  session : ∃ pending, s.session = some ⟨threshold,g,pending⟩ ∧ ∀ t ∈ pending, N t

section
variable
  (frames : ∀ tl, P tl → ∀ t, N t → P ((⟨threshold,g,some t⟩ : Session).frame tl).timeline)
include frames

theorem stepHeld {w : Command} (hovers : w.hovers N) (held : Held P N threshold g s) :
    Held P N threshold g (s.step w).2 := by
  obtain ⟨kept,pending,present,noted⟩ := held
  cases w with
  | move t =>
    unfold step onSession
    simp only [present]
    refine ⟨kept,?_⟩
    unfold Session.move
    split
    · exact ⟨pending,rfl,noted⟩
    · exact ⟨some t,rfl,fun u same => Option.some.inj same ▸ hovers⟩
  | frame =>
    rw [frameStep present]
    refine ⟨?_,?_⟩
    · cases pending with
      | none => exact kept
      | some t => exact frames _ kept t (noted t rfl)
    · dsimp only
      rw [Session.frameSession]
      split
      · exact ⟨pending,rfl,noted⟩
      · exact ⟨none,rfl,by simp⟩
  | _ => cases hovers

theorem runHeld {ws : List Command} (hovers : ∀ w ∈ ws, w.hovers N)
    (held : Held P N threshold g s) : Held P N threshold g (s.run ws) := by
  induction ws generalizing s with
  | nil => exact held
  | cons w ws ih =>
    obtain ⟨first,rest⟩ := List.forall_mem_cons.mp hovers
    exact ih rest (stepHeld frames first held)

end

/-- What each of some commands answers. -/
def replies (s : Studio) : List Command → List (Except Fault Reply)
  | [] => []
  | w :: ws => (s.step w).1 :: (s.step w).2.replies ws

theorem repliesAppend (s : Studio) (ws us : List Command) :
    s.replies (ws ++ us) = s.replies ws ++ (s.run ws).replies us := by
  induction ws generalizing s with
  | nil => rfl
  | cons w ws ih => exact congrArg _ (ih _)

theorem stepAnswered
    (answers : ∀ tl, P tl → ∀ t, N t →
      ∃ l, ((⟨threshold,g,some t⟩ : Session).frame tl).result = .ok l)
    {w : Command} (hovers : w.hovers N) (held : Held P N threshold g s) :
    ∃ r, (s.step w).1 = .ok r := by
  obtain ⟨kept,pending,present,noted⟩ := held
  cases w with
  | move t =>
    unfold step onSession
    simp only [present]
    exact ⟨_,rfl⟩
  | frame =>
    rw [frameStep present]
    cases pending with
    | none => exact ⟨_,rfl⟩
    | some t =>
      obtain ⟨l,result⟩ := answers _ kept t (noted t rfl)
      exact ⟨.landing l,by dsimp only; rw [result]; rfl⟩
  | _ => cases hovers

theorem runAnswered
    (frames : ∀ tl, P tl → ∀ t, N t → P ((⟨threshold,g,some t⟩ : Session).frame tl).timeline)
    (answers : ∀ tl, P tl → ∀ t, N t →
      ∃ l, ((⟨threshold,g,some t⟩ : Session).frame tl).result = .ok l)
    {ws : List Command} (hovers : ∀ w ∈ ws, w.hovers N) (held : Held P N threshold g s) :
    ∀ r ∈ s.replies ws, ∃ a, r = .ok a := by
  induction ws generalizing s with
  | nil => simp [replies]
  | cons w ws ih =>
    obtain ⟨first,rest⟩ := List.forall_mem_cons.mp hovers
    exact List.forall_mem_cons.mpr ⟨stepAnswered answers first held,
      ih rest (stepHeld frames first held)⟩

theorem pressStepGrabbed {x : Session} {tl : Timeline} {c : Clip} (idle : x.gesture = .idle)
    (found : tl.clip c.id = .ok c) (p : Float) (h : Option Edge) :
    (⟨tl,some x⟩ : Studio).step (.press c.id p (h.map Edge.name)) =
      (.ok .done,⟨tl,some ⟨x.threshold,c.grabbed p h,none⟩⟩) := by
  simp only [step,onSession,Session.pressGrabbed idle found]

theorem releaseHeld {pending : Option Float} (busy : g ≠ .idle)
    (present : s.session = some ⟨threshold,g,pending⟩) (q : Float) :
    s.step (.release (some q)) =
      (((⟨threshold,g,some q⟩ : Session).frame s.timeline).result.map .landing,
        ⟨((⟨threshold,g,some q⟩ : Session).frame s.timeline).timeline,
          some ⟨threshold,.idle,none⟩⟩) := by
  change s.event .landing (fun session timeline => session.release timeline (some q)) = _
  rw [eventStep present,Session.releaseSession,if_neg busy]
  simp only [Session.release,busy]
  rfl

end Studio
end Montage
