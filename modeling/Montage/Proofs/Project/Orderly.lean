import Montage.Proofs.Project.Built

/-! Orderly failures. A computation is orderly when nothing but a rejection comes of it where it
fails. Many are so only where what they are given has some shape, and most of these succeed nowhere
else: they expect that shape. What an answer was put together from adds up its expectations. -/
namespace Montage

def Fault.Refusal (f : Fault) : Prop := ∃ cause, f = .rejected cause

/-- Nothing but a rejection comes of it where it fails. -/
def Orderly (x : Except Fault α) : Prop := ∀ f, x = .error f → f.Refusal

/-- Where `S` holds, `x` is orderly, and where `x` succeeds, `S` holds. -/
structure Expects (S : Prop) (x : Except Fault α) : Prop where
  orderly : S → Orderly x
  held : ∀ a, x = .ok a → S

section
variable {α β : Type} {S T : Prop} {x y : Except Fault α} {f : α → Except Fault β}

theorem okBind (a : α) (f : α → Except Fault β) : ((.ok a : Except Fault α) >>= f) = f a := rfl

theorem orderlyOk (a : α) : Orderly (.ok a : Except Fault α) := nofun

theorem orderlyRejected (cause : Rejection) : Orderly (.error (.rejected cause) : Except Fault α) := by
  intro f same
  exact ⟨cause,(Except.error.inj same).symm⟩

theorem Orderly.bind (first : Orderly x) (rest : ∀ a, x = .ok a → Orderly (f a)) :
    Orderly (x >>= f) := by
  intro fault bad
  rcases bindError bad with early | ⟨a,made,late⟩
  · exact first fault early
  · exact rest a made fault late

theorem Orderly.choose {p : Prop} [Decidable p] (first : p → Orderly x) (second : ¬ p → Orderly y) :
    Orderly (if p then x else y) := by
  split
  · exact first ‹_›
  · exact second ‹_›

theorem Orderly.expects (orderly : Orderly x) : Expects True x := ⟨fun _ => orderly,fun _ _ => trivial⟩

theorem Expects.bind (first : Expects S x) (rest : ∀ a, x = .ok a → Expects T (f a)) :
    Expects (S ∧ T) (x >>= f) := by
  refine ⟨fun both => ?_,fun b ok => ?_⟩
  · exact (first.orderly both.1).bind fun a made => (rest a made).orderly both.2
  · obtain ⟨a,made,ok⟩ := bindOk ok
    exact ⟨first.held a made,(rest a made).held b ok⟩

theorem Expects.iff (expects : Expects S x) (same : S ↔ T) : Expects T x :=
  ⟨fun given => expects.orderly (same.mpr given),fun a ok => same.mp (expects.held a ok)⟩

/-- What succeeds nowhere may expect anything that would make it orderly. -/
theorem Expects.never (none : ∀ a, x ≠ .ok a) (orderly : S → Orderly x) : Expects S x :=
  ⟨orderly,fun a ok => absurd ok (none a)⟩

theorem expectsRejected (S : Prop) (cause : Rejection) :
    Expects S (.error (.rejected cause) : Except Fault α) :=
  .never (fun _ => nofun) fun _ => orderlyRejected cause

theorem Expects.guard {p : Prop} [Decidable p] {cause : Rejection} {k : PUnit → Except Fault α}
    (rest : ¬ p → Expects S (k ⟨⟩)) :
    Expects S (if p then (throw (.rejected cause) : Except Fault PUnit) >>= k else k ⟨⟩) := by
  split
  · exact expectsRejected S cause
  · exact rest ‹_›

end

/-- The same for computations that open media files. -/
def Probing.Expects (S : Prop) (x : Probing α) : Prop := ∀ log, Montage.Expects S (x.run log).1

section
variable {α β : Type} {S T : Prop}

theorem Expects.lifted {x : Except Fault α} (expects : Expects S x) :
    Probing.Expects S (liftM x : Probing α) := by
  intro log
  rw [liftedRun]
  exact expects

theorem orderlyError {f : Fault} : Orderly (.error f : Except Fault α) ↔ f.Refusal :=
  ⟨fun orderly => orderly f rfl,fun refusal _ same => Except.error.inj same ▸ refusal⟩

theorem Probing.Expects.bind {x : Probing α} {f : α → Probing β} (first : Probing.Expects S x)
    (rest : ∀ a log mid, x.run log = (.ok a,mid) → Probing.Expects T (f a)) :
    Probing.Expects (S ∧ T) (x >>= f) := by
  intro log
  have own := first log
  rcases made : x.run log with ⟨e | a,mid⟩
  · rw [made] at own
    rw [failedRun made]
    refine .never (fun _ => nofun) fun both => ?_
    exact orderlyError.mpr (orderlyError.mp (own.orderly both.1))
  · rw [made] at own
    rw [boundRun made]
    exact (rest a log mid made mid).iff (and_iff_right (own.held a rfl)).symm

theorem liftedBind (a : α) (f : α → Probing β) :
    ((liftM (.ok a : Except Fault α) : Probing α) >>= f) = f a := rfl

theorem Expects.onward {x : Except Fault α} {f : α → Probing β} (first : Expects S x)
    (rest : ∀ a, x = .ok a → Probing.Expects T (f a)) : Probing.Expects (S ∧ T) (liftM x >>= f) :=
  first.lifted.bind fun a _ _ made => rest a (liftedOk made)

theorem Probing.Expects.iff {x : Probing α} (expects : Probing.Expects S x) (same : S ↔ T) :
    Probing.Expects T x := fun log => (expects log).iff same

end

namespace Clip

theorem checkOrderly (c : Clip) : Orderly c.check := by
  unfold check
  repeat' refine Orderly.choose (fun _ => orderlyRejected _) fun _ => ?_
  exact orderlyOk _

end Clip

namespace Overlay

theorem alignOrderly (t : Overlay) : Orderly t.checkAlign :=
  Orderly.choose (fun _ => orderlyOk _) fun _ => orderlyRejected _

theorem checkOrderly (t : Overlay) : Orderly t.check := by
  refine t.alignOrderly.bind fun _ _ => Orderly.bind ?_ fun _ _ =>
    Orderly.choose (fun _ => orderlyRejected _) fun _ => orderlyOk _
  unfold checkAnimation
  split
  · exact orderlyOk _
  · exact Orderly.choose (fun _ => orderlyOk _) fun _ => orderlyRejected _

end Overlay

theorem Effect.normalOrderly (e : Effect) : Orderly e.normal := by
  refine Orderly.bind (Orderly.choose (fun _ => orderlyOk _) fun _ => orderlyRejected _)
    fun kind _ => Orderly.bind ?_ fun _ _ => orderlyOk _
  exact Orderly.choose (fun _ => orderlyOk _) fun _ => orderlyRejected _

namespace Timeline
variable (tl : Timeline)

theorem newOverlayOrderly (t : Overlay) : Orderly (tl.checkNewOverlay t) :=
  Orderly.choose (fun _ => orderlyRejected _) fun _ => orderlyOk _

theorem addOverlayOrderly (t : Overlay) : Orderly (tl.addOverlay t) :=
  (tl.newOverlayOrderly t).bind fun _ _ => t.checkOrderly.bind fun _ _ => orderlyOk _

theorem addEffectOrderly (e : Effect) : Orderly (tl.addEffect e) := by
  unfold addEffect
  refine Orderly.choose (fun _ => orderlyRejected _) fun _ => ?_
  exact e.normalOrderly.bind fun _ _ => orderlyOk _

theorem addClipOrderly (c : Clip) : Orderly (tl.addClip c) := by
  unfold addClip
  refine Orderly.choose (fun _ => orderlyRejected _) fun _ => ?_
  exact c.checkOrderly.bind fun _ _ => orderlyOk _

theorem refsOrderly (c : Clip) : Orderly (tl.checkRefs c) :=
  Orderly.choose (fun _ => orderlyRejected _) fun _ =>
    Orderly.choose (fun _ => orderlyRejected _) fun _ => orderlyOk _

theorem checkClipsOrderly (cs : List Clip) : Orderly (tl.checkClips cs) := by
  induction cs with
  | nil => exact orderlyOk _
  | cons c cs ih => exact c.checkOrderly.bind fun _ _ => (tl.refsOrderly c).bind fun _ _ => ih

end Timeline

end Montage
