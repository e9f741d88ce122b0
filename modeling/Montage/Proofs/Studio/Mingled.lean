import Montage.Proofs.Timeline.Given
import Montage.Proofs.Timeline.Sound
import Montage.Studio

/-! Timelines built by adding. Overlays, effects and clips are added in any mixture that keeps the
order inside each kind. Whether an addition is refused depends on what was taken of its own kind;
and if no two clips place one effect, the mixture does not show in the timeline. -/
namespace Montage

inductive Part where
  | overlays
  | effects
  | clips
  deriving DecidableEq

def Command.adds : Command → Option Part
  | addOverlay _ => some .overlays
  | addEffect _ => some .effects
  | addClip _ => some .clips
  | _ => none

inductive Mingled : List Overlay → List Effect → List Clip → List Command → Prop where
  | nil : Mingled [] [] [] []
  | overlay {os es cs calls} (t : Overlay) (rest : Mingled os es cs calls) :
      Mingled (t :: os) es cs (.addOverlay t :: calls)
  | effect {os es cs calls} (e : Effect) (rest : Mingled os es cs calls) :
      Mingled os (e :: es) cs (.addEffect e :: calls)
  | clip {os es cs calls} (c : Clip) (rest : Mingled os es cs calls) :
      Mingled os es (c :: cs) (.addClip c :: calls)

def refusal : Except Fault α → Option Fault
  | .ok _ => none
  | .error f => some f

/-- What becomes of each addition to the part: `none`, or the fault it is refused with. -/
def Studio.fates (part : Part) (s : Studio) : List Command → List (Option Fault)
  | [] => []
  | call :: calls =>
    let rest := (s.step call).2.fates part calls
    if call.adds = some part then refusal (s.step call).1 :: rest else rest

section Offers
variable (offered : List α → α → Except Fault α)

/-- What is stored after `x` is offered. -/
def taking (stored : List α) (x : α) : List α :=
  match offered stored x with
  | .ok y => stored ++ [y]
  | .error _ => stored

def refusals (stored : List α) : List α → List (Option Fault)
  | [] => []
  | x :: xs => refusal (offered stored x) :: refusals (taking offered stored x) xs

end Offers

def Overlay.offered (os : List Overlay) (t : Overlay) : Except Fault Overlay :=
  if (Timeline.overlay? { overlays := os } t.id).isSome then
    .error (.rejected (.overlayIdTaken t.id))
  else t.check.map fun _ => t

def Effect.offered (es : List Effect) (e : Effect) : Except Fault Effect :=
  if (Timeline.effect? { effects := es } e.id).isSome then
    .error (.rejected (.effectIdTaken e.id))
  else e.normal

def Clip.offered (cs : List Clip) (c : Clip) : Except Fault Clip :=
  if (Timeline.clip? { clips := cs } c.id).isSome then .error (.rejected (.clipIdTaken c.id))
  else c.check.map fun _ => c

theorem Clip.offeredSame {cs : List Clip} {c d : Clip} (ok : c.offered cs = .ok d) : d = c := by
  obtain ⟨_,_,same⟩ := mapOk (checkedOk ok).2
  exact same.symm

namespace Timeline
variable {cs : List Clip} {os : List Overlay} {es : List Effect}

theorem gatheredOverlay (t : Overlay) : (gathered cs os es).addOverlay t =
    (t.offered os).map fun t => gathered cs (os ++ [t]) es := by
  unfold addOverlay checkNewOverlay Overlay.offered
  change ((if (overlay? { overlays := os } t.id).isSome then _ else _) >>= _) = _
  split
  · rfl
  · cases t.check <;> rfl

theorem gatheredFound (id : String) :
    ((gathered cs os es).effect? id).isSome = (effect? { effects := es } id).isSome := by
  simp [effect?,gathered,List.find?_map,placedId]

/-- The answer is read from the timeline, so it has the window that a clip may have given. -/
theorem gatheredEffect (e : Effect) : (gathered cs os es).addEffect e =
    (e.offered es).map fun stored =>
      let tl := gathered cs os (es ++ [stored])
      ((tl.effect? e.id).getD stored,tl) := by
  unfold addEffect Effect.offered
  rw [gatheredFound]
  split
  · rfl
  · cases sound : e.normal with
    | error f => rfl
    | ok stored =>
      have same : stored.id = e.id := (Effect.normalSource sound).2
      have after := @storedEffect cs os es stored
      rw [same] at after
      change Except.ok _ = Except.ok _
      rw [after]

theorem gatheredClip {c : Clip} (apart : ∀ d ∈ cs, d.Apart c) :
    (gathered cs os es).addClip c = (c.offered cs).map fun c => gathered (cs ++ [c]) os es := by
  unfold addClip Clip.offered
  change (if (clip? { clips := cs } c.id).isSome then _ else _) = _
  split
  · rfl
  · cases c.check with
    | error f => rfl
    | ok _ => exact congrArg Except.ok (storedClip apart)

end Timeline

theorem takingSublist {offered : List α → α → Except Fault α} {stored : List α} {x : α}
    (same : ∀ y, offered stored x = .ok y → y = x) :
    (taking offered stored x).Sublist (stored ++ [x]) := by
  unfold taking
  split
  · rename_i y ok
    rw [same y ok]
  · exact List.sublist_append_left stored [x]

namespace Studio
variable {s : Studio} {cs₀ cs : List Clip} {os₀ os : List Overlay} {es₀ es : List Effect}
  {calls : List Command}

theorem editOffered {offered : List α → α → Except Fault α} {stored : List α} {x : α}
    {change : Except Fault (Reply × Timeline)} (answer : α → Reply) (grown : List α → Timeline)
    (before : s.timeline = grown stored)
    (source : change = (offered stored x).map fun y => (answer y,grown (stored ++ [y]))) :
    refusal (s.edit change).1 = refusal (offered stored x) ∧
      (s.edit change).2.timeline = grown (taking offered stored x) := by
  subst source
  unfold taking
  cases offered stored x with
  | error f => exact ⟨rfl,before⟩
  | ok y => exact ⟨rfl,rfl⟩

theorem stepOverlay (parts : s.timeline = .gathered cs os es) (t : Overlay) :
    refusal (s.step (.addOverlay t)).1 = refusal (t.offered os) ∧
      (s.step (.addOverlay t)).2.timeline = .gathered cs (taking Overlay.offered os t) es := by
  refine editOffered (fun _ => .overlay t) (fun os => .gathered cs os es) parts ?_
  rw [parts,Timeline.gatheredOverlay]
  cases t.offered os <;> rfl

theorem stepEffect (parts : s.timeline = .gathered cs os es) (e : Effect) :
    refusal (s.step (.addEffect e)).1 = refusal (e.offered es) ∧
      (s.step (.addEffect e)).2.timeline = .gathered cs os (taking Effect.offered es e) := by
  refine editOffered
    (fun stored => .effect (((Timeline.gathered cs os (es ++ [stored])).effect? e.id).getD stored))
    (fun es => .gathered cs os es) parts ?_
  rw [parts,Timeline.gatheredEffect]
  cases e.offered es <;> rfl

theorem stepClip (parts : s.timeline = .gathered cs os es) {c : Clip}
    (apart : ∀ d ∈ cs, d.Apart c) :
    refusal (s.step (.addClip c)).1 = refusal (c.offered cs) ∧
      (s.step (.addClip c)).2.timeline = .gathered (taking Clip.offered cs c) os es := by
  refine editOffered (fun _ => .clip (some c)) (fun cs => .gathered cs os es) parts ?_
  rw [parts,Timeline.gatheredClip apart]
  cases c.offered cs <;> rfl

/-- Additions to what is stored, each part taken by itself. -/
structure Builds (s : Studio) (cs₀ : List Clip) (os₀ : List Overlay) (es₀ : List Effect)
    (cs : List Clip) (os : List Overlay) (es : List Effect) (calls : List Command) : Prop where
  timeline : (s.run calls).timeline = .gathered (cs.foldl (taking Clip.offered) cs₀)
    (os.foldl (taking Overlay.offered) os₀) (es.foldl (taking Effect.offered) es₀)
  overlays : s.fates .overlays calls = refusals Overlay.offered os₀ os
  effects : s.fates .effects calls = refusals Effect.offered es₀ es
  clips : s.fates .clips calls = refusals Clip.offered cs₀ cs

theorem runMingled (mingled : Mingled os es cs calls)
    (parts : s.timeline = .gathered cs₀ os₀ es₀) (apart : (cs₀ ++ cs).Pairwise Clip.Apart) :
    Builds s cs₀ os₀ es₀ cs os es calls := by
  -- What is stored grows with the run; the clips stored and those to come stay apart throughout.
  induction mingled generalizing s cs₀ os₀ es₀ with
  | nil => exact ⟨parts,rfl,rfl,rfl⟩
  | overlay t rest ih =>
    obtain ⟨fate,after⟩ := stepOverlay parts t
    have builds := ih after apart
    exact ⟨builds.timeline,congrArg₂ List.cons fate builds.overlays,builds.effects,builds.clips⟩
  | effect e rest ih =>
    obtain ⟨fate,after⟩ := stepEffect parts e
    have builds := ih after apart
    exact ⟨builds.timeline,builds.overlays,congrArg₂ List.cons fate builds.effects,builds.clips⟩
  | @clip _ _ cs _ c rest ih =>
    have others : ∀ d ∈ cs₀, d.Apart c := fun d mem =>
      (List.pairwise_append.mp apart).2.2 d mem c List.mem_cons_self
    obtain ⟨fate,after⟩ := stepClip parts others
    have fewer : (taking Clip.offered cs₀ c ++ cs).Sublist (cs₀ ++ c :: cs) := by
      simpa using (takingSublist fun _ => Clip.offeredSame).append_right cs
    have builds := ih after (apart.sublist fewer)
    exact ⟨builds.timeline,builds.overlays,builds.effects,congrArg₂ List.cons fate builds.clips⟩

/-- However the additions are mingled, the same ones are refused, for the same reasons, and the
timeline is the same. -/
theorem mingledAlike {first second : List Command} (apart : cs.Pairwise Clip.Apart)
    (one : Mingled os es cs first) (other : Mingled os es cs second) :
    (({} : Studio).run first).timeline = (({} : Studio).run second).timeline ∧
      ∀ part, ({} : Studio).fates part first = ({} : Studio).fates part second := by
  have empty : ({} : Studio).timeline = .gathered [] [] [] := rfl
  have left := runMingled one empty apart
  have right := runMingled other empty apart
  refine ⟨left.timeline.trans right.timeline.symm,fun part => ?_⟩
  cases part with
  | overlays => exact left.overlays.trans right.overlays.symm
  | effects => exact left.effects.trans right.effects.symm
  | clips => exact left.clips.trans right.clips.symm

def cards : List Overlay :=
  [{ id := "t", content := "One" },{ id := "u", content := "Two", fontSize := 0 }]

def looks : List Effect :=
  [{ id := "e", kind := "fade" },{ id := "e", kind := "zoom" },{ id := "z", kind := "zoom" }]

def strips : List Clip :=
  [⟨"a","effect","effect",1,3,none,none,some "e"⟩,⟨"a","video","video",0,8,some "b.mp4",none,none⟩,
   ⟨"c","effect","effect",2,5,none,none,some "z"⟩]

def clipsLast : List Command :=
  cards.map .addOverlay ++ looks.map .addEffect ++ strips.map .addClip

def clipsFirst : List Command :=
  strips.map .addClip ++ looks.map .addEffect ++ cards.map .addOverlay

/-- Of each part one addition is refused. Both effects get the windows of their clips, be it when
the clips are added or when the effects are. -/
theorem stripsAlike : strips.Pairwise Clip.Apart ∧
    Mingled cards looks strips clipsLast ∧ Mingled cards looks strips clipsFirst ∧
    (({} : Studio).run clipsFirst).timeline = (({} : Studio).run clipsLast).timeline ∧
    (({} : Studio).run clipsFirst).timeline.effects =
      [⟨"e","fade",50,1,3⟩,⟨"z","amplify",50,2,5⟩] ∧
    ({} : Studio).fates .clips clipsFirst = [none,some (.rejected (.clipIdTaken "a")),none] := by
  have apart : strips.Pairwise Clip.Apart := by
    simp [strips,Clip.Apart,Clip.drives]
  have last : Mingled cards looks strips clipsLast := by repeat constructor
  have first : Mingled cards looks strips clipsFirst := by repeat constructor
  have alike := mingledAlike apart first last
  refine ⟨apart,last,first,alike.1,?_,?_⟩
  · rw [alike.1]
    decide +kernel
  · rw [alike.2 .clips]
    decide +kernel

end Studio
end Montage
