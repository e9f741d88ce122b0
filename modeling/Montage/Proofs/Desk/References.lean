import Montage.Proofs.Studio.Refused

/-! References of clips. Validation passes where every clip is usable and finds its overlay or
effect under the id it gives. Adding keeps the records that are there, an update keeps their number
and, unless it gives another id, their ids, and a removal takes the clips that refer to the record
along. So whatever is resolved stays so until a clip itself is added or updated. -/
namespace Montage

/-- The clip is usable and what it refers to is there. -/
structure Timeline.Resolves (tl : Timeline) (c : Clip) : Prop where
  sound : c.check = .ok ()
  overlay : c.kind = "text" → ∃ id ∈ tl.overlays.map Overlay.id, c.overlay = some id
  effect : c.kind = "effect" → ∃ id ∈ tl.effects.map Effect.id, c.effect = some id

def Timeline.Resolved (tl : Timeline) : Prop := ∀ c ∈ tl.clips, tl.Resolves c

/-- Gives no clip other fields than a window, and no record another id. -/
def Command.settled : Command → Bool
  | addClip _ | updateClip .. | overwriteClip .. => false
  | updateOverlay id p => p.id.all (· == id)
  | updateEffect id p => p.id.all (· == id)
  | _ => true

def Act.settled (a : Act) : Bool := a.call?.all Command.settled

/-- `after` is `before` without `x`, its first record of the name `id`. -/
structure Dropped (name : α → String) (id : String) (x : α) (before after : List α) : Prop where
  named : name x = id
  parts : ∃ xs ys, before = xs ++ x :: ys ∧ (∀ y ∈ xs, name y ≠ id) ∧ after = xs ++ ys

/-- `after` is `before` in its order without the clips for which `gone` holds. -/
structure Cleared (gone : Clip → Prop) (before after : List Clip) : Prop where
  order : after.Sublist before
  rest : ∀ c, ¬ gone c → after.count c = before.count c
  none : ∀ c, gone c → c ∉ after

/-- The record is gone from its store, and with it the clips of `kind` that refer to it by `ref`. -/
structure Timeline.Without (store : Timeline → List α) (name : α → String) (kind : String)
    (ref : Clip → Option String) (id : String) (x : α) (tl tl' : Timeline) : Prop where
  record : Dropped name id x (store tl) (store tl')
  clips : Cleared (fun c => c.kind = kind ∧ ref c = some id) tl.clips tl'.clips

theorem droppedFirst {name : α → String} {id : String} {x : α} {xs : List α}
    (found : xs.find? (name · == id) = some x) :
    Dropped name id x xs (xs.eraseP (name · == id)) := by
  obtain ⟨here,before,after,rfl,apart⟩ := List.find?_eq_some_iff_append.mp found
  have apart : ∀ y ∈ before, ¬ (name y == id) = true := by simpa using apart
  refine ⟨by simpa using here,before,after,rfl,by simpa using apart,?_⟩
  rw [List.eraseP_append_right _ apart]
  simp [here]

theorem clearedFilter {gone : Clip → Prop} {p : Clip → Bool} (known : ∀ c, p c = true ↔ gone c)
    (cs : List Clip) : Cleared gone cs (cs.filter fun c => !p c) where
  order := List.filter_sublist
  rest c other := by
    have kept : p c = false := Bool.eq_false_iff.mpr (other ∘ (known c).mp)
    exact List.count_filter (by simp [kept])
  none c gone mem := by
    have kept := List.of_mem_filter mem
    simp [(known c).mpr gone] at kept

theorem Clip.showsIff (c : Clip) (id : String) :
    c.shows id = true ↔ c.kind = "text" ∧ c.overlay = some id := by
  simp [shows]

theorem Clip.drivesIff (c : Clip) (id : String) :
    c.drives id = true ↔ c.kind = "effect" ∧ c.effect = some id := by
  simp [drives]

theorem keptName {name : α → String} {id kept : String} {xs : List α}
    (mem : kept ∈ xs.map name) (other : kept ≠ id) :
    kept ∈ (xs.eraseP (name · == id)).map name := by
  rw [erasedKeys]
  exact (List.mem_erase_of_ne other).mpr mem

theorem replacedNames {name : α → String} {id : String} {new : α} {xs : List α}
    (same : name new = id) : (replaceFirst (name · == id) new xs).map name = xs.map name :=
  keysReplaceFirst fun x _ here => (by simpa using here : name x = id).trans same.symm

namespace Timeline
variable {tl tl' : Timeline} {c : Clip}

theorem checkRefsIff : tl.checkRefs c = .ok () ↔
    (c.kind = "text" → ∃ id ∈ tl.overlays.map Overlay.id, c.overlay = some id) ∧
      (c.kind = "effect" → ∃ id ∈ tl.effects.map Effect.id, c.effect = some id) := by
  have missing (r : Option String) (ids : List String) :
      (r.all fun id => !ids.contains id) = true ↔ ¬ ∃ id ∈ ids, r = some id := by
    cases r <;> simp
  unfold checkRefs
  simp only [missing]
  by_cases text : c.kind = "text"
  · simp [text]
  · by_cases placed : c.kind = "effect"
    · simp [placed]
    · simp [text,placed]

theorem checkClipsIff {cs : List Clip} :
    tl.checkClips cs = .ok () ↔ ∀ c ∈ cs, tl.Resolves c := by
  constructor
  · intro valid c mem
    obtain ⟨sound,refs⟩ := checkClipsSource valid c mem
    obtain ⟨overlay,effect⟩ := checkRefsIff.mp refs
    exact ⟨sound,overlay,effect⟩
  · intro resolved
    induction cs with
    | nil => rfl
    | cons c cs ih =>
      obtain ⟨first,rest⟩ := List.forall_mem_cons.mp resolved
      exact bindTotal first.sound
        (bindTotal (checkRefsIff.mpr ⟨first.overlay,first.effect⟩) (ih rest))

theorem validateIff : tl.validate = .ok () ↔ tl.Resolved := checkClipsIff

/-- What a clip asks of the timeline are ids, so that only ids that go can orphan it. -/
theorem Resolves.still (resolves : tl.Resolves c)
    (overlays : c.kind = "text" → ∀ id ∈ tl.overlays.map Overlay.id, c.overlay = some id →
      id ∈ tl'.overlays.map Overlay.id)
    (effects : c.kind = "effect" → ∀ id ∈ tl.effects.map Effect.id, c.effect = some id →
      id ∈ tl'.effects.map Effect.id) : tl'.Resolves c where
  sound := resolves.sound
  overlay text :=
    let ⟨id,mem,placed⟩ := resolves.overlay text
    ⟨id,overlays text id mem placed,placed⟩
  effect drawn :=
    let ⟨id,mem,placed⟩ := resolves.effect drawn
    ⟨id,effects drawn id mem placed,placed⟩

theorem Resolves.more (resolves : tl.Resolves c)
    (overlays : tl.overlays.map Overlay.id ⊆ tl'.overlays.map Overlay.id)
    (effects : tl.effects.map Effect.id ⊆ tl'.effects.map Effect.id) : tl'.Resolves c :=
  resolves.still (fun _ _ mem _ => overlays mem) (fun _ _ mem _ => effects mem)

theorem Resolved.sync (resolved : tl.Resolved) (c : Clip) : (tl.sync c).Resolved := by
  obtain ⟨clips,overlays,_⟩ := syncSource tl c
  intro d mem
  rw [clips] at mem
  exact (resolved d mem).more (overlays ▸ List.Subset.refl _) (syncIds tl c ▸ List.Subset.refl _)

theorem Resolved.syncLinked (resolved : tl.Resolved) (id : String) :
    (tl.syncLinked id).Resolved := by
  unfold Timeline.syncLinked
  split
  · exact resolved.sync _
  · exact resolved

theorem givenName {given : Option String} {id : String}
    (settled : given.all (· == id) = true) : given.getD id = id := by
  cases given with
  | none => rfl
  | some i => simpa using settled

theorem patchOverlayId {id : String} {p : OverlayPatch} {new : Overlay}
    (patched : tl.patchOverlay id p = .ok new) (settled : p.id.all (· == id) = true) :
    new.id = id := by
  obtain ⟨old,found,ok⟩ := bindOk patched
  have named : old.id = id := by simpa using List.find?_some (overlayFound found)
  split at ok
  · cases ok
  · obtain ⟨_,_,last⟩ := bindOk ok
    cases Except.ok.inj last
    exact (congrArg p.id.getD named).trans (givenName settled)

theorem patchEffectId {id : String} {p : EffectPatch} {new : Effect}
    (patched : tl.patchEffect id p = .ok new) (settled : p.id.all (· == id) = true) :
    new.id = id := by
  obtain ⟨old,found,ok⟩ := bindOk patched
  have named : old.id = id := by simpa using List.find?_some (effectFound found)
  split at ok
  · cases ok
  · exact (Effect.normalSource ok).2.trans ((congrArg p.id.getD named).trans (givenName settled))

/-- A new window is checked like any other update, and leaves the references alone. -/
theorem Edited.windowResolved {id : String} {start stop : Float}
    (edit : Edited tl (.updateClip id (.window start stop)) tl') (resolved : tl.Resolved) :
    tl'.Resolved := by
  cases edit with
  | clipUpdated found patched =>
    obtain ⟨_,_,rfl,sound⟩ := patchSource patched
    have old := resolved _ (foundClip found).1
    refine Resolved.sync (fun d mem => ?_) _
    have same : tl.Resolves d :=
      forallReplaceFirst resolved ⟨sound,old.overlay,old.effect⟩ d mem
    exact same.more (List.Subset.refl _) (List.Subset.refl _)

theorem Edited.settledResolved {call : Command} (edit : Edited tl call tl')
    (settled : call.settled = true) (resolved : tl.Resolved) : tl'.Resolved := by
  cases edit with
  | clipAdded fresh sound => cases settled
  | clipUpdated found patched => cases settled
  | clipOverwritten found => cases settled
  | clipRemoved found =>
    intro d mem
    have same := resolved d (List.mem_of_mem_eraseP mem)
    exact same.more (List.Subset.refl _) (List.Subset.refl _)
  | overlayAdded fresh sound =>
    intro d mem
    refine (resolved d mem).more ?_ (List.Subset.refl _)
    exact List.map_subset _ (List.subset_append_left _ _)
  | @overlayUpdated id p new patched =>
    have same : new.id = id := patchOverlayId patched settled
    intro d mem
    exact (resolved d mem).more (replacedNames same ▸ List.Subset.refl _) (List.Subset.refl _)
  | @overlayRemoved id t found =>
    intro d mem
    obtain ⟨mem,other⟩ := List.mem_filter.mp mem
    refine (resolved d mem).still (fun text i named placed => ?_) fun _ _ named _ => named
    refine keptName named fun same => ?_
    simp [(d.showsIff id).mpr ⟨text,same ▸ placed⟩] at other
  | @effectAdded e stored fresh sound =>
    refine Resolved.syncLinked (fun d mem => ?_) _
    refine (resolved d mem).more (List.Subset.refl _) ?_
    exact List.map_subset _ (List.subset_append_left _ _)
  | @effectUpdated id p new patched =>
    have same : new.id = id := patchEffectId patched settled
    refine Resolved.syncLinked (fun d mem => ?_) _
    exact (resolved d mem).more (List.Subset.refl _) (replacedNames same ▸ List.Subset.refl _)
  | @effectRemoved id e found =>
    intro d mem
    obtain ⟨mem,other⟩ := List.mem_filter.mp mem
    refine (resolved d mem).still (fun _ _ named _ => named) fun drawn i named placed => ?_
    refine keptName named fun same => ?_
    simp [(d.drivesIff id).mpr ⟨drawn,same ▸ placed⟩] at other

end Timeline

namespace Studio
variable {s s' : Studio} {id : String} {reply : Reply}

theorem overlayRemoved (ok : s.step (.removeOverlay id) = (.ok reply,s')) :
    ∃ t, reply = .overlay t ∧
      Timeline.Without Timeline.overlays Overlay.id "text" Clip.overlay id t s.timeline s'.timeline ∧
      s'.timeline.effects = s.timeline.effects := by
  simp only [step] at ok
  cases removed : s.timeline.removeOverlay id with
  | error f =>
    rw [removed] at ok
    cases ok
  | ok made =>
    obtain ⟨t,tl⟩ := made
    obtain ⟨found,rfl⟩ := Timeline.removeOverlaySource removed
    rw [removed] at ok
    cases ok
    exact ⟨t,rfl,⟨droppedFirst found,clearedFilter (Clip.showsIff · id) _⟩,rfl⟩

theorem effectRemoved (ok : s.step (.removeEffect id) = (.ok reply,s')) :
    ∃ e, reply = .effect e ∧
      Timeline.Without Timeline.effects Effect.id "effect" Clip.effect id e s.timeline s'.timeline ∧
      s'.timeline.overlays = s.timeline.overlays := by
  simp only [step] at ok
  cases removed : s.timeline.removeEffect id with
  | error f =>
    rw [removed] at ok
    cases ok
  | ok made =>
    obtain ⟨e,tl⟩ := made
    obtain ⟨found,rfl⟩ := Timeline.removeEffectSource removed
    rw [removed] at ok
    cases ok
    exact ⟨e,rfl,⟨droppedFirst found,clearedFilter (Clip.drivesIff · id) _⟩,rfl⟩

end Studio
namespace Desk

theorem stepResolved {d : Desk} {a : Act} (settled : a.settled = true)
    (resolved : d.timeline.Resolved) : (d.step a).timeline.Resolved := by
  have passed := stepPassed d a
  generalize (d.step a).timeline = tl at passed
  cases passed with
  | same => exact resolved
  | called call edit =>
    rw [Act.settled,call] at settled
    exact edit.settledResolved settled resolved
  | windowed edit => exact edit.windowResolved resolved

/-- Whatever is answered on the way. -/
theorem runResolved (d : Desk) (as : List Act) (valid : d.timeline.validate = .ok ())
    (settled : ∀ a ∈ as, a.settled = true) (n : Nat) (inside : n ≤ as.length) :
    let now := d.run (as.take n)
    now.timeline.validate = .ok () ∧
      (∀ (i : Nat) (id : String) (reply : Reply) (s : Studio),
        (now.studio i).step (.removeOverlay id) = (.ok reply,s) → ∃ t, reply = .overlay t ∧
          Timeline.Without Timeline.overlays Overlay.id "text" Clip.overlay id t now.timeline
            s.timeline ∧
          s.timeline.effects = now.timeline.effects) ∧
      ∀ (i : Nat) (id : String) (reply : Reply) (s : Studio),
        (now.studio i).step (.removeEffect id) = (.ok reply,s) → ∃ e, reply = .effect e ∧
          Timeline.Without Timeline.effects Effect.id "effect" Clip.effect id e now.timeline
            s.timeline ∧
          s.timeline.overlays = now.timeline.overlays := by
  refine ⟨Timeline.validateIff.mpr ?_,fun i id reply s => Studio.overlayRemoved,
    fun i id reply s => Studio.effectRemoved⟩
  refine everyState (P := fun d => d.timeline.Resolved) (Timeline.validateIff.mp valid) ?_ n inside
  exact fun m before => stepResolved (settled _ (List.getElem_mem before))

/-- Two clips show the same overlay, one another, and one an effect. -/
def subtitled : Desk where
  timeline := {
    overlays := [{ id := "t", content := "Refrain" }, { id := "u", content := "Verse" }]
    effects := [{ id := "e", kind := "fade" }]
    clips := [
      { id := "a", track := "text", kind := "text", start := 0, stop := 1, overlay := some "t" },
      { id := "b", track := "text", kind := "text", start := 2, stop := 3, overlay := some "u" },
      { id := "c", track := "text", kind := "text", start := 4, stop := 5, overlay := some "t" },
      { id := "d", track := "effect", kind := "effect", start := 0, stop := 5, effect := some "e" }] }

/-- A clip is dragged, its overlay rewritten and removed, and then once more in vain. -/
def rewriting : List Act :=
  [.command 0 (.openSession 0.5),.command 0 (.press "c" 4 none),.command 0 (.release (some 3)),
   .command 0 (.updateOverlay "t" { id := some "t", content := some "Chorus" }),
   .command 0 (.removeOverlay "t"),.command 0 (.removeOverlay "t"),.command 0 (.removeEffect "e")]

theorem rewritingResolved :
    subtitled.timeline.validate = .ok () ∧ (∀ a ∈ rewriting, a.settled = true) ∧
      (subtitled.run rewriting).timeline.validate = .ok () ∧
      (subtitled.run rewriting).timeline.clips.map Clip.id = ["b"] := by
  have valid : subtitled.timeline.validate = .ok () := by decide +kernel
  have settled : ∀ a ∈ rewriting, a.settled = true := by decide
  have resolved := runResolved subtitled rewriting valid settled rewriting.length le_rfl
  rw [List.take_length] at resolved
  exact ⟨valid,settled,resolved.1,by decide +kernel⟩

end Desk
end Montage
