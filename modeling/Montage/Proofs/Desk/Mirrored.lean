import Montage.Proofs.Studio.Refused

/-! Windows of effects. An effect keeps a copy of the window of the clip that places it. The copy is
made anew whenever the clip is stored or the effect is; it is that of the first such clip, so
nothing is said of effects that several clips place. -/
namespace Montage

def Act.renames (tl : Timeline) (a : Act) : Bool := a.call?.any (·.renames tl)

namespace Timeline

/-- No stored effect is placed by two clips. -/
def Single (tl : Timeline) : Prop :=
  ∀ e ∈ tl.effects, tl.clips.Pairwise fun c d => ¬ (c.drives e.id = true ∧ d.drives e.id = true)
instance (tl : Timeline) : Decidable tl.Single := by unfold Single; infer_instance

def Mirrored (tl : Timeline) : Prop :=
  ∀ e ∈ tl.effects, ∀ c, tl.clipForEffect e.id = some c → e.start = c.start ∧ e.stop = c.stop

variable {tl tl' : Timeline}

theorem driverFound {id : String} {cs : List Clip} {c : Clip}
    (single : cs.Pairwise fun c d => ¬ (c.drives id = true ∧ d.drives id = true))
    (mem : c ∈ cs) (drives : c.drives id = true) : cs.find? (·.drives id) = some c := by
  induction cs with
  | nil => cases mem
  | cons d ds ih =>
    obtain ⟨apart,single⟩ := List.pairwise_cons.mp single
    rcases List.mem_cons.mp mem with rfl | later
    · simp only [List.find?_cons,drives]
    · have other : d.drives id = false :=
        Bool.eq_false_iff.mpr fun first => apart c later ⟨first,drives⟩
      simp only [List.find?_cons,other]
      exact ih single later

theorem drivesEffect {c : Clip} {id : String} :
    c.drives id = true ↔ c.kind = "effect" ∧ c.effect = some id := by
  simp [Clip.drives]

theorem syncWindow {c : Clip} {e : Effect} (mem : e ∈ (tl.sync c).effects) :
    ∃ d ∈ tl.effects, e.id = d.id ∧
      (c.drives d.id = true ∧ e.start = c.start ∧ e.stop = c.stop ∨
        c.drives d.id = false ∧ e = d) := by
  rw [syncGives] at mem
  obtain ⟨d,stored,rfl⟩ := List.mem_map.mp mem
  refine ⟨d,stored,c.givesId d,?_⟩
  cases drives : c.drives d.id with
  | true => exact .inl (by simp [Clip.gives,drives])
  | false => exact .inr ⟨rfl,givesApart drives⟩

theorem driver {id : String} {c : Clip} (found : tl.clipForEffect id = some c) :
    c ∈ tl.clips ∧ c.drives id = true :=
  ⟨List.mem_of_find?_eq_some found,by simpa using List.find?_some found⟩

theorem Mirrored.window {e : Effect} {c : Clip} (mirrored : tl.Mirrored) (single : tl.Single)
    (stored : e ∈ tl.effects) (mem : c ∈ tl.clips) (drives : c.drives e.id = true) :
    e.start = c.start ∧ e.stop = c.stop :=
  mirrored e stored c (driverFound (single e stored) mem drives)

theorem Mirrored.fewer (mirrored : tl.Mirrored) (single : tl.Single) (clips : tl'.clips ⊆ tl.clips)
    (effects : tl'.effects ⊆ tl.effects) : tl'.Mirrored := by
  intro e stored c found
  obtain ⟨mem,drives⟩ := driver found
  exact mirrored.window single (effects stored) (clips mem) drives

/-- The clip that was stored last has given its window away; the others must have done so before. -/
theorem syncMirrored {c : Clip} (mem : c ∈ tl.clips) (single : (tl.sync c).Single)
    (others : ∀ e ∈ tl.effects, ∀ d ∈ tl.clips, d ≠ c → d.drives e.id = true →
      e.start = d.start ∧ e.stop = d.stop) : (tl.sync c).Mirrored := by
  have clips := (syncSource tl c).1
  intro e stored d found
  obtain ⟨here,drives⟩ := driver found
  obtain ⟨old,was,named,⟨placed,window⟩ | ⟨unplaced,rfl⟩⟩ := syncWindow stored
  · have first : (tl.sync c).clipForEffect e.id = some c :=
      driverFound (single e stored) (clips ▸ mem) (named ▸ placed)
    cases Option.some.inj (first.symm.trans found)
    exact window
  · refine others e was d (clips ▸ here) ?_ drives
    rintro rfl
    rw [unplaced] at drives
    cases drives

theorem syncLinkedMirrored {id : String}
    (others : ∀ e ∈ tl.effects, e.id ≠ id → ∀ d, tl.clipForEffect e.id = some d →
      e.start = d.start ∧ e.stop = d.stop) : (tl.syncLinked id).Mirrored := by
  unfold syncLinked
  split
  · rename_i c linked
    intro e stored d found
    have placing := drivesEffect.mp (driver linked).2
    unfold clipForEffect at found
    rw [(syncSource tl c).1] at found
    obtain ⟨old,was,named,⟨placed,window⟩ | ⟨unplaced,rfl⟩⟩ := syncWindow stored
    · have same : e.id = id := by
        rw [named]
        exact Option.some.inj ((drivesEffect.mp placed).2.symm.trans placing.2)
      rw [same] at found
      cases Option.some.inj (linked.symm.trans found)
      exact window
    · refine others e was ?_ d found
      intro same
      rw [same,drivesEffect.mpr placing] at unplaced
      cases unplaced
  · rename_i unlinked
    intro e stored d found
    refine others e stored ?_ d found
    intro same
    rw [same,unlinked] at found
    cases found

theorem Edited.mirrored {c : Command} (edit : Edited tl c tl') (inside : c.outside = false)
    (named : c.renames tl = false) (single : tl.Single) (single' : tl'.Single)
    (mirrored : tl.Mirrored) : tl'.Mirrored := by
  cases edit with
  | @clipAdded c fresh sound =>
    refine syncMirrored (by simp) single' fun e stored d mem other drives => ?_
    rcases List.mem_append.mp mem with old | new
    · exact mirrored.window single stored old drives
    · exact absurd (List.mem_singleton.mp new) other
  | @clipUpdated id p old new found patched =>
    have mem : new ∈ replaceFirst (·.id == id) new tl.clips :=
      memReplaceFirst ⟨old,(foundClip found).1,by simp [(foundClip found).2]⟩
    refine syncMirrored mem single' fun e stored d mem other drives => ?_
    have was : d = new ∨ d ∈ tl.clips :=
      forallReplaceFirst (P := fun d => d = new ∨ d ∈ tl.clips) (fun _ => .inr) (.inl rfl) d mem
    exact mirrored.window single stored (was.resolve_left other) drives
  | clipOverwritten found => cases inside
  | clipRemoved found =>
    exact mirrored.fewer single List.eraseP_sublist.subset (List.Subset.refl _)
  | overlayAdded fresh sound => exact mirrored
  | overlayUpdated patched => exact mirrored
  | overlayRemoved found =>
    exact mirrored.fewer single List.filter_sublist.subset (List.Subset.refl _)
  | effectAdded fresh sound =>
    refine syncLinkedMirrored fun e stored other d found => ?_
    rcases List.mem_append.mp stored with old | new
    · exact mirrored e old d found
    · cases List.mem_singleton.mp new
      exact absurd (Effect.normalSource sound).2 other
  | @effectUpdated id p new patched =>
    have kept : new.id = id := by
      simp only [Command.renames,patched] at named
      simpa using named
    refine syncLinkedMirrored fun e stored other d found => ?_
    have was : e = new ∨ e ∈ tl.effects :=
      forallReplaceFirst (P := fun e => e = new ∨ e ∈ tl.effects) (fun _ => .inr) (.inl rfl) e stored
    rcases was with rfl | old
    · exact absurd kept other
    · exact mirrored e old d found
  | effectRemoved found =>
    exact mirrored.fewer single List.filter_sublist.subset List.eraseP_sublist.subset

end Timeline
namespace Desk

theorem stepMirrored {d : Desk} {a : Act} (inside : a.outside = false)
    (named : a.renames d.timeline = false) (single : d.timeline.Single)
    (single' : (d.step a).timeline.Single) (mirrored : d.timeline.Mirrored) :
    (d.step a).timeline.Mirrored := by
  have passed := stepPassed d a
  generalize (d.step a).timeline = tl at passed single' ⊢
  cases passed with
  | same => exact mirrored
  | @called c tl' call edit =>
    rw [Act.renames,call] at named
    have within : c.outside = false := by
      cases a with
      | command i c' =>
        cases Option.some.inj call
        exact inside
      | applyProposal i => cases call
      | apply l => cases call
    exact edit.mirrored within named single single' mirrored
  | windowed edit => exact edit.mirrored rfl rfl single single' mirrored

theorem runMirrored {as : List Act} (inside : ∀ a ∈ as, a.outside = false)
    (named : ∀ (n : Nat) (_ : n < as.length),
      as[n].renames (({} : Desk).run (as.take n)).timeline = false)
    (single : ∀ n ≤ as.length, (({} : Desk).run (as.take n)).timeline.Single) :
    ∀ n ≤ as.length, (({} : Desk).run (as.take n)).timeline.Mirrored := by
  refine everyState (P := fun d => d.timeline.Mirrored) (by simp [Timeline.Mirrored]) ?_
  intro n within mirrored
  have after := single (n + 1) within
  rw [runNext _ within] at after
  exact stepMirrored (inside _ (List.getElem_mem within)) (named n within) (single n within.le)
    after mirrored

def relinking : List Act :=
  [.command 0 (.addClip ⟨"a","effect","effect",1,3,none,none,some "e"⟩),
   .command 0 (.addEffect { id := "e", kind := "zoom", start := 9, stop := 10 }),
   .command 0 (.addEffect { id := "f", kind := "blur", start := 7, stop := 8 }),
   .command 0 (.updateEffect "e" { start := some 0, stop := some 20 }),
   .command 0 (.updateEffect "e" { id := some "x", intensity := some 101 }),
   .command 0 (.openSession 1),
   .command 0 (.press "a" 1 none),
   .command 0 (.release (some 9)),
   .command 0 (.updateClip "a" { effect := some (some "f") })]

/-- The window is lost to the copy, follows a drag, and is given to the effect placed in the end. -/
theorem relinkingMirrored : (∀ a ∈ relinking, a.outside = false) ∧
    (∀ (n : Nat) (_ : n < relinking.length),
      relinking[n].renames (({} : Desk).run (relinking.take n)).timeline = false) ∧
    (∀ n ≤ relinking.length, (({} : Desk).run (relinking.take n)).timeline.Single) ∧
    (∀ n ≤ relinking.length, (({} : Desk).run (relinking.take n)).timeline.Mirrored) ∧
    (({} : Desk).run relinking).timeline.effects.map (fun e => (e.id,e.start,e.stop)) =
      [("e",3,5),("f",3,5)] := by
  have inside : ∀ a ∈ relinking, a.outside = false := by decide
  have named : ∀ (n : Nat) (_ : n < relinking.length),
      relinking[n].renames (({} : Desk).run (relinking.take n)).timeline = false := by
    decide +kernel
  have single : ∀ n ≤ relinking.length,
      (({} : Desk).run (relinking.take n)).timeline.Single := by decide +kernel
  exact ⟨inside,named,single,runMirrored inside named single,by decide +kernel⟩

end Desk
end Montage
