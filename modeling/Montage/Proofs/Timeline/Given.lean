import Montage.Timeline.Edit

/-! Windows that are given. An effect clip gives its window, whenever it is stored, to the effects
that it places; their other fields, and all else that is stored, stay as they are. -/
namespace Montage

/-- The effect with the window of the clip, if the clip places it. -/
def Clip.gives (c : Clip) (e : Effect) : Effect :=
  if c.drives e.id then { e with start := c.start, stop := c.stop } else e

theorem Clip.givesWindow (c : Clip) (e : Effect) :
    ∃ start stop, c.gives e = { e with start, stop } := by
  unfold gives
  split
  · exact ⟨_,_,rfl⟩
  · exact ⟨e.start,e.stop,rfl⟩

theorem Clip.givesId (c : Clip) (e : Effect) : (c.gives e).id = e.id := by
  obtain ⟨start,stop,same⟩ := c.givesWindow e
  rw [same]

theorem Clip.givesNone {c : Clip} (kind : c.kind ≠ "effect") (es : List Effect) :
    es.map c.gives = es := by
  have still (e : Effect) : c.gives e = e := by simp [gives,drives,kind]
  exact List.map_id'' still es

theorem Timeline.syncGives (tl : Timeline) (c : Clip) :
    tl.sync c = { tl with effects := tl.effects.map c.gives } := by
  unfold sync
  by_cases kind : c.kind = "effect"
  · simp [kind,Clip.gives,Clip.drives]
  · simp [kind,Clip.givesNone kind]

/-- The effect with the window of the first clip that places it. -/
def placed (cs : List Clip) (e : Effect) : Effect :=
  match cs.find? (·.drives e.id) with
  | some c => c.gives e
  | none => e

theorem placedId (cs : List Clip) (e : Effect) : (placed cs e).id = e.id := by
  unfold placed
  split
  · exact Clip.givesId _ e
  · rfl

/-- No effect is placed by both. -/
def Clip.Apart (c d : Clip) : Prop := ∀ id, ¬ (c.drives id = true ∧ d.drives id = true)

theorem givesApart {c : Clip} {e : Effect} (other : c.drives e.id = false) : c.gives e = e := by
  simp [Clip.gives,other]

theorem givesOver {c : Clip} {e : Effect} (drives : c.drives e.id = true) (d : Clip) :
    c.gives (d.gives e) = c.gives e := by
  unfold Clip.gives
  split
  · simp
  · rfl

/-- A clip that is stored last gives its window to effects that no other clip places. -/
theorem givesLast {cs : List Clip} {c : Clip} {e : Effect}
    (apart : ∀ d ∈ cs, ¬ (d.drives e.id = true ∧ c.drives e.id = true)) :
    c.gives (placed cs e) = placed (cs ++ [c]) e := by
  unfold placed
  rw [List.find?_append]
  cases found : cs.find? (·.drives e.id) with
  | some d =>
    have drives : d.drives e.id = true := by simpa using List.find?_some found
    have other : c.drives e.id = false :=
      Bool.eq_false_iff.mpr fun here => apart d (List.mem_of_find?_eq_some found) ⟨drives,here⟩
    exact givesApart (by rwa [Clip.givesId])
  | none =>
    by_cases drives : c.drives e.id = true
    · simp [drives]
    · simp [givesApart,drives]

theorem givesPlaced {cs : List Clip} {c : Clip} {id : String}
    (found : cs.find? (·.drives id) = some c) (e : Effect) : c.gives (placed cs e) = placed cs e := by
  have drives : c.drives id = true := by simpa using List.find?_some found
  by_cases same : e.id = id
  · subst same
    simp only [placed,found,givesOver drives]
  · have other : c.drives (placed cs e).id = false := by
      rw [placedId]
      simp only [Clip.drives,Bool.and_eq_true,beq_iff_eq] at drives
      simp [Clip.drives,drives,Ne.symm same]
    exact givesApart other

namespace Timeline

/-- The clips and overlays, and the effects with the windows that the clips give them. -/
def gathered (cs : List Clip) (os : List Overlay) (es : List Effect) : Timeline :=
  ⟨cs,os,es.map (placed cs)⟩

variable {cs : List Clip} {os : List Overlay} {es : List Effect}

theorem storedClip {c : Clip} (apart : ∀ d ∈ cs, d.Apart c) :
    { gathered cs os es with clips := cs ++ [c] }.sync c = gathered (cs ++ [c]) os es := by
  simp only [syncGives,gathered,List.map_map]
  congr 1
  exact List.map_congr_left fun e _ => givesLast fun d mem => apart d mem e.id

theorem storedEffect (e : Effect) :
    { gathered cs os es with effects := (gathered cs os es).effects ++ [e] }.syncLinked e.id =
      gathered cs os (es ++ [e]) := by
  unfold syncLinked clipForEffect
  cases found : cs.find? (·.drives e.id) with
  | none => simp [gathered,placed,found]
  | some c =>
    simp only [gathered,found,syncGives,List.map_append,List.map_map]
    congr 2
    · exact List.map_congr_left fun d _ => givesPlaced found d
    · simp [placed,found]

end Timeline
end Montage
