import Montage.Proofs.Render.Outline

/-! What a plan is made of and what it is made from. The nodes of one kind stand in one block of
the graph. Of a timeline a compilation reads the clips to be seen and to be heard, the overlays and
effects that clips place, and the length; two timelines that agree on these have the same plan. -/
namespace Montage

theorem ofBlock {ns : List Node} {own : String} (each : ∀ n ∈ ns, n.kind = own)
    (wanted : String → Bool) :
    ns.filter (wanted ·.kind) = if wanted own then ns else [] := by
  split
  · rename_i yes
    exact List.filter_eq_self.mpr fun n mem => by rw [each n mem,yes]
  · rename_i no
    exact List.filter_eq_nil_iff.mpr fun n mem => by rwa [each n mem]

theorem findSame {xs ys : List α} {p : α → Bool} (same : ys.filter p = xs.filter p) :
    ys.find? p = xs.find? p := by
  rw [← List.head?_filter,same,List.head?_filter]

namespace Picture
variable {tl tl' : Timeline} {o : Options} {inputs inputs' : List String} {visual : List Clip}
  {p : Picture} {texts chain : List Node} {effects : List Effect}

theorem Built.ofKinds (built : Built tl o inputs visual p texts effects chain)
    (wanted : String → Bool) : p.nodes.filter (wanted ·.kind) =
      (if wanted "normalize" then segments o inputs visual else []) ++
      (if wanted "concat" then joined visual else []) ++
      (if wanted "text" then texts else []) ++ (if wanted "effect" then chain else []) := by
  have segments' : ∀ n ∈ segments o inputs visual, n.kind = "normalize" := by
    intro n mem
    obtain ⟨x,_,rfl⟩ := List.mem_map.mp mem
    rfl
  have joined' : ∀ n ∈ joined visual, n.kind = "concat" := by
    unfold joined
    split <;> simp [join]
  have texts' : ∀ n ∈ texts, n.kind = "text" := by
    intro n mem
    obtain ⟨x,_,made⟩ := pairedRight built.drawn mem
    obtain ⟨f,_,rfl⟩ := textNodeSource made
    rfl
  have chain' : ∀ n ∈ chain, n.kind = "effect" := by
    intro n mem
    obtain ⟨x,_,made⟩ := pairedRight built.made mem
    obtain ⟨f,_,rfl⟩ := effectNodeSource made
    rfl
  rw [built.nodes]
  simp only [List.filter_append,ofBlock segments',ofBlock joined',ofBlock texts',ofBlock chain']

theorem placedSame (overlays : tl'.overlays = tl.overlays)
    (first : ∀ id, tl'.clipForOverlay id = tl.clipForOverlay id) :
    placedTexts tl' = placedTexts tl := by
  unfold placedTexts
  simp only [overlays,first]

theorem linkedSame (effects : tl'.effects = tl.effects)
    (first : ∀ id, tl'.clipForEffect id = tl.clipForEffect id) :
    linkedEffects tl' = linkedEffects tl := by
  unfold linkedEffects
  simp only [effects,first]

theorem buildSame (texts : placedTexts tl' = placedTexts tl)
    (effects : linkedEffects tl' = linkedEffects tl)
    (files : segments o inputs' visual = segments o inputs visual) :
    build tl' o inputs' visual = build tl o inputs visual := by
  unfold build textNodes textFiles
  rw [texts,effects,files]

end Picture

theorem Sound.ofKinds (length : Float) (inputs : List String) (audio : List Clip)
    (wanted : String → Bool) : (nodes length inputs audio).filter (wanted ·.kind) =
      (if wanted "audio" then tracks length inputs audio else []) ++
      (if wanted "mix" then mixed audio else []) := by
  have tracks' : ∀ n ∈ tracks length inputs audio, n.kind = "audio" := by
    intro n mem
    obtain ⟨x,_,rfl⟩ := List.mem_map.mp mem
    rfl
  have mixed' : ∀ n ∈ mixed audio, n.kind = "mix" := by
    unfold mixed
    split <;> simp [mix]
  unfold nodes
  simp only [List.filter_append,ofBlock tracks',ofBlock mixed']

namespace Timeline
variable {tl tl' : Timeline} {o : Options}

theorem ofKindSeen {kind : String} {q : Picture} {length : Float} {inputs : List String}
    (tracks : kind ≠ "audio") (mixes : kind ≠ "mix") :
    (assembled tl o length inputs (some q)).graph.ofKind kind =
      q.nodes.filter (·.kind == kind) := by
  have heard := Sound.ofKinds length inputs tl.audio (· == kind)
  unfold Graph.ofKind assembled
  dsimp only [seenNodes]
  rw [List.filter_append,heard]
  simp [tracks.symm,mixes.symm]

theorem chainsOf {inputs : List String} {q : Picture} {texts chain : List Node}
    {effects : List Effect} (built : Picture.Built tl o inputs tl.visual q texts effects chain)
    (length : Float) :
    (assembled tl o length inputs (some q)).graph.ofKind "text" = texts ∧
      (assembled tl o length inputs (some q)).graph.ofKind "effect" = chain := by
  rw [ofKindSeen (by decide) (by decide),ofKindSeen (by decide) (by decide)]
  have seen (kind : String) := built.ofKinds (· == kind)
  exact ⟨(seen "text").trans (by simp),(seen "effect").trans (by simp)⟩

theorem compileSame (visual : tl'.visual = tl.visual) (audio : tl'.audio = tl.audio)
    (texts : Picture.placedTexts tl' = Picture.placedTexts tl)
    (effects : Picture.linkedEffects tl' = Picture.linkedEffects tl)
    (length : plannedLength tl' o = plannedLength tl o) : tl'.compile o = tl.compile o := by
  have picture (inputs : List String) : tl'.picture o inputs = tl.picture o inputs := by
    unfold Timeline.picture
    rw [visual,Picture.buildSame texts effects rfl]
  have plan (length : Float) (inputs : List String) (picture : Option Picture) :
      assembled tl' o length inputs picture = assembled tl o length inputs picture := by
    unfold assembled
    rw [audio]
  simp only [compileEq,visual,audio,length,picture,plan]

end Timeline
end Montage
