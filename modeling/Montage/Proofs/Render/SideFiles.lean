import Montage.Proofs.Render.Captions

/-! The files of texts. The number in the name of a file counts all overlays, and nodes are numbered
among the overlays that are placed; so the two numbers part where an overlay is left out. The file
that a node reads is still that of the overlay that it draws. -/
namespace Montage
variable {tl : Timeline} {o : Options} {p : Plan}

namespace Picture

theorem placingSource {t : Overlay} {i : Nat} {x : Nat × Overlay × Clip}
    (placed : placing tl t i = some x) :
    ∃ c, x = (i,t,c) ∧ tl.clipForOverlay t.id = some c ∧ ¬ c.span ≤ 0 := by
  unfold placing at placed
  split at placed
  · rename_i c found
    split at placed
    · cases placed
    · exact ⟨c,(Option.some.inj placed).symm,found,‹_›⟩
  · cases placed

theorem placedSource {i : Nat} {t : Overlay} {c : Clip} (mem : (i,t,c) ∈ placedTexts tl) :
    tl.overlays[i]? = some t ∧ tl.clipForOverlay t.id = some c ∧ ¬ c.span ≤ 0 := by
  obtain ⟨⟨s,j⟩,at',placed⟩ := List.mem_filterMap.mp mem
  obtain ⟨d,same,found,opens⟩ := placingSource placed
  cases same
  exact ⟨List.mem_zipIdx_iff_getElem?.mp at',found,opens⟩

theorem placedApart (tl : Timeline) : ((placedTexts tl).map Prod.fst).Nodup := by
  have numbers : tl.overlays.zipIdx.Pairwise fun a b => a.2 ≠ b.2 := by
    have apart : (tl.overlays.zipIdx.map Prod.snd).Nodup := by
      rw [List.zipIdx_map_snd]
      exact List.nodup_range' ..
    exact List.pairwise_map.mp apart
  change ((placedFrom tl tl.overlays 0).map Prod.fst).Nodup
  refine List.pairwise_map.mpr (List.pairwise_filterMap.mpr (numbers.imp ?_))
  intro a b apart x placed y placed'
  obtain ⟨c,rfl,_⟩ := placingSource placed
  obtain ⟨d,rfl,_⟩ := placingSource placed'
  exact apart

theorem textFilesApart (read : String → β)
    (injective : Function.Injective fun i => read (sidePath o i)) :
    ((textFiles tl o).map fun f => read f.path).Nodup := by
  have apart := (placedApart tl).map injective
  simp only [List.map_map,Function.comp_def] at apart
  simp only [textFiles,List.map_map,Function.comp_def]
  exact apart

end Picture

/-- The node draws overlay number `i` in the window of `c`, and the file is the one that it reads. -/
structure SideFile.Of (tl : Timeline) (o : Options) (n : Node) (file : SideFile) (i : Nat)
    (t : Overlay) (c : Clip) : Prop where
  stored : tl.overlays[i]? = some t
  placed : tl.clipForOverlay t.id = some c
  opens : ¬ c.span ≤ 0
  path : file.path = Picture.sidePath o i
  content : file.content = t.content
  drawn : ∃ f, n.filters = [f] ∧ Picture.drawText t c file.path o.font = .ok f ∧
    (f.value? "textfile").map unescaped = some file.path

namespace Timeline

/-- Either there is nothing to draw on, or nodes and files are made from the same overlays. -/
theorem compileTexts (ok : tl.compile o = .ok p) :
    (tl.visual = [] ∧ p.graph.ofKind "text" = [] ∧ p.sideFiles = []) ∨
      (tl.visual ≠ [] ∧
        List.Forall₂ (fun x n => Picture.textNode o (Picture.joinedLabel tl.visual) x.2 x.1.1 x.1.2.1
          x.1.2.2 = .ok n) (Picture.placedTexts tl).zipIdx (p.graph.ofKind "text") ∧
        p.sideFiles = Picture.textFiles tl o) := by
  obtain ⟨length,sources,picture,_,_,_,drawn,rfl⟩ := compileSource ok
  rcases pictureSource drawn with ⟨none,rfl⟩ | ⟨q,some,build,rfl⟩
  · refine .inl ⟨none,?_,rfl⟩
    exact (Sound.ofKinds length _ tl.audio (· == "text")).trans (by simp)
  · obtain ⟨texts,effects,chain,built⟩ := Picture.buildSource build
    refine .inr ⟨some,?_,built.sideFiles⟩
    rw [(chainsOf built length).1]
    exact built.drawn

/-- Nothing is asked of the timeline: overlays may share an id, and clips may lack a window. -/
theorem compileFiled (ok : tl.compile o = .ok p) :
    p.sideFiles.length = (p.graph.ofKind "text").length ∧
    (p.sideFiles.map SideFile.path).Nodup ∧
    ∀ (k : Nat) (n : Node), (p.graph.ofKind "text")[k]? = some n →
      ∃ (file : SideFile) (i : Nat) (t : Overlay) (c : Clip), p.sideFiles[k]? = some file ∧
        (Picture.placedTexts tl)[k]? = some (i,t,c) ∧ file.Of tl o n i t c := by
  rcases compileTexts ok with ⟨_,texts,files⟩ | ⟨_,drawn,files⟩
  · simp [texts,files]
  rw [files]
  refine ⟨?_,Picture.textFilesApart (fun path => path) (sidePathInjective o),fun k n found => ?_⟩
  · have paired := drawn.length_eq
    rw [List.length_zipIdx] at paired
    rw [← paired]
    unfold Picture.textFiles
    rw [List.length_map]
  · obtain ⟨⟨⟨i,t,c⟩,j⟩,at',made⟩ := pairedAt drawn found
    obtain ⟨f,shown,rfl⟩ := Picture.textNodeSource made
    have here : (Picture.placedTexts tl)[k]? = some (i,t,c) := by
      rw [List.getElem?_zipIdx] at at'
      obtain ⟨x,inside,same⟩ := Option.map_eq_some_iff.mp at'
      cases same
      exact inside
    obtain ⟨stored,placed,opens⟩ := Picture.placedSource (List.mem_of_getElem? here)
    have reads : (f.value? "textfile").map unescaped = some (Picture.sidePath o i) := by
      rw [Picture.drawTextReads shown,Option.map_some,unescapedEscaped]
    have filed : (Picture.textFiles tl o)[k]? = some ⟨Picture.sidePath o i,t.content⟩ := by
      unfold Picture.textFiles
      rw [List.getElem?_map,here]
      rfl
    -- a path that stays folded is not computed when the fields of the file are compared
    generalize named : Picture.sidePath o i = path at filed shown reads
    exact ⟨⟨path,t.content⟩,i,t,c,filed,here,stored,placed,opens,named.symm,rfl,f,rfl,shown,reads⟩

/-- The first overlay is left out, and the path of the folder has to be escaped. -/
theorem refrainFiled : ∃ p, (sung [refrain]).compile { workFolder := "C:/it's" } = .ok p ∧
    p.sideFiles = [⟨"C:/it's/text_1.txt","Refrain"⟩] ∧
    (p.graph.ofKind "text").map Node.outputs = [["txt0"]] ∧
    ∀ (k : Nat) (n : Node), (p.graph.ofKind "text")[k]? = some n →
      ∃ (file : SideFile) (i : Nat) (t : Overlay) (c : Clip), p.sideFiles[k]? = some file ∧
        (Picture.placedTexts (sung [refrain]))[k]? = some (i,t,c) ∧
        file.Of (sung [refrain]) { workFolder := "C:/it's" } n i t c := by
  obtain ⟨p,ok,written⟩ := answered (x := (sung [refrain]).compile { workFolder := "C:/it's" })
    (fun p => p.sideFiles == [⟨"C:/it's/text_1.txt","Refrain"⟩] &&
      (p.graph.ofKind "text").map Node.outputs == [["txt0"]]) (by decide +kernel)
  obtain ⟨files,labels⟩ := Bool.and_eq_true_iff.mp written
  exact ⟨p,ok,beq_iff_eq.mp files,beq_iff_eq.mp labels,(compileFiled ok).2.2⟩

end Timeline
end Montage
