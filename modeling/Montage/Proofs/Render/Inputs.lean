import Montage.Proofs.Render.Parts

/-! Which file is read where. The inputs of a plan are the sources of what is seen and then of what
is heard, each at its first use; segments and tracks name them by their places in this list, and
the command line lists them in the same order. -/
namespace Montage

/-- The node reads one stream of the file that the clip plays. -/
def Plan.Opens (p : Plan) (stream : String) (c : Clip) (n : Node) : Prop :=
  ∃ (k : Nat) (path : String), p.inputs[k]? = some path ∧ c.source = some path ∧
    n.inputs = [toString k ++ stream]

structure Plan.Aligned (p : Plan) (visual audio : List Clip) (sources : List String) : Prop where
  given : (visual ++ audio).map Clip.source = sources.map some
  inputs : p.inputs = sources.eraseDups
  count : p.inputs.length = sources.toFinset.card
  segments : List.Forall₂ (p.Opens ":v") visual (p.graph.ofKind "normalize")
  tracks : List.Forall₂ (p.Opens ":a") audio (p.graph.ofKind "audio")
  used : ∀ (k : Nat) path, p.inputs[k]? = some path →
    ∃ n ∈ p.graph.nodes, n.inputs = [toString k ++ ":v"] ∨ n.inputs = [toString k ++ ":a"]
  listed : ∀ tool k path, p.inputs[k]? = some path →
    (p.command tool)[2 * k + 2]? = some "-i" ∧ (p.command tool)[2 * k + 3]? = some path
  last : ∀ tool, (p.command tool)[2 * p.inputs.length + 2]? = some "-filter_complex"

section
variable [BEq α] [LawfulBEq α]

theorem eraseDupsFilter (p : α → Bool) (xs : List α) :
    (xs.filter p).eraseDups = xs.eraseDups.filter p := by
  match xs with
  | [] => rfl
  | x :: xs =>
    have rest := eraseDupsFilter p (xs.filter fun y => !y == x)
    rw [List.filter_filter] at rest
    by_cases here : p x = true
    · rw [List.filter_cons_of_pos here,List.eraseDups_cons,List.eraseDups_cons,
        List.filter_cons_of_pos here,← rest,List.filter_filter]
      simp only [Bool.and_comm]
    · rw [List.filter_cons_of_neg here,List.eraseDups_cons,List.filter_cons_of_neg here,← rest]
      congr 1
      refine List.filter_congr fun y _ => ?_
      by_cases same : y = x
      · simp [same,here]
      · simp [same]
termination_by xs.length
decreasing_by exact Nat.lt_succ_of_le (List.length_filter_le _ _)

theorem distinctEq (xs : List α) : distinct xs = xs.eraseDups := by
  induction xs with
  | nil => rfl
  | cons x xs ih =>
    rw [List.eraseDups_cons,eraseDupsFilter,← ih]
    rfl

theorem distinctNodup (xs : List α) : (distinct xs).Nodup := by
  induction xs with
  | nil => exact List.nodup_nil
  | cons x xs ih =>
    refine List.nodup_cons.mpr ⟨fun mem => ?_,ih.filter _⟩
    simpa using (List.mem_filter.mp mem).2

end

theorem flagsAt (flag : α) {xs : List α} (ys : List α) {k : Nat} {x : α}
    (found : xs[k]? = some x) :
    (xs.flatMap (fun x => [flag,x]) ++ ys)[2 * k]? = some flag ∧
      (xs.flatMap (fun x => [flag,x]) ++ ys)[2 * k + 1]? = some x := by
  induction xs generalizing k with
  | nil => cases found
  | cons y xs ih =>
    cases k with
    | zero =>
      cases found
      exact ⟨rfl,rfl⟩
    | succ k => exact ih found

theorem flagsAfter (flag y : α) (xs ys : List α) :
    (xs.flatMap (fun x => [flag,x]) ++ y :: ys)[2 * xs.length]? = some y := by
  induction xs with
  | nil => rfl
  | cons x xs ih => exact ih

theorem Plan.commandEq (p : Plan) (tool : String) : ∃ rest, p.command tool =
    tool :: "-y" :: (p.inputs.flatMap (fun path => ["-i",path]) ++ "-filter_complex" :: rest) := by
  unfold command
  simp only [List.append_assoc,List.cons_append,List.nil_append]
  exact ⟨_,rfl⟩

theorem Played.opened {p : Plan} {kind stem : String} {names : Clip → List String} {k : Nat}
    {cs : List Clip} {ns : List Node} (played : Played p kind stem names k cs ns)
    (given : ∀ c ∈ cs, ∃ s, c.source = some s) : List.Forall₂ (p.Opens (":" ++ stem)) cs ns := by
  induction played with
  | nil k => exact .nil
  | @node k i c cs n ns source named reads filters writes rest ih =>
    obtain ⟨here,later⟩ := List.forall_mem_cons.mp given
    obtain ⟨s,same⟩ := here
    exact .cons ⟨i,s,source.trans same,same,reads⟩ (ih later)

namespace Timeline
variable {tl : Timeline} {o : Options} {length : Float} {inputs : List String}
  {picture : Option Picture} {p : Plan}

theorem assembledKinds (ok : tl.picture o inputs = .ok picture) (length : Float) :
    let p := assembled tl o length inputs picture
    p.graph.ofKind "normalize" = Picture.segments o inputs tl.visual ∧
      p.graph.ofKind "audio" = Sound.tracks length inputs tl.audio := by
  have heard (kind : String) := Sound.ofKinds length inputs tl.audio (· == kind)
  unfold Graph.ofKind assembled
  dsimp only
  rw [List.filter_append,List.filter_append,heard,heard]
  rcases pictureSource ok with ⟨none,rfl⟩ | ⟨q,_,build,rfl⟩
  · rw [none]
    exact ⟨rfl,List.append_nil _⟩
  · obtain ⟨texts,effects,chain,built⟩ := Picture.buildSource build
    have seen (kind : String) := built.ofKinds (· == kind)
    change q.nodes.filter _ ++ _ = _ ∧ q.nodes.filter _ ++ _ = _
    rw [seen,seen]
    exact ⟨by simp,by simp⟩

theorem opensUsed {visual audio : List Clip} {sources : List String}
    (given : (visual ++ audio).map Clip.source = sources.map some) (nodup : p.inputs.Nodup)
    (inside : p.inputs ⊆ sources)
    (segments : List.Forall₂ (p.Opens ":v") visual (p.graph.ofKind "normalize"))
    (tracks : List.Forall₂ (p.Opens ":a") audio (p.graph.ofKind "audio")) {k : Nat} {path : String}
    (listed : p.inputs[k]? = some path) :
    ∃ n ∈ p.graph.nodes, n.inputs = [toString k ++ ":v"] ∨ n.inputs = [toString k ++ ":a"] := by
  have mem : some path ∈ (visual ++ audio).map Clip.source :=
    given ▸ List.mem_map_of_mem (inside (List.mem_of_getElem? listed))
  obtain ⟨c,stored,source⟩ := List.mem_map.mp mem
  -- A file has one place only, which is the one that the clip's node names.
  have number {j : Nat} {path' : String} (there : p.inputs[j]? = some path')
      (same : c.source = some path') : j = k := by
    obtain ⟨first,_⟩ := List.getElem?_eq_some_iff.mp there
    cases Option.some.inj (source.symm.trans same)
    exact (List.getElem?_inj first nodup).mp (there.trans listed.symm)
  rcases List.mem_append.mp stored with seen | heard
  · obtain ⟨n,mem,j,path',there,same,reads⟩ := pairedLeft segments seen
    exact ⟨n,(List.mem_filter.mp mem).1,.inl (number there same ▸ reads)⟩
  · obtain ⟨n,mem,j,path',there,same,reads⟩ := pairedLeft tracks heard
    exact ⟨n,(List.mem_filter.mp mem).1,.inr (number there same ▸ reads)⟩

theorem compileAligned (numbers : ∀ c ∈ tl.clips, c.Timed) (ok : tl.compile o = .ok p) :
    ∃ visual audio sources, p.Aligned visual audio sources ∧
      StableOrder Clip.start (tl.clips.filter fun c => c.kind = "video" ∨ c.kind = "image") visual ∧
      StableOrder Clip.start (tl.clips.filter fun c => c.kind = "audio") audio := by
  have visual := ordered visualKinds (fun c => c.kind = "video" ∨ c.kind = "image")
    numbers fun c => by simp [visualKinds,or_comm]
  have audio := ordered ["audio"] (fun c => c.kind = "audio") numbers fun c => by simp
  obtain ⟨length,sources,picture,_,_,found,drawn,same⟩ := compileSource ok
  have given := sourcesOfEq found
  have inputs : p.inputs = distinct sources := same ▸ rfl
  have nodup : p.inputs.Nodup := inputs ▸ distinctNodup sources
  have listed : ∀ c ∈ tl.visual ++ tl.audio, ∃ s, c.source = some s ∧ s ∈ p.inputs :=
    inputs ▸ sourcesListed found
  have opened : List.Forall₂ (p.Opens ":v") tl.visual (p.graph.ofKind "normalize") ∧
      List.Forall₂ (p.Opens ":a") tl.audio (p.graph.ofKind "audio") := by
    obtain ⟨segments,tracks⟩ := assembledKinds drawn length
    rw [same,segments,tracks,← same,← inputs]
    have seen := fun c mem => listed c (List.mem_append_left _ mem)
    have heard := fun c mem => listed c (List.mem_append_right _ mem)
    exact ⟨(segmentsPlayed (o := o) seen).opened fun c mem => (seen c mem).imp fun _ => And.left,
      (tracksPlayed length heard).opened fun c mem => (heard c mem).imp fun _ => And.left⟩
  refine ⟨tl.visual,tl.audio,sources,?_,visual,audio⟩
  refine ⟨given,inputs.trans (distinctEq sources),?_,opened.1,opened.2,?_,?_,?_⟩
  · rw [← List.toFinset_card_of_nodup nodup]
    exact congrArg _ (Finset.ext fun s => by simp [inputs,memDistinct])
  · intro k path
    refine opensUsed given nodup (fun s mem => ?_) opened.1 opened.2
    exact memDistinct.mp (inputs ▸ mem)
  · intro tool k path there
    obtain ⟨rest,command⟩ := p.commandEq tool
    rw [command]
    exact flagsAt "-i" _ there
  · intro tool
    obtain ⟨rest,command⟩ := p.commandEq tool
    rw [command]
    exact flagsAfter "-i" _ _ _

/-- One of the files is both seen and heard. -/
theorem sceneAligned : (∀ c ∈ (({} : Desk).run scene).timeline.clips, c.Timed) ∧
    ∃ p, (({} : Desk).run scene).timeline.compile {} = .ok p ∧
      ∃ visual audio sources, p.Aligned visual audio sources := by
  have numbers : ∀ c ∈ (({} : Desk).run scene).timeline.clips, c.Timed := by
    unfold Clip.Timed
    decide +kernel
  obtain ⟨p,ok⟩ := scenePlanned
  obtain ⟨visual,audio,sources,aligned,_⟩ := compileAligned numbers ok
  exact ⟨numbers,p,ok,visual,audio,sources,aligned⟩

end Timeline
end Montage
