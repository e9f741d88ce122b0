import Montage.Proofs.Render.Assembly
import Montage.Proofs.Timeline.Ordered
import Montage.Proofs.Timeline.Sound

/-! Compilation without the rules of graphs. The graph of a plan is accepted as it stands and its
unread outputs are the mapped ones; so the only faults of a compilation are those of its inputs. -/
namespace Montage

def seenNodes : Option Picture → List Node
  | some p => p.nodes
  | none => []

def seenMaps : Option Picture → List String
  | some p => [p.output]
  | none => []

def assembled (tl : Timeline) (o : Options) (length : Float) (inputs : List String)
    (picture : Option Picture) : Plan where
  inputs := inputs
  graph := ⟨seenNodes picture ++ Sound.nodes length inputs tl.audio⟩
  maps := seenMaps picture ++ Sound.output tl.audio
  length := length
  shortest := !tl.audio.isEmpty
  encode := encodeFlags o.codec
  output := o.output
  sideFiles := match picture with
    | some p => p.sideFiles
    | none => []

def plannedLength (tl : Timeline) (o : Options) : Except Fault Float :=
  match o.length with
  | some x => pure x
  | none => tl.length

structure Plan.Wired (p : Plan) : Prop where
  distinct : p.graph.produced.Nodup
  plain : ∀ l ∈ p.graph.produced, isStream l = false
  earlier : ∀ before n after, p.graph.nodes = before ++ n :: after → ∀ l ∈ n.inputs,
    (∃ k, k < p.inputs.length ∧ (l = s!"{k}:v" ∨ l = s!"{k}:a")) ∨
      l ∈ before.flatMap Node.outputs
  once : ∀ l ∈ p.graph.produced, (p.graph.nodes.flatMap Node.inputs ++ p.maps).count l = 1
  unread : p.graph.unconsumed = p.maps

namespace Timeline
variable {tl : Timeline} {o : Options} {length : Float} {inputs : List String}
  {picture : Option Picture} {p : Plan}

theorem pictureSource (ok : tl.picture o inputs = .ok picture) :
    (tl.visual = [] ∧ picture = none) ∨
      ∃ p, tl.visual ≠ [] ∧ Picture.build tl o inputs tl.visual = .ok p ∧ picture = some p := by
  unfold Timeline.picture at ok
  split at ok
  · rename_i none
    exact .inl ⟨by simpa using none,(Except.ok.inj ok).symm⟩
  · rename_i some
    obtain ⟨p,built,same⟩ := mapOk ok
    exact .inr ⟨p,by simpa using some,built,same.symm⟩

theorem pictureFlow (ok : tl.picture o inputs = .ok picture) :
    Flow [] (seenNodes picture) (seenMaps picture) ∧
      ∃ seen, List.Forall₂ Family Picture.stems seen ∧
        (seenNodes picture).flatMap Node.outputs = seen.flatten := by
  rcases pictureSource ok with ⟨_,rfl⟩ | ⟨p,some,built,rfl⟩
  · refine ⟨.nil _,[[],[],[],[]],?_,rfl⟩
    exact .cons (familyEmpty _) (.cons (familyEmpty _) (.cons (familyEmpty _)
      (.cons (familyEmpty _) .nil)))
  · obtain ⟨texts,effects,chain,source⟩ := Picture.buildSource built
    exact ⟨Picture.buildFlow some built,_,Picture.labelFamilies _ _ _,source.outputs⟩

theorem assembledLabels (length : Float) (ok : tl.picture o inputs = .ok picture) :
    (assembled tl o length inputs picture).graph.produced.Nodup ∧
      ∀ l ∈ (assembled tl o length inputs picture).graph.produced, isStream l = false := by
  obtain ⟨_,seen,families,outputs⟩ := pictureFlow ok
  have all := familiesDistinct (allFamilies tl.audio families) (by decide)
  have produced : (assembled tl o length inputs picture).graph.produced =
      (allLabels seen tl.audio).flatten := by
    unfold Graph.produced assembled allLabels Sound.nodes
    simp only [List.flatMap_append,outputs,Sound.tracksOutputs,Sound.mixedOutputsEq,
      List.flatten_append,List.flatten_cons,List.flatten_nil,List.append_nil]
  rw [produced]
  exact ⟨all.1,fun l mem => Picture.plainOf labelStems (by decide) (all.2 l mem)⟩

theorem assembledFlow (length : Float) (ok : tl.picture o inputs = .ok picture) :
    Flow [] (assembled tl o length inputs picture).graph.nodes
      (assembled tl o length inputs picture).maps := by
  obtain ⟨flow,seen,families,outputs⟩ := pictureFlow ok
  refine flow.append (Sound.nodesFlow fun l mem => ?_)
  have named := familiesDistinct families (by decide)
  rw [← outputs] at named
  have kept := (flow.conserved (by simpa using named.1)).symm.subset
    (List.mem_append_right _ mem)
  intro same
  have known := named.2 l (by simpa using kept)
  rw [same] at known
  exact absurd known (by decide)

theorem assembledAccepted (length : Float) (ok : tl.picture o inputs = .ok picture) :
    let p := assembled tl o length inputs picture
    ({} : Graph).addAll p.graph.nodes = .ok p.graph ∧ p.graph.unconsumed = p.maps := by
  obtain ⟨distinct,plain⟩ := assembledLabels length ok
  exact (assembledFlow length ok).accepted (g := {}) rfl (List.nil_subset _)
    (by simpa [Graph.produced] using distinct) plain

theorem checkMappedOk {g : Graph} {maps : List String} (same : g.unconsumed = maps) :
    checkMapped g maps = .ok () := by
  have none : g.unconsumed.filter (!maps.contains ·) = [] := by
    rw [same,List.filter_eq_nil_iff]
    intro l mem
    simpa using mem
  unfold checkMapped
  rw [none]
  rfl

/-- A compilation looks at what it is given, and then writes the plan down. -/
theorem compileEq (tl : Timeline) (o : Options) : tl.compile o =
    if tl.visual.isEmpty && tl.audio.isEmpty then .error (.rejected .nothingToCompile)
    else plannedLength tl o >>= fun length =>
      sourcesOf (tl.visual ++ tl.audio) >>= fun sources =>
        tl.picture o (distinct sources) >>= fun picture =>
          pure (assembled tl o length (distinct sources) picture) := by
  unfold compile
  dsimp only
  split
  · rfl
  have graph (length : Float) (inputs : List String) (picture : Option Picture)
      (ok : tl.picture o inputs = .ok picture) :
      (({} : Graph).addAll (seenNodes picture ++ Sound.nodes length inputs tl.audio) >>= fun g =>
        checkMapped g (seenMaps picture ++ Sound.output tl.audio) >>= fun _ =>
          pure { assembled tl o length inputs picture with graph := g }) =
        .ok (assembled tl o length inputs picture) := by
    obtain ⟨added,unread⟩ := assembledAccepted length ok
    change (({} : Graph).addAll (assembled tl o length inputs picture).graph.nodes >>= _) = _
    rw [added]
    change (checkMapped _ (assembled tl o length inputs picture).maps >>= _) = _
    rw [checkMappedOk unread]
    rfl
  have rest (length : Float) : (sourcesOf (tl.visual ++ tl.audio) >>= fun sources =>
      tl.picture o (distinct sources) >>= fun picture =>
        (({} : Graph).addAll (seenNodes picture ++
          Sound.nodes length (distinct sources) tl.audio) >>= fun g =>
          checkMapped g (seenMaps picture ++ Sound.output tl.audio) >>= fun _ =>
            pure { assembled tl o length (distinct sources) picture with graph := g })) =
      (sourcesOf (tl.visual ++ tl.audio) >>= fun sources =>
        tl.picture o (distinct sources) >>= fun picture =>
          pure (assembled tl o length (distinct sources) picture)) := by
    cases sourcesOf (tl.visual ++ tl.audio) with
    | error f => rfl
    | ok sources =>
      change (tl.picture o (distinct sources) >>= _) = (tl.picture o (distinct sources) >>= _)
      cases ok : tl.picture o (distinct sources) with
      | error f => rfl
      | ok picture => exact graph length (distinct sources) picture ok
  unfold plannedLength
  cases o.length with
  | some x => exact rest x
  | none =>
    cases tl.length with
    | error f => rfl
    | ok x => exact rest x

theorem compileSource (ok : tl.compile o = .ok p) :
    ∃ length sources picture, ¬ (tl.visual = [] ∧ tl.audio = []) ∧
      plannedLength tl o = .ok length ∧
      sourcesOf (tl.visual ++ tl.audio) = .ok sources ∧
      tl.picture o (distinct sources) = .ok picture ∧
      p = assembled tl o length (distinct sources) picture := by
  rw [compileEq] at ok
  obtain ⟨some,ok⟩ := checkedOk ok
  obtain ⟨length,known,ok⟩ := bindOk ok
  obtain ⟨sources,found,ok⟩ := bindOk ok
  obtain ⟨picture,built,last⟩ := bindOk ok
  exact ⟨length,sources,picture,by simpa using some,known,found,built,
    (Except.ok.inj last).symm⟩

end Timeline

theorem memDistinct [BEq α] [LawfulBEq α] {x : α} {xs : List α} :
    x ∈ distinct xs ↔ x ∈ xs := by
  induction xs with
  | nil => rfl
  | cons y ys ih =>
    unfold distinct
    simp only [List.mem_cons,List.mem_filter,ih,bne_iff_ne]
    constructor
    · rintro (same | ⟨rest,_⟩)
      · exact .inl same
      · exact .inr rest
    · rintro (same | rest)
      · exact .inl same
      · by_cases same : x = y
        · exact .inl same
        · exact .inr ⟨rest,same⟩

theorem sourcesOfEq {cs : List Clip} {sources : List String} (ok : sourcesOf cs = .ok sources) :
    cs.map Clip.source = sources.map some := by
  induction cs generalizing sources with
  | nil =>
    cases Except.ok.inj ok
    rfl
  | cons c cs ih =>
    unfold sourcesOf at ok
    obtain ⟨given,ok⟩ := guardOk ok
    obtain ⟨rest,found,last⟩ := bindOk ok
    cases Except.ok.inj last
    obtain ⟨s,source,_⟩ := refGiven given
    simp [source,ih found]

theorem sourcesOfOk {cs : List Clip} {sources : List String} (ok : sourcesOf cs = .ok sources) :
    ∀ c ∈ cs, ∃ s, c.source = some s ∧ s ∈ sources := by
  intro c mem
  have named : c.source ∈ sources.map some := sourcesOfEq ok ▸ List.mem_map_of_mem mem
  obtain ⟨s,inside,same⟩ := List.mem_map.mp named
  exact ⟨s,same.symm,inside⟩

theorem sourcesListed {cs : List Clip} {sources : List String} (ok : sourcesOf cs = .ok sources) :
    ∀ c ∈ cs, ∃ s, c.source = some s ∧ s ∈ distinct sources := by
  intro c mem
  obtain ⟨s,source,inside⟩ := sourcesOfOk ok c mem
  exact ⟨s,source,memDistinct.mpr inside⟩

theorem sourceNumber {inputs : List String} {s : String} (mem : s ∈ inputs) :
    inputs.idxOf s < inputs.length ∧ inputs[inputs.idxOf s]? = some s := by
  have inside := List.idxOf_lt_length_iff.mpr mem
  exact ⟨inside,by rw [List.getElem?_eq_getElem inside,List.getElem_idxOf]⟩

theorem sourcesOfTotal {cs : List Clip} (given : ∀ c ∈ cs, ∃ s, c.source = some s ∧ s ≠ "") :
    ∃ sources, sourcesOf cs = .ok sources := by
  induction cs with
  | nil => exact ⟨[],rfl⟩
  | cons c cs ih =>
    obtain ⟨s,source,some⟩ := given c List.mem_cons_self
    obtain ⟨rest,found⟩ := ih fun d mem => given d (List.mem_cons_of_mem _ mem)
    have present : ¬ noRef c.source = true := by simpa [noRef,source] using some
    refine ⟨c.source.getD "" :: rest,?_⟩
    unfold sourcesOf
    rw [if_neg present]
    simp only [found]
    rfl

theorem ofKindsMem {tl : Timeline} {kinds : List String} {c : Clip} :
    c ∈ tl.ofKinds kinds ↔ c ∈ tl.clips ∧ c.kind ∈ kinds := by
  unfold Timeline.ofKinds
  rw [(orderedByPerm _ _).mem_iff,List.mem_filter]
  simp

theorem Timeline.Kept.sources {tl : Timeline} {timed : Prop} (kept : tl.Kept timed) :
    ∀ c ∈ tl.visual ++ tl.audio, ∃ s, c.source = some s ∧ s ≠ "" := by
  intro c mem
  have stored : c ∈ tl.clips ∧ c.kind ∈ sourceKinds := by
    rcases List.mem_append.mp mem with seen | heard
    · obtain ⟨stored,kind⟩ := ofKindsMem.mp seen
      exact ⟨stored,by revert kind; simp only [visualKinds,sourceKinds,List.mem_cons]; tauto⟩
    · obtain ⟨stored,kind⟩ := ofKindsMem.mp heard
      exact ⟨stored,by revert kind; simp only [sourceKinds,List.mem_cons]; tauto⟩
  exact (Clip.checkSource (kept.clips c stored.1)).2.2.2.2.1 stored.2

end Montage
