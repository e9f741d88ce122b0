import Montage.Proofs.Render.Inputs
import Montage.Proofs.Render.Total

/-! What is heard does not reach what is seen. Files of audio clips come after those of visual ones
in the list of inputs, so that the picture is the same whatever there is to hear; what is heard can
only lengthen the output. -/
namespace Montage

/-- The same timeline but for its audio clips, which may also stand elsewhere among the others. -/
structure Timeline.SeenAlike (tl tl' : Timeline) : Prop where
  overlays : tl'.overlays = tl.overlays
  effects : tl'.effects = tl.effects
  clips : tl'.clips.filter (·.kind != "audio") = tl.clips.filter (·.kind != "audio")

def Timeline.silent (tl : Timeline) : Timeline :=
  { tl with clips := tl.clips.filter (·.kind != "audio") }

/-- One picture in two plans. -/
structure Plan.SeenAlike (p q : Plan) : Prop where
  segments : p.graph.ofKind "normalize" = q.graph.ofKind "normalize"
  joins : p.graph.ofKind "concat" = q.graph.ofKind "concat"
  texts : p.graph.ofKind "text" = q.graph.ofKind "text"
  effects : p.graph.ofKind "effect" = q.graph.ofKind "effect"
  sideFiles : p.sideFiles = q.sideFiles
  first : ∃ label, p.maps.head? = some label ∧ q.maps.head? = some label

/-- What a timeline compiles to when its sound is taken away. -/
structure Timeline.Muted (tl : Timeline) (o : Options) (p : Plan) : Prop where
  inputs : ∀ q, tl.silent.compile o = .ok q → q.inputs <+: p.inputs
  compiles : (∃ q, tl.silent.compile o = .ok q) ↔ (o.length = none → tl.silent.endsRound = true)
  later : (∀ c ∈ tl.clips, 0 ≤ c.stop) → ∃ q, tl.silent.compile o = .ok q

theorem distinctPrefix [BEq α] [LawfulBEq α] (xs ys : List α) :
    distinct xs <+: distinct (xs ++ ys) := by
  rw [distinctEq,distinctEq,List.eraseDups_append]
  exact List.prefix_append _ _

theorem segmentsPrefix (o : Options) {inputs inputs' : List String} {visual : List Clip}
    (first : inputs <+: inputs') (listed : ∀ c ∈ visual, c.source.getD "" ∈ inputs) :
    Picture.segments o inputs' visual = Picture.segments o inputs visual := by
  obtain ⟨rest,rfl⟩ := first
  refine List.map_congr_left fun x mem => ?_
  have inside := listed x.1 (List.fst_mem_of_mem_zipIdx mem)
  dsimp only
  rw [List.idxOf_append_of_mem inside]

theorem sourcesOfAppend {cs ds : List Clip} {sources : List String}
    (ok : sourcesOf (cs ++ ds) = .ok sources) :
    ∃ first rest, sourcesOf cs = .ok first ∧ sourcesOf ds = .ok rest ∧ sources = first ++ rest := by
  induction cs generalizing sources with
  | nil => exact ⟨[],sources,rfl,ok,rfl⟩
  | cons c cs ih =>
    rw [List.cons_append,sourcesOf] at ok
    obtain ⟨given,ok⟩ := guardOk ok
    obtain ⟨tail,found,last⟩ := bindOk ok
    cases Except.ok.inj last
    obtain ⟨first,rest,here,later,rfl⟩ := ih found
    refine ⟨c.source.getD "" :: first,rest,?_,later,rfl⟩
    rw [sourcesOf,if_neg given]
    exact bindTotal here rfl

namespace Timeline
variable {tl tl' : Timeline} {o : Options} {p p' : Plan} {q : Picture} {length : Float}
  {inputs : List String}

theorem SeenAlike.filter (same : tl.SeenAlike tl') {wanted : Clip → Bool}
    (seen : ∀ c, wanted c = true → c.kind ≠ "audio") :
    tl'.clips.filter wanted = tl.clips.filter wanted := by
  have inside (cs : List Clip) :
      (cs.filter (·.kind != "audio")).filter wanted = cs.filter wanted := by
    rw [List.filter_filter]
    refine List.filter_congr fun c _ => ?_
    by_cases here : wanted c = true
    · simp [here,seen c here]
    · simp [here]
  rw [← inside,same.clips,inside]

theorem SeenAlike.visual (same : tl.SeenAlike tl') : tl'.visual = tl.visual := by
  refine congrArg (orderedBy Clip.start) (same.filter fun c here heard => ?_)
  rw [heard] at here
  exact absurd here (by decide)

theorem SeenAlike.build (same : tl.SeenAlike tl') (o : Options) (inputs : List String)
    (visual : List Clip) :
    Picture.build tl' o inputs visual = Picture.build tl o inputs visual := by
  refine Picture.buildSame (Picture.placedSame same.overlays fun id => ?_)
    (Picture.linkedSame same.effects fun id => ?_) rfl
  · refine findSame (same.filter fun c shows heard => ?_)
    simp [Clip.shows,heard] at shows
  · refine findSame (same.filter fun c drives heard => ?_)
    simp [Clip.drives,heard] at drives

theorem silentSeen (tl : Timeline) : tl.SeenAlike tl.silent :=
  ⟨rfl,rfl,by unfold silent; simp⟩

theorem silentAudio (tl : Timeline) : tl.silent.audio = [] := by
  have none : tl.silent.clips.filter (fun c => ["audio"].contains c.kind) = [] := by
    unfold silent
    simp
  unfold audio ofKinds
  rw [none]
  exact (orderedByPerm _ _).eq_nil

theorem compileSeen (shown : tl.visual ≠ []) (ok : tl.compile o = .ok p) :
    ∃ sources q length inputs, sourcesOf tl.visual = .ok sources ∧
      Picture.build tl o (distinct sources) tl.visual = .ok q ∧
      distinct sources <+: inputs ∧ p = assembled tl o length inputs (some q) := by
  obtain ⟨length,all,picture,_,_,found,drawn,rfl⟩ := compileSource ok
  obtain ⟨sources,rest,seen,_,rfl⟩ := sourcesOfAppend found
  have first := distinctPrefix sources rest
  rcases pictureSource drawn with ⟨none,_⟩ | ⟨q,_,built,rfl⟩
  · exact absurd none shown
  have listed : ∀ c ∈ tl.visual, c.source.getD "" ∈ distinct sources := by
    intro c mem
    obtain ⟨s,source,inside⟩ := sourcesListed seen c mem
    rwa [source]
  -- Files that are only heard come later, so the numbers of the others are what they would be.
  rw [Picture.buildSame rfl rfl (segmentsPrefix o first listed)] at built
  exact ⟨sources,q,length,_,seen,built,first,rfl⟩

theorem ofKindAlike {length length' : Float} {inputs inputs' : List String} {kind : String}
    (tracks : kind ≠ "audio") (mixes : kind ≠ "mix") :
    (assembled tl o length inputs (some q)).graph.ofKind kind =
      (assembled tl' o length' inputs' (some q)).graph.ofKind kind :=
  (ofKindSeen tracks mixes).trans (ofKindSeen tracks mixes).symm

theorem silentPlayed (tl : Timeline) : tl.silent.visual ++ tl.silent.audio = tl.visual := by
  rw [silentAudio,List.append_nil,(silentSeen tl).visual]

theorem silentCompiles (shown : tl.visual ≠ []) (ok : tl.compile o = .ok p) :
    (∃ q, tl.silent.compile o = .ok q) ↔ (o.length = none → tl.silent.endsRound = true) := by
  obtain ⟨sources,q,_,_,seen,built,_,_⟩ := compileSeen shown ok
  have visual := (silentSeen tl).visual
  rw [← plannedIff]
  constructor
  · rintro ⟨r,ok'⟩
    obtain ⟨length,_,_,_,known,_⟩ := compileSource ok'
    exact ⟨length,known⟩
  · rintro ⟨length,known⟩
    have drawn : tl.silent.picture o (distinct sources) = .ok (some q) := by
      unfold Timeline.picture
      rw [visual,if_neg (by simpa using shown),(silentSeen tl).build,built]
      rfl
    refine ⟨assembled tl.silent o length (distinct sources) (some q),?_⟩
    rw [compileEq,silentPlayed,visual,if_neg (by simp [shown])]
    exact bindTotal known (bindTotal seen (bindTotal drawn rfl))

theorem muted (shown : tl.visual ≠ []) (ok : tl.compile o = .ok p) : tl.Muted o p := by
  have compiles := silentCompiles shown ok
  obtain ⟨length,_,_,_,known,_⟩ := compileSource ok
  obtain ⟨sources,q,_,inputs,seen,_,first,rfl⟩ := compileSeen shown ok
  refine ⟨fun r ok' => ?_,compiles,fun later => compiles.mpr fun unset => ?_⟩
  · obtain ⟨_,sources',_,_,_,found,_,rfl⟩ := compileSource ok'
    rw [silentPlayed,seen] at found
    cases Except.ok.inj found
    exact first
  · exact endsRoundFewer List.filter_sublist.subset later (plannedIff.mp ⟨length,known⟩ unset)

theorem compileUnheard (same : tl.SeenAlike tl') (shown : ∃ c ∈ tl.clips, c.kind ∈ visualKinds)
    (ok : tl.compile o = .ok p) (ok' : tl'.compile o = .ok p') :
    p.SeenAlike p' ∧ tl.Muted o p ∧ tl'.Muted o p' := by
  have some : tl.visual ≠ [] := (ofKindsSome tl visualKinds).mpr shown
  have some' : tl'.visual ≠ [] := by rwa [same.visual]
  refine ⟨?_,muted some ok,muted some' ok'⟩
  obtain ⟨sources,q,length,inputs,seen,built,_,rfl⟩ := compileSeen some ok
  obtain ⟨sources',q',length',inputs',seen',built',_,rfl⟩ := compileSeen some' ok'
  rw [same.visual,seen] at seen'
  cases Except.ok.inj seen'
  rw [same.visual,same.build,built] at built'
  cases Except.ok.inj built'
  exact ⟨ofKindAlike (by decide) (by decide),ofKindAlike (by decide) (by decide),
    ofKindAlike (by decide) (by decide),ofKindAlike (by decide) (by decide),rfl,q.output,rfl,rfl⟩

def concert (heard : List Clip) : Timeline where
  clips := ⟨"a","video","video",0,5,some "a.mp4",none,none⟩ :: heard

def applause : Clip := ⟨"b","audio","audio",0,5,some "a.mp4",none,none⟩

def encore : Clip := ⟨"c","audio","audio",3,9,some "c.mp3",none,none⟩

/-- The applause comes from the file that is seen; the encore goes on after the picture. -/
theorem concertUnheard : (concert [applause]).SeenAlike (concert [encore]) ∧
    (∃ c ∈ (concert [applause]).clips, c.kind ∈ visualKinds) ∧
    ∃ p p', (concert [applause]).compile {} = .ok p ∧
      (concert [encore]).compile {} = .ok p' ∧ p.SeenAlike p' ∧
      (concert [applause]).Muted {} p ∧ (concert [encore]).Muted {} p' := by
  have same : (concert [applause]).SeenAlike (concert [encore]) := ⟨rfl,rfl,by decide⟩
  have shown : ∃ c ∈ (concert [applause]).clips, c.kind ∈ visualKinds := by decide
  obtain ⟨p,ok,_⟩ := answered (x := (concert [applause]).compile {}) (·.inputs == ["a.mp4"])
    (by decide +kernel)
  obtain ⟨p',ok',_⟩ := answered (x := (concert [encore]).compile {})
    (·.inputs == ["a.mp4","c.mp3"]) (by decide +kernel)
  exact ⟨same,shown,p,p',ok,ok',compileUnheard same shown ok ok'⟩

end Timeline
end Montage
