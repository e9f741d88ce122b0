import Montage.Proofs.Graph.Filter
import Montage.Proofs.Render.Wiring
import Montage.Proofs.Timeline.Queries

/-! What a plan consists of. Segments stand in the order of their clips, texts in the order of the
overlays that some clip places, and what is not needed is not there. The order of clips needs
times that are numbers; nothing is claimed about which file a renderer opens. -/
namespace Montage

/-- Nodes that each play the file of a clip, numbered from `k` on. -/
inductive Played (p : Plan) (kind stem : String) (names : Clip → List String) :
    Nat → List Clip → List Node → Prop where
  | nil (k : Nat) : Played p kind stem names k [] []
  | node {k i : Nat} {c : Clip} {cs : List Clip} {n : Node} {ns : List Node}
      (source : p.inputs[i]? = c.source) (named : n.kind = kind)
      (reads : n.inputs = [toString i ++ (":" ++ stem)]) (filters : n.filterNames = names c)
      (writes : n.outputs = [stem ++ toString k]) (rest : Played p kind stem names (k + 1) cs ns) :
      Played p kind stem names k (c :: cs) (n :: ns)

/-- Nodes and files for the overlays that some clip places, each gated to the window of the first
such clip. `k` is the number of the first overlay. -/
inductive Drawn (tl : Timeline) (o : Options) :
    Nat → List Overlay → List Node → List SideFile → Prop where
  | nil (k : Nat) : Drawn tl o k [] [] []
  | unplaced {k : Nat} {t : Overlay} {ts : List Overlay} {ns : List Node} {files : List SideFile}
      (none : ∀ c ∈ tl.clips, c.shows t.id = false) (rest : Drawn tl o (k + 1) ts ns files) :
      Drawn tl o k (t :: ts) ns files
  | placed {k : Nat} {t : Overlay} {ts : List Overlay} {n : Node} {ns : List Node}
      {files : List SideFile} {before after : List Clip} {c : Clip} {f : Filter}
      (first : tl.clips = before ++ c :: after) (shows : c.shows t.id = true)
      (earlier : ∀ d ∈ before, d.shows t.id = false) (named : n.kind = "text")
      (drawn : Picture.drawText t c (Picture.sidePath o k) o.font = .ok f) (one : n.filters = [f])
      (gated : f.value? "enable" = some (inQuotes (gate "t" c.start c.stop)))
      (rest : Drawn tl o (k + 1) ts ns files) :
      Drawn tl o k (t :: ts) (n :: ns) (⟨Picture.sidePath o k,t.content⟩ :: files)

structure Outline where
  visual : List Clip
  audio : List Clip
  segments : List Node
  joins : List Node
  texts : List Node
  effects : List Node
  tracks : List Node
  mixes : List Node

def Outline.nodes (x : Outline) : List Node :=
  x.segments ++ x.joins ++ x.texts ++ x.effects ++ x.tracks ++ x.mixes

def Outline.kinds (x : Outline) : List String :=
  List.replicate x.visual.length "normalize" ++
  (if 1 < x.visual.length then ["concat"] else []) ++
  List.replicate x.texts.length "text" ++ List.replicate x.effects.length "effect" ++
  List.replicate x.audio.length "audio" ++ (if 1 < x.audio.length then ["mix"] else [])

/-- What the segment of a clip does with its file. The one frame of an image loops, and is cut
after that. -/
def segmentNames (c : Clip) : List String :=
  ["scale","pad","setsar"] ++ (if c.kind = "image" then ["loop"] else []) ++ ["fps","trim","setpts"]

structure Outline.Of (tl : Timeline) (o : Options) (p : Plan) (x : Outline) : Prop where
  visual : StableOrder Clip.start (tl.clips.filter fun c => c.kind = "video" ∨ c.kind = "image")
    x.visual
  audio : StableOrder Clip.start (tl.clips.filter fun c => c.kind = "audio") x.audio
  nodes : p.graph.nodes = x.nodes
  kinds : p.graph.nodes.map Node.kind = x.kinds
  segments : Played p "normalize" "v" segmentNames 0 x.visual x.segments
  joins : x.joins = if 1 < x.visual.length then [⟨"concat",numbered "v" x.visual.length,
    [⟨"concat",["n=" ++ toString x.visual.length,"v=1","a=0"]⟩],["outv"]⟩] else []
  texts : x.visual ≠ [] → Drawn tl o 0 tl.overlays x.texts p.sideFiles
  chain : x.visual ≠ [] → ∃ last, p.maps.head? = some last ∧
    Chained (if 1 < x.visual.length then "outv" else "v0") (x.texts ++ x.effects) last
  effects : x.visual ≠ [] → ∃ es, selectEffects (Picture.linkedEffects tl) o.policy = .ok es ∧
    List.Forall₂ (fun e n => effectFilters e o.policy o.width o.height o.rate = .ok n.filters)
      es x.effects
  unseen : x.visual = [] → x.texts = [] ∧ x.effects = [] ∧ p.sideFiles = []
  tracks : Played p "audio" "a" (fun _ => ["asetpts","atrim"]) 0 x.audio x.tracks
  mixes : x.mixes = if 1 < x.audio.length then [⟨"mix",numbered "a" x.audio.length,
    [⟨"amix",["inputs=" ++ toString x.audio.length,"duration=longest","dropout_transition=0"]⟩],
    ["outa"]⟩] else []
  shortest : p.shortest = true ↔ x.audio ≠ []

theorem playedFrom {p : Plan} {kind stem : String} {names : Clip → List String}
    (make : Nat → Nat → Clip → Node) {cs : List Clip} {k : Nat}
    (shape : ∀ i k c, (make i k c).kind = kind ∧
      (make i k c).inputs = [toString i ++ (":" ++ stem)] ∧
      (make i k c).filterNames = names c ∧ (make i k c).outputs = [stem ++ toString k])
    (listed : ∀ c ∈ cs, ∃ s, c.source = some s ∧ s ∈ p.inputs) :
    Played p kind stem names k cs
      ((cs.zipIdx k).map fun x => make (p.inputs.idxOf (x.1.source.getD "")) x.2 x.1) := by
  induction cs generalizing k with
  | nil => exact .nil k
  | cons c cs ih =>
    obtain ⟨s,source,mem⟩ := listed c List.mem_cons_self
    obtain ⟨named,reads,filters,writes⟩ := shape (p.inputs.idxOf (c.source.getD "")) k c
    refine .node ?_ named reads filters writes (ih fun d mem => listed d (List.mem_cons_of_mem _ mem))
    simp only [source,Option.getD_some]
    exact (sourceNumber mem).2

theorem segmentsPlayed {p : Plan} {o : Options} {visual : List Clip}
    (listed : ∀ c ∈ visual, ∃ s, c.source = some s ∧ s ∈ p.inputs) :
    Played p "normalize" "v" segmentNames 0 visual (Picture.segments o p.inputs visual) := by
  refine playedFrom (Picture.segment o) ?_ listed
  intro i k c
  refine ⟨rfl,rfl,?_,rfl⟩
  unfold segmentNames Node.filterNames Picture.segment Picture.segmentFilters
  split <;> rfl

theorem tracksPlayed {p : Plan} (length : Float) {audio : List Clip}
    (listed : ∀ c ∈ audio, ∃ s, c.source = some s ∧ s ∈ p.inputs) :
    Played p "audio" "a" (fun _ => ["asetpts","atrim"]) 0 audio
      (Sound.tracks length p.inputs audio) :=
  playedFrom (Sound.track length) (fun _ _ _ => ⟨rfl,rfl,rfl,rfl⟩) listed

namespace Picture
variable {tl : Timeline} {o : Options}

def textKeys : List String :=
  ["textfile","fontfile","fontsize","fontcolor","x","y","box","boxcolor","boxborderw","borderw",
    "bordercolor","alpha"]

theorem drawTextSource {t : Overlay} {c : Clip} {path : String} {font : Option String} {f : Filter}
    (ok : drawText t c path font = .ok f) :
    ∃ options : List (String × String), (∀ x ∈ options, x.1 ∈ textKeys) ∧
      options.head? = some ("textfile",escapeValue path) ∧
      f = .make "drawtext" [] (options ++ [("enable",inQuotes (gate "t" c.start c.stop))]) := by
  obtain ⟨color,_,ok⟩ := bindOk ok
  obtain ⟨_,_,last⟩ := bindOk ok
  cases Except.ok.inj last
  refine ⟨_,?_,rfl,rfl⟩
  refine List.forall_mem_append.mpr ⟨List.forall_mem_append.mpr ⟨List.forall_mem_append.mpr
    ⟨List.forall_mem_cons.mpr ⟨by simp [textKeys],?_⟩,by simp [textKeys]⟩,?_⟩,?_⟩
  · split
    · split <;> simp [textKeys]
    · simp
  · split <;> simp [textKeys]
  · split <;> simp [textKeys]

theorem drawTextNames {options : List (String × String)} (keys : ∀ x ∈ options, x.1 ∈ textKeys)
    (gated : String) : ∀ x ∈ options ++ [("enable",gated)], '=' ∉ x.1.toList := by
  intro x mem
  have plain : ∀ key ∈ "enable" :: textKeys, '=' ∉ key.toList := by decide
  refine plain x.1 ?_
  rcases List.mem_append.mp mem with option | gate
  · exact List.mem_cons_of_mem _ (keys x option)
  · rw [List.mem_singleton.mp gate]
    exact List.mem_cons_self

theorem drawTextGated {t : Overlay} {c : Clip} {path : String} {font : Option String} {f : Filter}
    (ok : drawText t c path font = .ok f) :
    f.value? "enable" = some (inQuotes (gate "t" c.start c.stop)) := by
  obtain ⟨options,keys,_,rfl⟩ := drawTextSource ok
  have before : options.find? (·.1 == "enable") = none := by
    refine List.find?_eq_none.mpr fun x mem same => ?_
    have key := keys x mem
    rw [beq_iff_eq.mp same] at key
    exact absurd key (by decide)
  rw [Filter.valueMake (by decide) (drawTextNames keys _),List.find?_append,before]
  rfl

theorem drawTextReads {t : Overlay} {c : Clip} {path : String} {font : Option String} {f : Filter}
    (ok : drawText t c path font = .ok f) : f.value? "textfile" = some (escapeValue path) := by
  obtain ⟨options,keys,head,rfl⟩ := drawTextSource ok
  obtain ⟨rest,rfl⟩ := List.head?_eq_some_iff.mp head
  rw [Filter.valueMake (by decide) (drawTextNames keys _)]
  rfl

def placing (tl : Timeline) (t : Overlay) (i : Nat) : Option (Nat × Overlay × Clip) :=
  match tl.clipForOverlay t.id with
  | some c => if c.span ≤ 0 then none else some (i,t,c)
  | none => none

def placedFrom (tl : Timeline) (ts : List Overlay) (k : Nat) : List (Nat × Overlay × Clip) :=
  (ts.zipIdx k).filterMap fun x => placing tl x.1 x.2

theorem drawnFrom {base : String} (spans : ∀ c ∈ tl.clips, ¬ c.span ≤ 0) {ts : List Overlay}
    {k j : Nat} {ns : List Node}
    (drawn : List.Forall₂ (fun x n => textNode o base x.2 x.1.1 x.1.2.1 x.1.2.2 = .ok n)
      ((placedFrom tl ts k).zipIdx j) ns) :
    Drawn tl o k ts ns
      ((placedFrom tl ts k).map fun x => ⟨sidePath o x.1,x.2.1.content⟩) := by
  -- `k` counts overlays and `j` counts nodes; only the former goes on at an overlay left out.
  induction ts generalizing k j ns with
  | nil =>
    cases drawn
    exact .nil k
  | cons t ts ih =>
    cases found : tl.clipForOverlay t.id with
    | none =>
      have step : placedFrom tl (t :: ts) k = placedFrom tl ts (k + 1) := by
        simp [placedFrom,placing,found]
      rw [step] at drawn ⊢
      refine .unplaced (fun c mem => ?_) (ih drawn)
      simpa using List.find?_eq_none.mp found c mem
    | some c =>
      have step : placedFrom tl (t :: ts) k = (k,t,c) :: placedFrom tl ts (k + 1) := by
        simp [placedFrom,placing,found,spans c (List.mem_of_find?_eq_some found)]
      rw [step] at drawn ⊢
      obtain ⟨shows,before,after,first,earlier⟩ := List.find?_eq_some_iff_append.mp found
      cases drawn with
      | cons here rest =>
        obtain ⟨f,made,rfl⟩ := textNodeSource here
        exact .placed first shows (fun d mem => by simpa using earlier d mem) rfl made rfl
          (drawTextGated made) (ih rest)

end Picture

theorem Played.kinds {p : Plan} {kind stem : String} {names : Clip → List String} {k : Nat}
    {cs : List Clip} {ns : List Node} (played : Played p kind stem names k cs ns) :
    ns.map Node.kind = List.replicate cs.length kind := by
  induction played with
  | nil k => rfl
  | node source named reads filters writes rest ih =>
    simp [named,ih,List.replicate_succ]

theorem Drawn.kinds {tl : Timeline} {o : Options} {k : Nat} {ts : List Overlay} {ns : List Node}
    {files : List SideFile} (drawn : Drawn tl o k ts ns files) : ∀ n ∈ ns, n.kind = "text" := by
  induction drawn with
  | nil k => simp
  | unplaced none rest ih => exact ih
  | placed first shows earlier named drawn one gated rest ih =>
    exact List.forall_mem_cons.mpr ⟨named,ih⟩

theorem sameKinds {kind : String} {ns : List Node} (each : ∀ n ∈ ns, n.kind = kind) :
    ns.map Node.kind = List.replicate ns.length kind := by
  refine List.eq_replicate_iff.mpr ⟨List.length_map .., ?_⟩
  intro k mem
  obtain ⟨n,inside,same⟩ := List.mem_map.mp mem
  rw [← same,each n inside]

theorem joinedEq (visual : List Clip) : Picture.joined visual = if 1 < visual.length then
    [⟨"concat",numbered "v" visual.length,
      [⟨"concat",["n=" ++ toString visual.length,"v=1","a=0"]⟩],["outv"]⟩] else [] := rfl

theorem mixedEq (audio : List Clip) : Sound.mixed audio = if 1 < audio.length then
    [⟨"mix",numbered "a" audio.length,
      [⟨"amix",["inputs=" ++ toString audio.length,"duration=longest","dropout_transition=0"]⟩],
      ["outa"]⟩] else [] := rfl

theorem Outline.nodesKinds {x : Outline}
    (segments : x.segments.map Node.kind = List.replicate x.visual.length "normalize")
    (joins : x.joins = Picture.joined x.visual) (texts : ∀ n ∈ x.texts, n.kind = "text")
    (effects : ∀ n ∈ x.effects, n.kind = "effect")
    (tracks : x.tracks.map Node.kind = List.replicate x.audio.length "audio")
    (mixes : x.mixes = Sound.mixed x.audio) : x.nodes.map Node.kind = x.kinds := by
  have joined : x.joins.map Node.kind = if 1 < x.visual.length then ["concat"] else [] := by
    rw [joins,joinedEq]
    split <;> rfl
  have mixed : x.mixes.map Node.kind = if 1 < x.audio.length then ["mix"] else [] := by
    rw [mixes,mixedEq]
    split <;> rfl
  unfold nodes kinds
  simp only [List.map_append,segments,joined,sameKinds texts,sameKinds effects,tracks,mixed]

theorem pairedItems {R : α × Nat → β → Prop} {S : α → β → Prop} {xs : List α} {ys : List β}
    {k : Nat} (pairs : List.Forall₂ R (xs.zipIdx k) ys)
    (each : ∀ x i y, R (x,i) y → S x y) : List.Forall₂ S xs ys := by
  induction xs generalizing k ys with
  | nil =>
    cases pairs
    exact .nil
  | cons x xs ih =>
    cases pairs with
    | cons here rest => exact .cons (each x k _ here) (ih rest)

namespace Timeline
variable {tl : Timeline} {o : Options} {p : Plan}

structure Strung (tl : Timeline) (o : Options) (q : Picture) (texts effects : List Node) :
    Prop where
  drawn : Drawn tl o 0 tl.overlays texts q.sideFiles
  chain : Chained (Picture.joinedLabel tl.visual) (texts ++ effects) q.output
  selected : ∃ es, selectEffects (Picture.linkedEffects tl) o.policy = .ok es ∧
    List.Forall₂ (fun e n => n.kind = "effect" ∧
      effectFilters e o.policy o.width o.height o.rate = .ok n.filters) es effects

theorem strungOf {inputs : List String} {q : Picture} (spans : ∀ c ∈ tl.clips, ¬ c.span ≤ 0)
    (ok : Picture.build tl o inputs tl.visual = .ok q) : ∃ texts effects,
      q.nodes = Picture.segments o inputs tl.visual ++ Picture.joined tl.visual ++ texts ++ effects ∧
      Strung tl o q texts effects := by
  obtain ⟨texts,effects,chain,built⟩ := Picture.buildSource ok
  refine ⟨texts,chain,built.nodes,?_,built.chained,effects,built.selected,?_⟩
  · rw [built.sideFiles]
    exact Picture.drawnFrom spans built.drawn
  · refine pairedItems built.made fun e k n made => ?_
    obtain ⟨filters,ok,rfl⟩ := Picture.effectNodeSource made
    exact ⟨rfl,ok⟩

theorem ordered (kinds : List String) (kind : Clip → Prop) [DecidablePred kind]
    (numbers : ∀ c ∈ tl.clips, c.Timed) (same : ∀ c, c.kind ∈ kinds ↔ kind c) :
    StableOrder Clip.start (tl.clips.filter kind) (tl.ofKinds kinds) := by
  have equal : (tl.clips.filter fun c => c.kind ∈ kinds) = tl.clips.filter kind :=
    List.filter_congr fun c _ => decide_eq_decide.mpr (same c)
  exact equal ▸ ofKindsStable (fun c mem => (numbers c mem).1) kinds

theorem compileOutlined {timed : Prop} (kept : tl.Kept timed) (numbers : ∀ c ∈ tl.clips, c.Timed)
    (ok : tl.compile o = .ok p) : ∃ x : Outline, x.Of tl o p := by
  have spans : ∀ c ∈ tl.clips, ¬ c.span ≤ 0 := fun c mem =>
    Clip.spanOpen (Clip.checkOpen (kept.clips c mem))
  have visual := ordered visualKinds (fun c => c.kind = "video" ∨ c.kind = "image")
    numbers fun c => by simp [visualKinds,or_comm]
  have audio := ordered ["audio"] (fun c => c.kind = "audio") numbers
    fun c => by simp
  obtain ⟨length,sources,picture,_,_,found,drawn,rfl⟩ := compileSource ok
  have listed := sourcesListed found
  have segments := segmentsPlayed (p := assembled tl o length (distinct sources) picture) (o := o)
    fun c mem => listed c (List.mem_append_left _ mem)
  have tracks := tracksPlayed (p := assembled tl o length (distinct sources) picture)
    length fun c mem => listed c (List.mem_append_right _ mem)
  rcases pictureSource drawn with ⟨none,rfl⟩ | ⟨q,some,built,rfl⟩
  -- Without a visual clip no overlay is looked at, whatever places it.
  · let x : Outline := ⟨[],tl.audio,[],[],[],[],Sound.tracks length (distinct sources) tl.audio,
      Sound.mixed tl.audio⟩
    have kinds := x.nodesKinds rfl rfl (by simp [x]) (by simp [x]) tracks.kinds rfl
    change StableOrder Clip.start _ tl.visual at visual
    rw [none] at visual
    exact ⟨x,visual,audio,rfl,kinds,.nil 0,rfl,fun some => absurd rfl some,
      fun some => absurd rfl some,fun some => absurd rfl some,fun _ => ⟨rfl,rfl,rfl⟩,tracks,
      mixedEq _,by simp [assembled,x]⟩
  · obtain ⟨texts,effects,nodes,strung⟩ := strungOf spans built
    let x : Outline := ⟨tl.visual,tl.audio,Picture.segments o (distinct sources) tl.visual,
      Picture.joined tl.visual,texts,effects,Sound.tracks length (distinct sources) tl.audio,
      Sound.mixed tl.audio⟩
    have same : q.nodes ++ Sound.nodes length (distinct sources) tl.audio = x.nodes := by
      rw [nodes]
      simp only [x,Outline.nodes,Sound.nodes,List.append_assoc]
    obtain ⟨es,selected,made⟩ := strung.selected
    have named : ∀ n ∈ effects, n.kind = "effect" := by
      intro n mem
      obtain ⟨e,_,kind,_⟩ := pairedRight made mem
      exact kind
    have kinds := x.nodesKinds segments.kinds rfl strung.drawn.kinds named tracks.kinds rfl
    refine ⟨x,visual,audio,same,?_,segments,joinedEq _,fun _ => strung.drawn,
      fun _ => ⟨q.output,rfl,strung.chain⟩,
      fun _ => ⟨es,selected,made.imp fun e n h => h.2⟩,fun none => absurd none some,tracks,
      mixedEq _,by simp [assembled,x]⟩
    change (q.nodes ++ Sound.nodes length (distinct sources) tl.audio).map Node.kind = _
    rw [same,kinds]

end Timeline

theorem runOutlined {as : List Act} (inside : ∀ a ∈ as, a.outside = false) {o : Options} {p : Plan}
    (numbers : ∀ c ∈ (({} : Desk).run as).timeline.clips, c.Timed)
    (ok : (({} : Desk).run as).timeline.compile o = .ok p) :
    ∃ x : Outline, x.Of (({} : Desk).run as).timeline o p :=
  Timeline.compileOutlined (Desk.runChecked inside) numbers ok

theorem sceneOutlined : (∀ a ∈ scene, a.outside = false) ∧
    (∀ c ∈ (({} : Desk).run scene).timeline.clips, c.Timed) ∧
    ∃ p, (({} : Desk).run scene).timeline.compile {} = .ok p ∧
      ∃ x : Outline, x.Of (({} : Desk).run scene).timeline {} p := by
  have numbers : ∀ c ∈ (({} : Desk).run scene).timeline.clips, c.Timed := by
    unfold Clip.Timed
    decide +kernel
  obtain ⟨p,ok⟩ := scenePlanned
  exact ⟨by decide,numbers,p,ok,runOutlined (by decide) numbers ok⟩

end Montage
