import Montage.Proofs.Path
import Montage.Proofs.Render.Parts
import Montage.Proofs.Render.Total

/-! Which text clips are seen. An overlay is drawn once, in the window of the first text clip that
refers to it; a later clip that refers to the same overlay has no node. So every text clip has a
node of its own exactly when no two of them share an overlay. -/
namespace Montage

/-- No text clip that was added before refers to the same overlay. -/
structure Timeline.Leads (tl : Timeline) (c : Clip) : Prop where
  text : c.kind = "text"
  opens : ¬ c.stop ≤ c.start
  first : ∃ before after, tl.clips = before ++ c :: after ∧
    ∀ d ∈ before, d.kind = "text" → d.overlay ≠ c.overlay

def Timeline.captions (tl : Timeline) : List Clip :=
  tl.clips.filter fun c => c.kind = "text" ∧ ¬ c.stop ≤ c.start

structure Caption where
  overlay : Overlay
  clip : Clip
  node : Node
  file : SideFile

structure Caption.Of (tl : Timeline) (x : Caption) : Prop where
  stored : x.overlay ∈ tl.overlays
  placed : tl.clipForOverlay x.overlay.id = some x.clip
  refers : x.clip.overlay = some x.overlay.id
  drawn : ∃ f, x.node.filters = [f] ∧
    f.value? "enable" = some (inQuotes (gate "t" x.clip.start x.clip.stop)) ∧
    f.value? "textfile" = some (escapeValue x.file.path)
  content : x.file.content = x.overlay.content

structure Plan.Captioned (tl : Timeline) (p : Plan) (xs : List Caption) : Prop where
  each : ∀ x ∈ xs, x.Of tl
  nodes : p.graph.ofKind "text" = xs.map Caption.node
  files : p.sideFiles = xs.map Caption.file
  paths : (p.sideFiles.map SideFile.path).Nodup
  once : (xs.map Caption.clip).Nodup
  clips : ∀ c, c ∈ xs.map Caption.clip ↔ tl.Leads c
  all : (xs.map Caption.clip).Perm tl.captions ↔ (tl.captions.map Clip.overlay).Nodup

theorem sideNamePlain (i : Nat) : Path.Plain ("text_" ++ toString i ++ ".txt") := by
  have letters : ("text_" ++ toString i ++ ".txt").toList =
      "text_".toList ++ ((toString i).toList ++ ".txt".toList) := by simp
  have inside : '_' ∈ ("text_" ++ toString i ++ ".txt").toList := by
    rw [letters]
    exact List.mem_append_left _ (by decide)
  refine ⟨fun slash => ?_,fun none => ?_,fun dot => ?_⟩
  · rw [letters] at slash
    rcases List.mem_append.mp slash with front | rest
    · exact absurd front (by decide)
    rcases List.mem_append.mp rest with digit | ending
    · exact absurd (numberDigits i _ digit) (by decide)
    · exact absurd ending (by decide)
  · exact absurd (none ▸ inside) (by decide)
  · exact absurd (dot ▸ inside) (by decide)

theorem sidePathInjective (o : Options) : Function.Injective (Picture.sidePath o) := by
  intro i j same
  have names := Path.childInjective (sideNamePlain i) (sideNamePlain j) same
  exact numberedInjective ((String.append_left_inj ".txt").mp names)

theorem Drawn.paths {tl : Timeline} {o : Options} {k : Nat} {ts : List Overlay} {ns : List Node}
    {files : List SideFile} (drawn : Drawn tl o k ts ns files) :
    (files.map SideFile.path).Sublist ((List.range' k ts.length).map (Picture.sidePath o)) := by
  induction drawn with
  | nil k => exact .slnil
  | unplaced none rest ih => exact ih.cons _
  | placed first shows earlier named drawn one gated rest ih =>
    simp only [List.length_cons,List.range'_succ,List.map_cons]
    exact ih.cons_cons _

structure Captioning (tl : Timeline) (ts : List Overlay) (ns : List Node) (files : List SideFile)
    (xs : List Caption) : Prop where
  each : ∀ x ∈ xs, x.Of tl
  nodes : ns = xs.map Caption.node
  files : files = xs.map Caption.file
  overlays : (xs.map Caption.overlay).Sublist ts
  whole : ∀ t ∈ ts, ∀ c, tl.clipForOverlay t.id = some c → ∃ x ∈ xs, x.overlay = t

theorem Captioning.skipped {tl : Timeline} {t : Overlay} {ts : List Overlay} {ns : List Node}
    {files : List SideFile} {xs : List Caption} (none : tl.clipForOverlay t.id = none)
    (laid : Captioning tl ts ns files xs) : Captioning tl (t :: ts) ns files xs := by
  refine ⟨laid.each,laid.nodes,laid.files,laid.overlays.cons t,?_⟩
  refine List.forall_mem_cons.mpr ⟨fun c found => ?_,laid.whole⟩
  rw [none] at found
  cases found

theorem Captioning.cons {tl : Timeline} {x : Caption} {ts : List Overlay} {ns : List Node}
    {files : List SideFile} {xs : List Caption} (own : x.Of tl)
    (laid : Captioning tl ts ns files xs) :
    Captioning tl (x.overlay :: ts) (x.node :: ns) (x.file :: files) (x :: xs) := by
  refine ⟨List.forall_mem_cons.mpr ⟨own,laid.each⟩,?_,?_,laid.overlays.cons_cons x.overlay,?_⟩
  · rw [List.map_cons,laid.nodes]
  · rw [List.map_cons,laid.files]
  · refine List.forall_mem_cons.mpr ⟨fun _ _ => ⟨x,List.mem_cons_self,rfl⟩,fun t mem c found => ?_⟩
    obtain ⟨y,inside,same⟩ := laid.whole t mem c found
    exact ⟨y,List.mem_cons_of_mem _ inside,same⟩

theorem Drawn.captions {tl : Timeline} {o : Options} {k : Nat} {ts : List Overlay} {ns : List Node}
    {files : List SideFile} (drawn : Drawn tl o k ts ns files) (stored : ts ⊆ tl.overlays) :
    ∃ xs, Captioning tl ts ns files xs := by
  -- Over the overlays: one that no clip places is passed over, any other has a caption.
  induction drawn with
  | nil k => exact ⟨[],by simp,rfl,rfl,.slnil,by simp⟩
  | @unplaced k t ts ns files none rest ih =>
    obtain ⟨xs,laid⟩ := ih (List.cons_subset.mp stored).2
    refine ⟨xs,laid.skipped (List.find?_eq_none.mpr fun c mem => ?_)⟩
    rw [none c mem]
    exact Bool.false_ne_true
  | @placed k t ts n ns files before after c f first shows earlier named drawn one gated rest ih =>
    obtain ⟨here,later⟩ := List.cons_subset.mp stored
    obtain ⟨xs,laid⟩ := ih later
    have found : tl.clipForOverlay t.id = some c := List.find?_eq_some_iff_append.mpr
      ⟨shows,before,after,first,fun d mem => by simp [earlier d mem]⟩
    have refers : c.overlay = some t.id := beq_iff_eq.mp (Bool.and_eq_true_iff.mp shows).2
    have own : Caption.Of tl ⟨t,c,n,Picture.sidePath o k,t.content⟩ := by
      refine ⟨here,found,refers,⟨f,one,gated,?_⟩,rfl⟩
      dsimp only
      exact Picture.drawTextReads drawn
    exact ⟨_,laid.cons own⟩

namespace Timeline
variable {tl : Timeline} {o : Options} {p : Plan}

theorem leadsIff {c : Clip} {id : String} (text : c.kind = "text") (opens : ¬ c.stop ≤ c.start)
    (refers : c.overlay = some id) : tl.Leads c ↔ tl.clipForOverlay id = some c := by
  have apart (d : Clip) : (!d.shows id) = true ↔ (d.kind = "text" → d.overlay ≠ c.overlay) := by
    rw [refers]
    simp [Clip.shows,imp_iff_not_or]
  unfold clipForOverlay
  rw [List.find?_eq_some_iff_append]
  constructor
  · intro leads
    obtain ⟨before,after,clips,earlier⟩ := leads.first
    exact ⟨by simp [Clip.shows,text,refers],before,after,clips,
      fun d mem => (apart d).mpr (earlier d mem)⟩
  · rintro ⟨_,before,after,clips,earlier⟩
    exact ⟨text,opens,before,after,clips,fun d mem => (apart d).mp (earlier d mem)⟩

theorem leadsOfDistinct (apart : (tl.captions.map Clip.overlay).Nodup)
    (opens : ∀ c ∈ tl.clips, ¬ c.stop ≤ c.start) {c : Clip} (mem : c ∈ tl.captions) :
    tl.Leads c := by
  obtain ⟨stored,here⟩ := List.mem_filter.mp mem
  obtain ⟨before,after,clips⟩ := List.append_of_mem stored
  have here : c.kind = "text" ∧ ¬ c.stop ≤ c.start := by simpa using here
  refine ⟨here.1,here.2,before,after,clips,fun d earlier text same => ?_⟩
  have open' := opens d (clips ▸ List.mem_append_left _ earlier)
  unfold captions at apart
  rw [clips,List.filter_append,List.map_append] at apart
  refine (List.disjoint_of_nodup_append apart) (a := c.overlay) ?_ ?_
  · rw [← same]
    exact List.mem_map_of_mem (List.mem_filter.mpr ⟨earlier,by simpa using ⟨text,open'⟩⟩)
  · exact List.mem_map_of_mem (List.mem_filter.mpr ⟨List.mem_cons_self,by simpa using here⟩)

theorem Leads.stored {c : Clip} (leads : tl.Leads c) : c ∈ tl.clips := by
  obtain ⟨before,after,clips,_⟩ := leads.first
  rw [clips]
  exact List.mem_append_right _ List.mem_cons_self

end Timeline

namespace Captioning
variable {tl : Timeline} {ns : List Node} {files : List SideFile} {xs : List Caption}

theorem refs (laid : Captioning tl tl.overlays ns files xs)
    (named : (tl.overlays.map Overlay.id).Nodup) :
    ((xs.map Caption.clip).map Clip.overlay).Nodup := by
  -- A clip names its overlay by id, and captions are made for overlays of different ids.
  have ids : (xs.map Caption.clip).map Clip.overlay =
      ((xs.map Caption.overlay).map Overlay.id).map some := by
    simp only [List.map_map]
    exact List.map_congr_left fun x mem => (laid.each x mem).refers
  have distinct := named.sublist (laid.overlays.map Overlay.id)
  rw [ids]
  exact distinct.map (Option.some_injective _)

theorem leads (laid : Captioning tl tl.overlays ns files xs) (valid : tl.validate = .ok ())
    (c : Clip) : c ∈ xs.map Caption.clip ↔ tl.Leads c := by
  have checked := Timeline.checkClipsSource valid
  constructor
  · intro mem
    obtain ⟨x,inside,rfl⟩ := List.mem_map.mp mem
    have own := laid.each x inside
    have stored := List.mem_of_find?_eq_some own.placed
    have shows := List.find?_some own.placed
    have text : x.clip.kind = "text" := beq_iff_eq.mp (Bool.and_eq_true_iff.mp shows).1
    have opens := Clip.checkOpen (checked x.clip stored).1
    exact (Timeline.leadsIff text opens own.refers).mpr own.placed
  · intro leads
    obtain ⟨t,mem,refers⟩ := Timeline.overlayStored (checked c leads.stored).2 leads.text
    have found := (Timeline.leadsIff leads.text leads.opens refers).mp leads
    obtain ⟨x,inside,rfl⟩ := laid.whole t mem c found
    have same := (laid.each x inside).placed
    rw [found] at same
    exact List.mem_map.mpr ⟨x,inside,(Option.some.inj same).symm⟩

theorem permIff (laid : Captioning tl tl.overlays ns files xs) (valid : tl.validate = .ok ())
    (named : (tl.overlays.map Overlay.id).Nodup) :
    (xs.map Caption.clip).Perm tl.captions ↔ (tl.captions.map Clip.overlay).Nodup := by
  have checked := Timeline.checkClipsSource valid
  have refs := laid.refs named
  constructor
  · exact fun perm => (perm.map Clip.overlay).nodup_iff.mp refs
  · intro apart
    refine (List.perm_ext_iff_of_nodup refs.of_map apart.of_map).mpr fun c => ?_
    rw [laid.leads valid]
    constructor
    · exact fun leads => List.mem_filter.mpr ⟨leads.stored,by simpa using ⟨leads.text,leads.opens⟩⟩
    · exact Timeline.leadsOfDistinct apart fun c mem => Clip.checkOpen (checked c mem).1

end Captioning

namespace Timeline
variable {tl : Timeline} {o : Options} {p : Plan}

theorem compileCaptioned (valid : tl.validate = .ok ())
    (named : (tl.overlays.map Overlay.id).Nodup) (shown : ∃ c ∈ tl.clips, c.kind ∈ visualKinds)
    (ok : tl.compile o = .ok p) : ∃ xs, p.Captioned tl xs := by
  have spans : ∀ c ∈ tl.clips, ¬ c.span ≤ 0 := fun c mem =>
    Clip.spanOpen (Clip.checkOpen (checkClipsSource valid c mem).1)
  obtain ⟨length,sources,picture,_,_,_,drawn,rfl⟩ := compileSource ok
  rcases pictureSource drawn with ⟨none,_⟩ | ⟨q,_,build,rfl⟩
  · exact absurd none ((ofKindsSome tl visualKinds).mpr shown)
  obtain ⟨texts,effects,chain,built⟩ := Picture.buildSource build
  have strung : Drawn tl o 0 tl.overlays texts q.sideFiles := by
    rw [built.sideFiles]
    exact Picture.drawnFrom spans built.drawn
  obtain ⟨xs,laid⟩ := strung.captions (List.Subset.refl _)
  have paths : (q.sideFiles.map SideFile.path).Nodup :=
    ((List.nodup_range' ..).map (sidePathInjective o)).sublist strung.paths
  exact ⟨xs,laid.each,(chainsOf built length).1.trans laid.nodes,laid.files,paths,
    (laid.refs named).of_map,laid.leads valid,laid.permIff valid named⟩

def sung (clips : List Clip) : Timeline where
  clips := ⟨"a","video","video",0,5,some "a.mp4",none,none⟩ :: clips
  overlays := [{ id := "t", content := "Verse" },{ id := "u", content := "Refrain" }]

def verse : Clip := ⟨"b","text","text",0,1,none,some "t",none⟩

def refrain : Clip := ⟨"c","text","text",1,2,none,some "u",none⟩

theorem sungCaptioned : (sung [verse,refrain]).validate = .ok () ∧
    ((sung [verse,refrain]).overlays.map Overlay.id).Nodup ∧
    (∃ c ∈ (sung [verse,refrain]).clips, c.kind ∈ visualKinds) ∧
    ∃ p, (sung [verse,refrain]).compile {} = .ok p ∧
      ∃ xs, p.Captioned (sung [verse,refrain]) xs := by
  have valid : (sung [verse,refrain]).validate = .ok () := by decide
  have named : ((sung [verse,refrain]).overlays.map Overlay.id).Nodup := by decide
  have shown : ∃ c ∈ (sung [verse,refrain]).clips, c.kind ∈ visualKinds := by decide
  obtain ⟨p,ok,_⟩ := answered (x := (sung [verse,refrain]).compile {})
    (fun p => (p.graph.ofKind "text").length == 2) (by decide +kernel)
  exact ⟨valid,named,shown,p,ok,compileCaptioned valid named shown ok⟩

def reprise : Clip := ⟨"d","text","text",3,4,none,some "u",none⟩

/-- The reprise has no node: its overlay is drawn in the window of the refrain. -/
theorem repriseUnseen : (sung [verse,refrain,reprise]).validate = .ok () ∧
    (∃ c ∈ (sung [verse,refrain,reprise]).clips, c.kind ∈ visualKinds) ∧
    ∃ p, (sung [verse,refrain,reprise]).compile {} = .ok p ∧ ∀ xs : List Caption,
      p.graph.ofKind "text" = xs.map Caption.node →
      ¬ (xs.map Caption.clip).Perm (sung [verse,refrain,reprise]).captions := by
  refine ⟨by decide,by decide,?_⟩
  obtain ⟨p,ok,two⟩ := answered (x := (sung [verse,refrain,reprise]).compile {})
    (fun p => (p.graph.ofKind "text").length == 2) (by decide +kernel)
  refine ⟨p,ok,fun xs nodes perm => ?_⟩
  have drawn := congrArg List.length nodes
  have placed := perm.length_eq
  have three : (sung [verse,refrain,reprise]).captions.length = 3 := by decide
  rw [List.length_map,beq_iff_eq.mp two] at drawn
  rw [List.length_map,three] at placed
  omega

end Timeline
end Montage
