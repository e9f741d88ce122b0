import Montage.Proofs.Render.Policy
import Montage.Proofs.Render.Words

/-! Effects in layers. There is a node for each effect that a clip places and that can be seen, by
rising start. The filters of a node count in the window of its clip only, those of a fade apart:
they say when it starts and how long it takes, and what comes before or after is faded too. -/
namespace Montage

/-- An argument holds the window, with both its times to the millisecond. -/
def Filter.Gated (f : Filter) (start stop : Float) : Prop :=
  ∃ clock before after, clock ∈ ["t","in_time"] ∧
    before ++ "between(" ++ clock ++ "," ++ Decimal.secondsText start ++ "," ++
      Decimal.secondsText stop ++ ")" ++ after ∈ f.args

/-- The node of an effect that the clip places. -/
structure Layered (tl : Timeline) (e : Effect) (n : Node) : Prop where
  placed : ∃ c ∈ tl.clips, tl.clipForEffect e.id = some c ∧ e.start = c.start ∧ e.stop = c.stop
  some : n.filters ≠ []
  gated : ∀ f ∈ n.filters, f.Gated e.start e.stop ↔ e.kind ≠ "fade"

section
variable {start stop : Float}

theorem gatedBy {f : Filter} {a : String} (clock before after : String)
    (name : clock ∈ ["t","in_time"]) (mem : a ∈ f.args)
    (text : a = before ++ gate clock start stop ++ after) : f.Gated start stop := by
  have window : gate clock start stop = "between(" ++ clock ++ "," ++ Decimal.secondsText start ++
      "," ++ Decimal.secondsText stop ++ ")" := rfl
  refine ⟨clock,before,after,name,?_⟩
  simpa only [text,window,String.append_assoc] using mem

theorem ungated {f : Filter} (words : ∀ a ∈ f.args, Word a) : ¬ f.Gated start stop := by
  rintro ⟨clock,before,after,_,mem⟩
  exact words _ mem ',' (by simp) (by decide)

theorem zoomGated (e : Effect) (width height rate : Int) :
    (zoomFilter e width height rate).Gated e.start e.stop := by
  refine gatedBy "in_time" ("z" ++ "=" ++ ("'" ++ "if("))
    ("," ++ Decimal.compactText (amplifyScale e.intensity) ++ ",1)" ++ "'")
    (by decide) List.mem_cons_self ?_
  simp only [named,inQuotes,String.append_assoc]

theorem blurGated (e : Effect) : (gaussBlurFilter e).Gated e.start e.stop := by
  refine gatedBy "t" ("enable" ++ "=" ++ "'") "'" (by decide)
    (List.mem_cons_of_mem _ List.mem_cons_self) ?_
  simp only [named,inQuotes,String.append_assoc]

theorem fadeUngated {direction : String} (word : Word direction) (first length : Float) :
    ¬ (fadeFilter direction first length).Gated start stop := by
  refine ungated ?_
  have name (key : String) (plain : Word (key ++ "=")) {value : String} (word : Word value) :
    Word (named key value) := plain.append word
  simp only [fadeFilter,Filter.make,List.nil_append,List.map_cons,List.map_nil,List.forall_mem_cons]
  exact ⟨name "t" (by decide) word,name "st" (by decide) (Decimal.secondsWord _),
    name "d" (by decide) (Decimal.secondsWord _),nofun⟩

theorem layeredFilters {e : Effect} {filters : List Filter} {width height rate : Int}
    (ok : effectFilters e "layered" width height rate = .ok filters) :
    ∀ f ∈ filters, f.Gated e.start e.stop ↔ e.kind ≠ "fade" := by
  have other {f : Filter} {kind : String} (same : e.kind = kind) (apart : kind ≠ "fade")
      (gated : f.Gated e.start e.stop) : ∀ g ∈ [f], g.Gated e.start e.stop ↔ e.kind ≠ "fade" := by
    rw [List.forall_mem_singleton]
    exact ⟨fun _ => same ▸ apart,fun _ => gated⟩
  unfold effectFilters at ok
  split at ok
  · rename_i amplify
    cases Except.ok.inj ok
    exact other amplify (by decide) (zoomGated e width height rate)
  split at ok
  · rename_i fade
    cases Except.ok.inj ok
    refine List.forall_mem_cons.mpr ⟨?_,List.forall_mem_singleton.mpr ?_⟩
    · exact ⟨fun gated => absurd gated (fadeUngated (by decide) _ _),fun apart => absurd fade apart⟩
    · exact ⟨fun gated => absurd gated (fadeUngated (by decide) _ _),fun apart => absurd fade apart⟩
  split at ok
  · rename_i soften
    rw [if_neg (by decide)] at ok
    cases Except.ok.inj ok
    exact other soften (by decide) (blurGated e)
  · cases ok

end

namespace Timeline
variable {tl : Timeline} {o : Options} {p : Plan}

theorem linkedSource {e : Effect} (mem : e ∈ Picture.linkedEffects tl) :
    ∃ c ∈ tl.clips, tl.clipForEffect e.id = some c ∧ e.start = c.start ∧ e.stop = c.stop := by
  obtain ⟨e',stored,linked⟩ := List.mem_filterMap.mp mem
  obtain ⟨c,found,rfl⟩ := Option.map_eq_some_iff.mp linked
  exact ⟨c,List.mem_of_find?_eq_some found,found,rfl,rfl⟩

theorem layeredNode {base : String} {k : Nat} {e : Effect} {n : Node} (policy : o.policy = "layered")
    (mem : e ∈ Picture.linkedEffects tl) (made : Picture.effectNode o base k e = .ok n) :
    Layered tl e n := by
  obtain ⟨filters,ok,rfl⟩ := Picture.effectNodeSource made
  exact ⟨linkedSource mem,Picture.effectFiltersSome ok,layeredFilters (policy ▸ ok)⟩

/-- A start that is no number is sorted somewhere. -/
theorem compileLayered (policy : o.policy = "layered")
    (shown : ∃ c ∈ tl.clips, c.kind ∈ visualKinds) (ok : tl.compile o = .ok p) :
    let allowed := (Picture.linkedEffects tl).filter fun e => allowedKinds.contains e.kind
    ∃ es, es.Perm allowed ∧
      ((∀ e ∈ allowed, e.start.isNaN = false) → StableOrder Effect.start allowed es) ∧
      List.Forall₂ (Layered tl) es (p.graph.ofKind "effect") := by
  intro allowed
  obtain ⟨length,sources,picture,_,_,_,drawn,rfl⟩ := compileSource ok
  rcases pictureSource drawn with ⟨none,_⟩ | ⟨q,_,build,rfl⟩
  · exact absurd none ((ofKindsSome tl visualKinds).mpr shown)
  obtain ⟨texts,effects,chain,built⟩ := Picture.buildSource build
  obtain ⟨_,nodes⟩ := chainsOf built length
  have linked : ∀ e ∈ effects, e ∈ Picture.linkedEffects tl := fun e mem =>
    (selectedMem built.selected e mem).1
  have selected := built.selected
  rw [policy] at selected
  cases Except.ok.inj (selected : Except.ok (orderedBy Effect.start allowed) = _)
  refine ⟨_,orderedByPerm _ _,orderedByStable,nodes ▸ ?_⟩
  have pairs := pairedItems (S := fun e n => ∃ base k, Picture.effectNode o base k e = .ok n)
    built.made fun e k n made => ⟨_,k,made⟩
  refine ((List.forall₂_and_left _ _).mpr ⟨linked,pairs⟩).imp ?_
  rintro e n ⟨mem,base,k,made⟩
  exact layeredNode policy mem made

/-- The later of two effects was added first. -/
def layering : Timeline where
  clips := [⟨"a","video","video",0,5,some "a.mp4",none,none⟩,
    ⟨"b","effect","effect",3,4,none,none,some "z"⟩,
    ⟨"c","effect","effect",1,2,none,none,some "s"⟩]
  effects := [⟨"z","amplify",90,0,0⟩,⟨"s","soften",50,0,0⟩]

theorem layeringLayered : (∃ c ∈ layering.clips, c.kind ∈ visualKinds) ∧
    ∃ p, layering.compile { policy := "layered" } = .ok p ∧
      ∃ es, StableOrder Effect.start (Picture.linkedEffects layering) es ∧
        List.Forall₂ (Layered layering) es (p.graph.ofKind "effect") := by
  have shown : ∃ c ∈ layering.clips, c.kind ∈ visualKinds := by decide
  have checked : ∀ e ∈ layering.effects,
      e.kind ∈ effectKinds ∧ 0 ≤ e.intensity ∧ e.intensity ≤ 100 := by decide
  have sound : ∀ e ∈ layering.effects, e.Sound := fun e mem =>
    ⟨(checked e mem).1,(checked e mem).2.1,(checked e mem).2.2⟩
  have kept : layering.Kept False := ⟨by decide,by decide,nofun,by decide,sound⟩
  obtain ⟨p,ok⟩ := (compileIff (o := { policy := "layered" }) kept).mpr
    ⟨by decide,fun _ => by decide +kernel,fun _ => ⟨by decide,by decide +kernel,by decide⟩⟩
  obtain ⟨es,_,ordered,nodes⟩ := compileLayered rfl shown ok
  exact ⟨shown,p,ok,es,ordered (by decide),nodes⟩

def fading : Timeline where
  clips := [⟨"a","video","video",0,5,some "a.mp4",none,none⟩,
    ⟨"b","effect","effect",2,4,none,none,some "e"⟩]
  effects := [⟨"e","fade",50,0,0⟩]

/-- The picture is faded in before the window and stays dark after it. -/
theorem fadingUngated : ¬ ∀ (tl : Timeline) (o : Options) (p : Plan), o.policy = "layered" →
    (∃ c ∈ tl.clips, c.kind ∈ visualKinds) → tl.compile o = .ok p →
      ∀ n ∈ p.graph.ofKind "effect", ∀ f ∈ n.filters, ∃ c ∈ tl.clips, f.Gated c.start c.stop := by
  intro gated
  obtain ⟨p,ok,made⟩ := answered (x := fading.compile { policy := "layered" })
    (fun p => (p.graph.ofKind "effect").map Node.filters ==
      [[fadeFilter "in" 2 1,fadeFilter "out" 3 1]]) (by decide +kernel)
  obtain ⟨n,node,filters⟩ := List.map_eq_singleton_iff.mp (beq_iff_eq.mp made)
  obtain ⟨c,_,window⟩ := gated fading _ p rfl (by decide) ok n
    (node ▸ List.mem_singleton_self n) (fadeFilter "in" 2 1) (filters ▸ List.mem_cons_self)
  exact fadeUngated (by decide) 2 1 window

end Timeline
end Montage
