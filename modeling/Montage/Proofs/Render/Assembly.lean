import Montage.Proofs.Render.Chain

/-! Plans put together. The nodes of a picture and of its sound flow: what they leave unread is
what goes to the output file. So assembling a graph never breaks its rules, and a compilation can
be read without them: it checks what it is given, and then writes the nodes down. -/
namespace Montage

theorem numberedOutputs {s : String} {items : List α} {node : α × Nat → Node}
    (each : ∀ x, (node x).outputs = [s ++ toString x.2]) :
    (items.zipIdx.map node).flatMap Node.outputs = numbered s items.length := by
  have singles : (items.zipIdx.map node).flatMap Node.outputs =
      (items.zipIdx.map Prod.snd).map fun i => s ++ toString i := by
    generalize items.zipIdx = pairs
    induction pairs with
    | nil => rfl
    | cons x xs ih => simp [each x,ih]
  rw [singles,List.zipIdx_map_snd,numbered,List.range_eq_range']

namespace Picture
variable {tl : Timeline} {o : Options} {inputs : List String} {visual : List Clip} {p : Picture}

theorem segmentsStreams (o : Options) (inputs : List String) (visual : List Clip) :
    ∀ n ∈ segments o inputs visual, n.filters ≠ [] ∧ n.reads = [] := by
  intro n mem
  obtain ⟨⟨c,i⟩,_,rfl⟩ := List.mem_map.mp mem
  exact ⟨by simp [segment,segmentFilters],readsStream rfl (videoStream _)⟩

theorem segmentsOutputs :
    (segments o inputs visual).flatMap Node.outputs = numbered "v" visual.length := by
  unfold segments
  refine numberedOutputs ?_
  intro x
  rfl

def joinedOutputs (visual : List Clip) : List String := if 1 < visual.length then ["outv"] else []

theorem joinedOutputsEq : (joined visual).flatMap Node.outputs = joinedOutputs visual := by
  unfold joined joinedOutputs
  split <;> rfl

theorem letters (s : String) (all : s.toList.all (!isDigit ·) = true) :
    ∀ c ∈ s.toList, (!isDigit c) = true := List.all_eq_true.mp all

theorem joinedFlow (some : visual ≠ []) :
    Flow (numbered "v" visual.length) (joined visual) [joinedLabel visual] := by
  have count := List.length_pos_iff.mpr some
  unfold joined joinedLabel
  by_cases several : 1 < visual.length
  · rw [if_pos several,if_pos several]
    exact Flow.gather [] (by simp [join])
      (readsNumbered (letters "v" (by decide)) (by decide) rfl) (numberedDistinct _ _) (by simp)
  · have one : visual.length = 1 := by omega
    rw [if_neg several,if_neg several,one]
    exact .nil _

theorem textNodeSource {base : String} {k i : Nat} {t : Overlay} {c : Clip} {n : Node}
    (ok : textNode o base k i t c = .ok n) : ∃ f, drawText t c (sidePath o i) o.font = .ok f ∧
      n = ⟨"text",[link "txt" base k],[f],["txt" ++ toString k]⟩ := by
  obtain ⟨f,drawn,last⟩ := bindOk ok
  cases Except.ok.inj last
  exact ⟨f,drawn,rfl⟩

theorem effectFiltersSome {e : Effect} {policy : String} {width height rate : Int}
    {filters : List Filter} (ok : effectFilters e policy width height rate = .ok filters) :
    filters ≠ [] := by
  unfold effectFilters at ok
  split at ok
  · cases Except.ok.inj ok
    simp
  split at ok
  · cases Except.ok.inj ok
    simp
  split at ok
  · split at ok
    · obtain ⟨radius,_,last⟩ := bindOk ok
      cases Except.ok.inj last
      simp
    · cases Except.ok.inj ok
      simp
  · cases ok

theorem effectNodeSource {base : String} {k : Nat} {e : Effect} {n : Node}
    (ok : effectNode o base k e = .ok n) :
    ∃ filters, effectFilters e o.policy o.width o.height o.rate = .ok filters ∧
      n = ⟨"effect",[link "fx" base k],filters,["fx" ++ toString k]⟩ := by
  obtain ⟨filters,made,last⟩ := bindOk ok
  cases Except.ok.inj last
  exact ⟨filters,made,rfl⟩

structure Built (tl : Timeline) (o : Options) (inputs : List String) (visual : List Clip)
    (p : Picture) (texts : List Node) (effects : List Effect) (chain : List Node) : Prop where
  checked : o.checkPicture = .ok ()
  drawn : List.Forall₂ (fun x n => textNode o (joinedLabel visual) x.2 x.1.1 x.1.2.1 x.1.2.2 =
    .ok n) (placedTexts tl).zipIdx texts
  selected : selectEffects (linkedEffects tl) o.policy = .ok effects
  made : List.Forall₂ (fun x n => effectNode o
    (link "txt" (joinedLabel visual) (placedTexts tl).length) x.2 x.1 = .ok n)
    effects.zipIdx chain
  nodes : p.nodes = segments o inputs visual ++ joined visual ++ texts ++ chain
  sideFiles : p.sideFiles = textFiles tl o
  output : p.output = link "fx" (link "txt" (joinedLabel visual) (placedTexts tl).length)
    effects.length

theorem buildSource (ok : build tl o inputs visual = .ok p) :
    ∃ texts effects chain, Built tl o inputs visual p texts effects chain := by
  obtain ⟨_,checked,ok⟩ := bindOk ok
  obtain ⟨texts,drawn,ok⟩ := bindOk ok
  obtain ⟨effects,selected,ok⟩ := bindOk ok
  obtain ⟨chain,made,last⟩ := bindOk ok
  cases Except.ok.inj last
  exact ⟨texts,effects,chain,checked,mapMOk drawn,selected,mapMOk made,rfl,rfl,rfl⟩

section
variable {texts chain : List Node} {effects : List Effect}

theorem Built.textChain (built : Built tl o inputs visual p texts effects chain) :
    Chained (joinedLabel visual) texts
        (link "txt" (joinedLabel visual) (placedTexts tl).length) ∧
      texts.flatMap Node.outputs = numbered "txt" (placedTexts tl).length := by
  refine linkedAll (built.drawn.imp fun x n made => ?_)
  obtain ⟨f,_,rfl⟩ := textNodeSource made
  exact ⟨rfl,rfl⟩

theorem Built.effectChain (built : Built tl o inputs visual p texts effects chain) :
    Chained (link "txt" (joinedLabel visual) (placedTexts tl).length) chain p.output ∧
      chain.flatMap Node.outputs = numbered "fx" effects.length := by
  rw [built.output]
  refine linkedAll (built.made.imp fun x n made => ?_)
  obtain ⟨filters,_,rfl⟩ := effectNodeSource made
  exact ⟨rfl,rfl⟩

theorem Built.chained (built : Built tl o inputs visual p texts effects chain) :
    Chained (joinedLabel visual) (texts ++ chain) p.output :=
  built.textChain.1.append built.effectChain.1

theorem Built.filters (built : Built tl o inputs visual p texts effects chain) :
    ∀ n ∈ texts ++ chain, n.filters ≠ [] := by
  intro n mem
  rcases List.mem_append.mp mem with text | effect
  · obtain ⟨x,_,made⟩ := pairedRight built.drawn text
    obtain ⟨f,_,rfl⟩ := textNodeSource made
    simp
  · obtain ⟨x,_,made⟩ := pairedRight built.made effect
    obtain ⟨filters,ok,rfl⟩ := effectNodeSource made
    exact effectFiltersSome ok

def labels (visual : List Clip) (texts effects : Nat) : List (List String) :=
  [numbered "v" visual.length,joinedOutputs visual,numbered "txt" texts,numbered "fx" effects]

theorem Built.outputs (built : Built tl o inputs visual p texts effects chain) :
    p.nodes.flatMap Node.outputs =
      (labels visual (placedTexts tl).length effects.length).flatten := by
  rw [built.nodes]
  simp only [List.flatMap_append,segmentsOutputs,joinedOutputsEq,built.textChain.2,
    built.effectChain.2,labels,List.flatten_cons,List.flatten_nil,List.append_nil,
    List.append_assoc]

end

/-- What stands before the number in the labels of a picture. -/
def stems : List (List Char) := ["v".toList,"outv".toList,"txt".toList,"fx".toList]

theorem labelFamilies (visual : List Clip) (texts effects : Nat) :
    List.Forall₂ Family stems (labels visual texts effects) := by
  refine .cons (familyNumbered (letters "v" (by decide)) _) (.cons ?_
    (.cons (familyNumbered (letters "txt" (by decide)) _)
      (.cons (familyNumbered (letters "fx" (by decide)) _) .nil)))
  unfold joinedOutputs
  split
  · exact familySingle "outv"
  · exact familyEmpty _

theorem plainOf (stems : List (List Char)) (known : [] ∉ stems) {l : String}
    (mem : stem l ∈ stems) : isStream l = false :=
  noStream fun none => known (none ▸ mem)

theorem joinedLabelPlain (visual : List Clip) : isStream (joinedLabel visual) = false := by
  unfold joinedLabel
  split <;> exact noStream (by decide)

theorem buildFlow (some : visual ≠ []) (ok : build tl o inputs visual = .ok p) :
    Flow [] p.nodes [p.output] := by
  obtain ⟨texts,effects,chain,built⟩ := buildSource ok
  have named := (familiesDistinct (labelFamilies visual (placedTexts tl).length effects.length)
    (by decide)).2
  rw [← built.outputs,built.nodes] at named
  rw [built.nodes,List.append_assoc]
  have first := Flow.streams [] (segmentsStreams o inputs visual)
  rw [List.nil_append,segmentsOutputs] at first
  refine (first.append (joinedFlow some)).append ?_
  refine built.chained.flow (joinedLabelPlain visual) (fun l mem => ?_) built.filters
  refine plainOf stems (by decide) (named l ?_)
  simp only [List.flatMap_append] at mem ⊢
  simp only [List.mem_append] at mem ⊢
  tauto

end Picture

namespace Sound
variable {length : Float} {inputs : List String} {audio : List Clip}

theorem tracksStreams (length : Float) (inputs : List String) (audio : List Clip) :
    ∀ n ∈ tracks length inputs audio, n.filters ≠ [] ∧ n.reads = [] := by
  intro n mem
  obtain ⟨⟨c,i⟩,_,rfl⟩ := List.mem_map.mp mem
  exact ⟨by simp [track],readsStream rfl (audioStream _)⟩

theorem tracksOutputs :
    (tracks length inputs audio).flatMap Node.outputs = numbered "a" audio.length := by
  unfold tracks
  refine numberedOutputs ?_
  intro x
  rfl

def mixedOutputs (audio : List Clip) : List String := if 1 < audio.length then ["outa"] else []

theorem mixedOutputsEq : (mixed audio).flatMap Node.outputs = mixedOutputs audio := by
  unfold mixed mixedOutputs
  split <;> rfl

theorem nodesFlow {others : List String} (apart : ∀ l ∈ others, stem l ≠ "a".toList) :
    Flow others (nodes length inputs audio) (others ++ output audio) := by
  have first := Flow.streams others (tracksStreams length inputs audio)
  rw [tracksOutputs] at first
  refine first.append ?_
  have family := familyNumbered (s := "a") (Picture.letters "a" (by decide)) audio.length
  unfold mixed output
  by_cases several : 1 < audio.length
  · have some : audio.isEmpty = false := by cases audio <;> simp_all
    rw [if_pos several,some,if_neg (by decide),if_pos several]
    refine Flow.gather others (by simp [mix])
      (readsNumbered (Picture.letters "a" (by decide)) (by decide) rfl) family.distinct ?_
    exact fun l mem taken => apart l mem (family.stems l taken)
  · rw [if_neg several,if_neg several]
    cases audio with
    | nil => exact .nil _
    | cons c cs =>
      have one : cs = [] := by
        cases cs with
        | nil => rfl
        | cons d ds => simp at several
      subst one
      exact .nil _

end Sound

def labelStems : List (List Char) := Picture.stems ++ ["a".toList,"outa".toList]

def allLabels (seen : List (List String)) (audio : List Clip) : List (List String) :=
  seen ++ [numbered "a" audio.length,Sound.mixedOutputs audio]

theorem allFamilies {seen : List (List String)} (audio : List Clip)
    (families : List.Forall₂ Family Picture.stems seen) :
    List.Forall₂ Family labelStems (allLabels seen audio) := by
  refine List.rel_append families (.cons
    (familyNumbered (Picture.letters "a" (by decide)) _) (.cons ?_ .nil))
  unfold Sound.mixedOutputs
  split
  · exact familySingle "outa"
  · exact familyEmpty _

end Montage
