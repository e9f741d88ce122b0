import Montage.Proofs.Render.Parts

/-! The two policies for effects side by side. Effects that are stored can always be carried out;
so a timeline compiles under both policies or fails under both, and for the same reason. Where it
compiles, the plans differ from the first effect on and only up to the last one. -/
namespace Montage

def Options.under (o : Options) (policy : String) : Options := { o with policy }

/-- The nodes of one effect under the policies `first` and `layered`. -/
structure Restyled (e : Effect) (n m : Node) : Prop where
  reads : n.inputs = m.inputs
  writes : n.outputs = m.outputs
  same : e.kind ≠ "soften" → n.filters = m.filters
  blurred : e.kind = "soften" → ∃ r, softenRadius e.intensity = .ok r ∧
    n.filters = [boxBlurFilter e r] ∧ m.filters = [gaussBlurFilter e]

/-- The plans of one timeline under the policies `first` and `layered`. -/
structure Plan.Repainted (tl : Timeline) (p q : Plan) : Prop where
  inputs : p.inputs = q.inputs
  sideFiles : p.sideFiles = q.sideFiles
  length : p.length = q.length
  shortest : p.shortest = q.shortest
  encode : p.encode = q.encode
  output : p.output = q.output
  others : p.graph.nodes.filter (·.kind != "effect") = q.graph.nodes.filter (·.kind != "effect")
  effects : (p.graph.ofKind "effect" = [] ∧ q.graph.ofKind "effect" = []) ∨
    ∃ e n m ms, (allowedEffects (Picture.linkedEffects tl)).head? = some e ∧
      p.graph.ofKind "effect" = [n] ∧ q.graph.ofKind "effect" = m :: ms ∧ Restyled e n m
  seen : tl.visual ≠ [] → ∃ a b heard, p.maps = a :: heard ∧ q.maps = b :: heard
  unseen : tl.visual = [] → p.maps = q.maps
  few : (q.graph.ofKind "effect").length ≤ 1 → p.maps = q.maps

theorem effectFiltersOther {e : Effect} (other : e.kind ≠ "soften") (policy policy' : String)
    (width height rate : Int) :
    effectFilters e policy width height rate = effectFilters e policy' width height rate := by
  unfold effectFilters
  simp only [other,if_false]

theorem effectFiltersSoften {e : Effect} (soften : e.kind = "soften") (policy : String)
    (width height rate : Int) : effectFilters e policy width height rate =
      if policy = "first" then softenRadius e.intensity >>= fun r => pure [boxBlurFilter e r]
      else pure [gaussBlurFilter e] := by
  unfold effectFilters
  rw [if_neg (by simp [soften]),if_neg (by simp [soften]),if_pos soften]

namespace Picture
variable {tl : Timeline} {o : Options} {inputs : List String} {visual : List Clip}
  {p q : Picture} {texts chain chain' : List Node} {effects : List Effect}

theorem restyled {base : String} {k : Nat} {e : Effect} {n m : Node}
    (first : effectNode (o.under "first") base k e = .ok n)
    (layered : effectNode (o.under "layered") base k e = .ok m) : Restyled e n m := by
  obtain ⟨filters,made,rfl⟩ := effectNodeSource first
  obtain ⟨filters',made',rfl⟩ := effectNodeSource layered
  change effectFilters e "first" o.width o.height o.rate = .ok filters at made
  change effectFilters e "layered" o.width o.height o.rate = .ok filters' at made'
  refine ⟨rfl,rfl,fun other => ?_,fun soften => ?_⟩
  · rw [effectFiltersOther other "first" "layered",made'] at made
    exact (Except.ok.inj made).symm
  · rw [effectFiltersSoften soften,if_pos rfl] at made
    rw [effectFiltersSoften soften,if_neg (by decide)] at made'
    obtain ⟨r,radius,last⟩ := bindOk made
    exact ⟨r,radius,(Except.ok.inj last).symm,(Except.ok.inj made').symm⟩

theorem builtOf (inputs : List String) (checked : o.checkPicture = .ok ())
    (drawn : textNodes tl o (joinedLabel visual) = .ok texts)
    (selected : selectEffects (linkedEffects tl) o.policy = .ok effects)
    (made : effectNodes o (link "txt" (joinedLabel visual) (placedTexts tl).length) effects =
      .ok chain) :
    ∃ p, build tl o inputs visual = .ok p ∧ Built tl o inputs visual p texts effects chain :=
  ⟨_,bindTotal checked (bindTotal drawn (bindTotal selected (bindTotal made rfl))),
    checked,mapMOk drawn,selected,mapMOk made,rfl,rfl,rfl⟩

/-- Neither the numbers of the picture nor its texts depend on the policy, and only they can fail. -/
theorem buildPolicies {timed : Prop} (kept : tl.Kept timed) (o : Options) (inputs : List String)
    (visual : List Clip) :
    (∃ f, build tl (o.under "first") inputs visual = .error f ∧
      build tl (o.under "layered") inputs visual = .error f) ∨
    ∃ p q texts chain chain', build tl (o.under "first") inputs visual = .ok p ∧
      build tl (o.under "layered") inputs visual = .ok q ∧
      Built tl (o.under "first") inputs visual p texts
        ((allowedEffects (linkedEffects tl)).take 1) chain ∧
      Built tl (o.under "layered") inputs visual q texts (allowedEffects (linkedEffects tl))
        chain' := by
  rcases answerCases o.checkPicture with ⟨_,checked⟩ | ⟨f,bad⟩
  swap
  · exact .inl ⟨f,bindFailed bad,bindFailed bad⟩
  rcases answerCases (textNodes tl o (joinedLabel visual)) with ⟨texts,drawn⟩ | ⟨f,bad⟩
  · obtain ⟨one,chain,selected,made⟩ := chainTotal (o := o.under "first") kept
      (by decide : "first" ∈ effectPolicies)
      (link "txt" (joinedLabel visual) (placedTexts tl).length)
    obtain ⟨all,chain',selected',made'⟩ := chainTotal (o := o.under "layered") kept
      (by decide : "layered" ∈ effectPolicies)
      (link "txt" (joinedLabel visual) (placedTexts tl).length)
    cases Except.ok.inj (selected : Except.ok ((allowedEffects (linkedEffects tl)).take 1) = _)
    cases Except.ok.inj (selected' : Except.ok (allowedEffects (linkedEffects tl)) = _)
    obtain ⟨p,ok,built⟩ := builtOf (o := o.under "first") inputs checked drawn selected made
    obtain ⟨q,ok',built'⟩ := builtOf (o := o.under "layered") inputs checked drawn
      selected' made'
    exact .inr ⟨p,q,texts,chain,chain',ok,ok',built,built'⟩
  · exact .inl ⟨f,bindTotal checked (bindFailed bad),bindTotal checked (bindFailed bad)⟩

theorem firstRestyled
    (first : Built tl (o.under "first") inputs visual p texts (effects.take 1) chain)
    (layered : Built tl (o.under "layered") inputs visual q texts effects chain') :
    (chain = [] ∧ chain' = []) ∨ ∃ e n m ms, effects.head? = some e ∧ chain = [n] ∧
      chain' = m :: ms ∧ Restyled e n m := by
  have made := first.made
  have made' := layered.made
  cases effects with
  | nil =>
    cases made
    cases made'
    exact .inl ⟨rfl,rfl⟩
  | cons e es =>
    cases made with
    | cons here rest =>
      cases rest
      cases made' with
      | cons here' rest' => exact .inr ⟨e,_,_,_,rfl,rfl,rfl,restyled here here'⟩

end Picture

namespace Timeline
variable {tl : Timeline} {o : Options} {inputs : List String} {p q : Picture}
  {texts chain chain' : List Node}

theorem repainted (shown : tl.visual ≠ []) (length : Float)
    (first : Picture.Built tl (o.under "first") inputs tl.visual p texts
      ((allowedEffects (Picture.linkedEffects tl)).take 1) chain)
    (layered : Picture.Built tl (o.under "layered") inputs tl.visual q texts
      (allowedEffects (Picture.linkedEffects tl)) chain') :
    (assembled tl (o.under "first") length inputs (some p)).Repainted tl
      (assembled tl (o.under "layered") length inputs (some q)) where
  inputs := rfl
  sideFiles := first.sideFiles.trans layered.sideFiles.symm
  length := rfl
  shortest := rfl
  encode := rfl
  output := rfl
  others := by
    have seen := first.ofKinds (· != "effect")
    have seen' := layered.ofKinds (· != "effect")
    have segments : Picture.segments (o.under "first") inputs tl.visual =
        Picture.segments (o.under "layered") inputs tl.visual := rfl
    unfold assembled
    dsimp only [seenNodes]
    rw [List.filter_append,List.filter_append,seen,seen',segments]
    simp
  effects := by
    rw [(chainsOf first length).2,(chainsOf layered length).2]
    exact Picture.firstRestyled first layered
  seen _ := ⟨p.output,q.output,Sound.output tl.audio,rfl,rfl⟩
  unseen none := absurd none shown
  few := by
    rw [(chainsOf layered length).2]
    intro few
    have count := layered.made.length_eq
    rw [List.length_zipIdx] at count
    change p.output :: _ = q.output :: _
    rw [first.output,layered.output,List.length_take,Nat.min_eq_right (by omega)]

theorem picturePolicies {timed : Prop} (kept : tl.Kept timed) (o : Options)
    (inputs : List String) (length : Float) :
    (∃ f, tl.picture (o.under "first") inputs = .error f ∧
      tl.picture (o.under "layered") inputs = .error f) ∨
    ∃ a b, tl.picture (o.under "first") inputs = .ok a ∧
      tl.picture (o.under "layered") inputs = .ok b ∧
      (assembled tl (o.under "first") length inputs a).Repainted tl
        (assembled tl (o.under "layered") length inputs b) := by
  unfold Timeline.picture
  by_cases none : tl.visual = []
  · rw [if_pos (by simp [none]),if_pos (by simp [none])]
    have effects (o : Options) :
        (assembled tl o length inputs .none).graph.ofKind "effect" = [] := by
      have heard := Sound.ofKinds length inputs tl.audio (· == "effect")
      exact heard.trans (by simp)
    exact .inr ⟨_,_,rfl,rfl,rfl,rfl,rfl,rfl,rfl,rfl,rfl,.inl ⟨effects _,effects _⟩,
      fun shown => absurd none shown,fun _ => rfl,fun _ => rfl⟩
  · rw [if_neg (by simpa using none),if_neg (by simpa using none)]
    rcases Picture.buildPolicies kept o inputs tl.visual with ⟨f,bad,bad'⟩ |
      ⟨p,q,texts,chain,chain',ok,ok',first,layered⟩
    · exact .inl ⟨f,by rw [bad]; rfl,by rw [bad']; rfl⟩
    · exact .inr ⟨some p,some q,by rw [ok]; rfl,by rw [ok']; rfl,
        repainted none length first layered⟩

theorem compilePolicies {timed : Prop} (kept : tl.Kept timed) (o : Options) :
    (∃ f, tl.compile (o.under "first") = .error f ∧ tl.compile (o.under "layered") = .error f) ∨
    ∃ p q, tl.compile (o.under "first") = .ok p ∧ tl.compile (o.under "layered") = .ok q ∧
      p.Repainted tl q := by
  have length (policy : String) : plannedLength tl (o.under policy) = plannedLength tl o := rfl
  rw [compileEq,compileEq,length,length]
  split
  · exact .inl ⟨_,rfl,rfl⟩
  rcases answerCases (plannedLength tl o) with ⟨length,known⟩ | ⟨f,bad⟩
  · rcases answerCases (sourcesOf (tl.visual ++ tl.audio)) with ⟨sources,found⟩ | ⟨f,bad⟩
    · rcases picturePolicies kept o (distinct sources) length with ⟨f,bad,bad'⟩ |
        ⟨a,b,drawn,drawn',same⟩
      · exact .inl ⟨f,bindTotal known (bindTotal found (bindFailed bad)),
          bindTotal known (bindTotal found (bindFailed bad'))⟩
      · exact .inr ⟨_,_,bindTotal known (bindTotal found (bindTotal drawn rfl)),
          bindTotal known (bindTotal found (bindTotal drawn' rfl)),same⟩
    · exact .inl ⟨f,bindTotal known (bindFailed bad),bindTotal known (bindFailed bad)⟩
  · exact .inl ⟨f,bindFailed bad,bindFailed bad⟩

end Timeline

theorem runPolicies {as : List Act} (inside : ∀ a ∈ as, a.outside = false) (o : Options) :
    let tl := (({} : Desk).run as).timeline
    (∃ f, tl.compile (o.under "first") = .error f ∧ tl.compile (o.under "layered") = .error f) ∨
    ∃ p q, tl.compile (o.under "first") = .ok p ∧ tl.compile (o.under "layered") = .ok q ∧
      p.Repainted tl q :=
  Timeline.compilePolicies (Desk.runChecked inside) o

def veiling : List Act :=
  [.command 0 (.addEffect { id := "s", kind := "blur" }),
   .command 0 (.addEffect { id := "f", kind := "fade" }),
   .command 0 (.addClip ⟨"a","video","video",0,5,some "a.mp4",none,none⟩),
   .command 0 (.addClip ⟨"b","effect","effect",3,4,none,none,some "f"⟩),
   .command 0 (.addClip ⟨"c","effect","effect",1,2,none,none,some "s"⟩)]

theorem veilingPlanned : ∃ p, (({} : Desk).run veiling).timeline.compile
    (({} : Options).under "first") = .ok p := by
  have kept := Desk.runChecked (show ∀ a ∈ veiling, a.outside = false by decide)
  refine (Timeline.compileIff kept).mpr ⟨?_,fun _ => ?_,fun _ => ⟨by decide,?_,?_⟩⟩
  · decide +kernel
  · decide +kernel
  · decide +kernel
  · decide +kernel

/-- The earlier of two effects is a softening. -/
theorem veilingPolicies : (∀ a ∈ veiling, a.outside = false) ∧
    ∃ p q, (({} : Desk).run veiling).timeline.compile (({} : Options).under "first") = .ok p ∧
      (({} : Desk).run veiling).timeline.compile (({} : Options).under "layered") = .ok q ∧
      p.Repainted (({} : Desk).run veiling).timeline q := by
  refine ⟨by decide,?_⟩
  rcases runPolicies (show ∀ a ∈ veiling, a.outside = false by decide) {} with ⟨f,bad,_⟩ | both
  · obtain ⟨p,ok⟩ := veilingPlanned
    rw [ok] at bad
    cases bad
  · exact both

end Montage
