import Montage.Proofs.Render.Readable

/-! Files elsewhere. Where the output goes, in which folder the texts lie and which font they are
drawn in reaches nothing of a plan but the places themselves and the two arguments of a text node
that name files. What the renderer does with those files is not part of a plan. -/
namespace Montage

def Options.elsewhere (o : Options) (output workFolder : String) (font : Option String) : Options :=
  { o with output, workFolder, font }

/-- The same node, which may read its text from another file and draw it in another font. -/
structure Node.Alike (n m : Node) : Prop where
  kind : n.kind = m.kind
  inputs : n.inputs = m.inputs
  outputs : n.outputs = m.outputs
  filters : n.filters = m.filters ∨
    n.kind = "text" ∧ ∃ file file' font font' others,
      n.filters = [⟨"drawtext",named "textfile" file :: (Picture.fontArgs font ++ others)⟩] ∧
      m.filters = [⟨"drawtext",named "textfile" file' :: (Picture.fontArgs font' ++ others)⟩]

/-- Two plans that differ at most in where files are. -/
structure Plan.Relocated (p q : Plan) : Prop where
  inputs : p.inputs = q.inputs
  nodes : List.Forall₂ Node.Alike p.graph.nodes q.graph.nodes
  maps : p.maps = q.maps
  length : p.length = q.length
  shortest : p.shortest = q.shortest
  encode : p.encode = q.encode
  contents : p.sideFiles.map SideFile.content = q.sideFiles.map SideFile.content

theorem Node.Alike.same (n : Node) : n.Alike n := ⟨rfl,rfl,rfl,.inl rfl⟩

theorem nodesAlike (ns : List Node) : List.Forall₂ Node.Alike ns ns :=
  List.forall₂_same.mpr fun n _ => .same n

/-- Two pictures of the same nodes but for the files of texts. -/
structure Picture.Alike (p q : Picture) : Prop where
  nodes : List.Forall₂ Node.Alike p.nodes q.nodes
  contents : p.sideFiles.map SideFile.content = q.sideFiles.map SideFile.content
  output : p.output = q.output

namespace Picture
variable (tl : Timeline) (o : Options) (output workFolder : String) (font : Option String)

theorem drawRelocated (t : Overlay) (c : Clip) (path path' : String) (font font' : Option String) :
    Agree (fun f g => ∃ others,
      f = ⟨"drawtext",named "textfile" (escapeValue path) :: (fontArgs font ++ others)⟩ ∧
      g = ⟨"drawtext",named "textfile" (escapeValue path') :: (fontArgs font' ++ others)⟩)
      (drawText t c path font) (drawText t c path' font') := by
  refine (Agree.same (fun _ => rfl) (filterColor t.color)).bind ?_
  rintro color _ rfl
  refine (Agree.same (fun _ => rfl) (checkDigits t.fontSize)).bind ?_
  rintro _ _ rfl
  refine .answered ⟨?others,?first,?second⟩
  -- The first of the two sides says which arguments the others are.
  case first =>
    unfold Filter.make
    rw [fontArgsEq,List.nil_append,List.append_assoc,List.append_assoc,List.append_assoc,
      List.map_append]
    rfl
  case second =>
    unfold Filter.make
    rw [fontArgsEq,List.nil_append,List.append_assoc,List.append_assoc,List.append_assoc,
      List.map_append]
    rfl

theorem textRelocated (base : String) (k i : Nat) (t : Overlay) (c : Clip) :
    Agree Node.Alike (textNode o base k i t c)
      (textNode (o.elsewhere output workFolder font) base k i t c) := by
  refine (drawRelocated t c _ _ _ _).bind ?_
  rintro f g ⟨others,rfl,rfl⟩
  exact .answered ⟨rfl,rfl,rfl,.inr ⟨rfl,_,_,_,_,others,rfl,rfl⟩⟩

theorem buildRelocated (inputs : List String) (visual : List Clip) :
    Agree Alike (build tl o inputs visual)
      (build tl (o.elsewhere output workFolder font) inputs visual) := by
  have texts : Agree (List.Forall₂ Node.Alike) (textNodes tl o (joinedLabel visual))
      (textNodes tl (o.elsewhere output workFolder font) (joinedLabel visual)) :=
    .mapM fun x _ => textRelocated o output workFolder font _ x.2 x.1.1 x.1.2.1 x.1.2.2
  refine (Agree.same (fun _ => rfl) o.checkPicture).bind ?_
  rintro _ _ rfl
  refine texts.bind fun ns ms drawn => ?_
  refine (Agree.same (fun _ => rfl) (selectEffects (linkedEffects tl) o.policy)).bind ?_
  rintro effects _ rfl
  refine (Agree.same (fun _ => rfl) (effectNodes o _ effects)).bind ?_
  rintro chain _ rfl
  refine .answered ⟨?_,?_,rfl⟩
  · exact List.rel_append (List.rel_append (nodesAlike _) drawn) (nodesAlike chain)
  · change (textFiles tl o).map SideFile.content = (textFiles tl _).map SideFile.content
    unfold textFiles
    rw [List.map_map,List.map_map]
    rfl

end Picture

namespace Timeline
variable (tl : Timeline) (o : Options) (output workFolder : String) (font : Option String)

theorem pictureRelocated (inputs : List String) :
    Agree (fun a b => (a = none ∧ b = none) ∨ ∃ p q, a = some p ∧ b = some q ∧ p.Alike q)
      (tl.picture o inputs) (tl.picture (o.elsewhere output workFolder font) inputs) := by
  unfold Timeline.picture
  split
  · exact .answered (.inl ⟨rfl,rfl⟩)
  · exact (Picture.buildRelocated tl o output workFolder font inputs tl.visual).map
      fun p q alike => .inr ⟨p,q,rfl,rfl,alike⟩

theorem relocated :
    Agree Plan.Relocated (tl.compile o) (tl.compile (o.elsewhere output workFolder font)) := by
  have heard (length : Float) (inputs : List String) :=
    nodesAlike (Sound.nodes length inputs tl.audio)
  rw [compileEq,compileEq]
  split
  · exact .failed _
  refine (Agree.same (fun _ => rfl) (plannedLength tl o)).bind ?_
  rintro length _ rfl
  refine (Agree.same (fun _ => rfl) (sourcesOf (tl.visual ++ tl.audio))).bind ?_
  rintro sources _ rfl
  refine (pictureRelocated tl o output workFolder font (distinct sources)).bind ?_
  rintro a b (⟨rfl,rfl⟩ | ⟨p,q,rfl,rfl,alike⟩)
  · exact .answered ⟨rfl,heard _ _,rfl,rfl,rfl,rfl,rfl⟩
  · refine .answered ⟨rfl,List.rel_append alike.nodes (heard _ _),?_,rfl,rfl,rfl,alike.contents⟩
    change [p.output] ++ _ = [q.output] ++ _
    rw [alike.output]

/-- Either both compilations fail, with one fault, or the plans differ in the places of files. -/
theorem compileRelocated (tl : Timeline) (o : Options) (output workFolder : String)
    (font : Option String) :
    let o' := o.elsewhere output workFolder font
    (∃ f, tl.compile o = .error f ∧ tl.compile o' = .error f) ∨
    ∃ p q, tl.compile o = .ok p ∧ tl.compile o' = .ok q ∧ p.Relocated q :=
  (relocated tl o output workFolder font).outcomes

end Timeline
end Montage
