import Montage.Disk
import Montage.Proofs.Answer
import Montage.Proofs.Path

/-! Where paths lead. A path that leads somewhere leads to the same place in whatever has more
folders. A folder that was made is there; it can be asked for again, and then nothing changes. -/
namespace Montage.Disk
variable {d d' d'' : Disk} {p q : Path}

theorem zeroIff (normal : p.Normal) :
    holdsZero p.text = true ↔ ∃ part ∈ p.parts, '\x00' ∈ part.toList := by
  rw [← Path.textLetters normal (by decide) (by decide)]
  exact List.contains_iff_mem

theorem insideIff :
    inside p q = true ↔ p.root = q.root ∧ ∃ rest, rest ≠ [] ∧ p.parts = q.parts ++ rest := by
  unfold inside
  simp only [Bool.and_eq_true,beq_iff_eq,decide_eq_true_eq,List.isPrefixOf_iff_prefix,and_assoc]
  refine and_congr_right fun _ => ⟨?_,?_⟩
  · rintro ⟨⟨rest,same⟩,longer⟩
    refine ⟨rest,?_,same.symm⟩
    rintro rfl
    rw [← same,List.append_nil] at longer
    exact Nat.lt_irrefl _ longer
  · rintro ⟨rest,some,same⟩
    rw [same,List.length_append]
    exact ⟨⟨rest,rfl⟩,Nat.lt_add_of_pos_right (List.length_pos_iff.mpr some)⟩

theorem insideTrans {r : Path} (first : inside p q = true) (second : inside q r = true) :
    inside p r = true := by
  obtain ⟨root,rest,some,parts⟩ := insideIff.mp first
  obtain ⟨root',rest',_,parts'⟩ := insideIff.mp second
  refine insideIff.mpr ⟨root.trans root',rest' ++ rest,by simp [some],?_⟩
  rw [parts,parts',List.append_assoc]

theorem insideOne {root : Root} {parts : List String} {name : String} :
    inside ⟨root,parts ++ [name]⟩ q = true ↔ q = ⟨root,parts⟩ ∨ inside ⟨root,parts⟩ q = true := by
  rw [insideIff,insideIff]
  constructor
  · rintro ⟨rfl,rest,some,same⟩
    obtain ⟨front,last,rfl⟩ := (List.eq_nil_or_concat rest).resolve_left some
    rw [List.concat_eq_append,← List.append_assoc] at same
    obtain ⟨same,_⟩ := List.append_inj' same rfl
    by_cases none : front = []
    · rw [none,List.append_nil] at same
      exact .inl (by rw [show parts = q.parts from same])
    · exact .inr ⟨rfl,front,none,same⟩
  · rintro (rfl | ⟨root',rest,some,same⟩)
    · exact ⟨rfl,[name],List.cons_ne_nil _ _,rfl⟩
    · exact ⟨root',rest ++ [name],by simp,by rw [← List.append_assoc,← same]⟩

theorem insideIrrefl : inside p p = false := by
  unfold inside
  simp

theorem folderIff : d.isFolderAt p = true ↔ (∀ part ∈ p.parts, part = "..") ∨ p ∈ d.folders ∨
    (∃ q ∈ d.folders, inside q p = true) ∨ ∃ f ∈ d.files, inside f.1 p = true := by
  unfold isFolderAt
  simp only [Bool.or_eq_true,List.all_eq_true,beq_iff_eq,List.contains_iff_mem,List.any_eq_true,
    or_assoc]

theorem folderAbove (folder : d.isFolderAt p = true) (within : inside p q = true) :
    d.isFolderAt q = true := by
  rw [folderIff] at folder ⊢
  rcases folder with up | here | ⟨r,stored,deep⟩ | ⟨f,stored,deep⟩
  · obtain ⟨_,rest,_,same⟩ := insideIff.mp within
    exact .inl fun part mem => up part (same ▸ List.mem_append_left _ mem)
  · exact .inr (.inr (.inl ⟨p,here,within⟩))
  · exact .inr (.inr (.inl ⟨r,stored,insideTrans deep within⟩))
  · exact .inr (.inr (.inr ⟨f,stored,insideTrans deep within⟩))

/-- One step of a walk. -/
def onward (here : Path) (part : String) : Path :=
  if part = ".." then up here else ⟨here.root,here.parts ++ [part]⟩

theorem walkCons {here : Path} {part : String} {parts : List String} :
    d.walk here (part :: parts) = .ok p ↔ d.isFolderAt here = true ∧
      part.utf8ByteSize ≤ longestName ∧ d.walk (onward here part) parts = .ok p := by
  rw [walk]
  split
  · rename_i folder
    split
    · rename_i long
      exact ⟨nofun,fun ok => absurd ok.2.1 (Nat.not_le.mpr long)⟩
    · rename_i short
      exact ⟨fun ok => ⟨folder,Nat.not_lt.mp short,ok⟩,fun ok => ok.2.2⟩
  · rename_i other
    split <;> exact ⟨nofun,fun ok => absurd ok.1 other⟩

theorem walkAppend (here : Path) (front back : List String) :
    d.walk here (front ++ back) = d.walk here front >>= fun mid => d.walk mid back := by
  induction front generalizing here with
  | nil => rfl
  | cons part front ih =>
    rw [List.cons_append,walk,walk]
    split
    · split
      · rfl
      · exact ih _
    · split <;> rfl

theorem walkLast {here : Path} {parts : List String} {part : String} :
    d.walk here (parts ++ [part]) = .ok p ↔ ∃ mid, d.walk here parts = .ok mid ∧
      d.isFolderAt mid = true ∧ part.utf8ByteSize ≤ longestName ∧ onward mid part = p := by
  rw [walkAppend]
  constructor
  · intro ok
    obtain ⟨mid,first,last⟩ := bindOk ok
    obtain ⟨folder,short,done⟩ := walkCons.mp last
    exact ⟨mid,first,folder,short,Except.ok.inj done⟩
  · rintro ⟨mid,first,folder,short,rfl⟩
    exact bindTotal first (walkCons.mpr ⟨folder,short,rfl⟩)

theorem walkStraight {here : Path} {parts : List String} (straight : ".." ∉ parts)
    (ok : d.walk here parts = .ok p) : p = ⟨here.root,here.parts ++ parts⟩ := by
  induction parts generalizing here with
  | nil =>
    cases Except.ok.inj ok
    rw [List.append_nil]
  | cons part parts ih =>
    obtain ⟨here',later⟩ : ".." ≠ part ∧ ".." ∉ parts := by simpa using straight
    obtain ⟨_,_,ok⟩ := walkCons.mp ok
    rw [ih later ok,onward,if_neg here'.symm,List.append_assoc]
    rfl

theorem locateIff :
    d.locate p = .ok q ↔ p.text.utf8ByteSize ≤ longestPath ∧ d.walk ⟨p.root,[]⟩ p.parts = .ok q := by
  unfold locate
  split
  · rename_i long
    exact ⟨nofun,fun ok => absurd ok.1 (Nat.not_le.mpr long)⟩
  · rename_i short
    exact ⟨fun ok => ⟨Nat.not_lt.mp short,ok⟩,fun ok => ok.2⟩

theorem isFolderIff : d.isFolder p = true ↔ ∃ q, d.locate p = .ok q ∧ d.isFolderAt q = true := by
  unfold isFolder
  cases d.locate p with
  | error f => simp
  | ok q => simp

/-- Every folder of the one is a folder of the other. -/
def Covers (d d' : Disk) : Prop := ∀ p, d.isFolderAt p = true → d'.isFolderAt p = true

theorem Covers.trans (first : d.Covers d') (second : d'.Covers d'') : d.Covers d'' :=
  fun p folder => second p (first p folder)

theorem Covers.walk (covers : d.Covers d') {here : Path} {parts : List String}
    (ok : d.walk here parts = .ok p) : d'.walk here parts = .ok p := by
  induction parts generalizing here with
  | nil => exact ok
  | cons part parts ih =>
    obtain ⟨folder,short,ok⟩ := walkCons.mp ok
    exact walkCons.mpr ⟨covers here folder,short,ih ok⟩

theorem Covers.locate (covers : d.Covers d') (ok : d.locate p = .ok q) : d'.locate p = .ok q := by
  obtain ⟨short,ok⟩ := locateIff.mp ok
  exact locateIff.mpr ⟨short,covers.walk ok⟩

theorem Covers.isFolder (covers : d.Covers d') (folder : d.isFolder p = true) :
    d'.isFolder p = true := by
  obtain ⟨q,ok,there⟩ := isFolderIff.mp folder
  exact isFolderIff.mpr ⟨q,covers.locate ok,covers q there⟩

theorem thereIff {path : String} : d.isThere path = true ↔
    ∃ p, d.locate (Path.ofText path) = .ok p ∧
      (d.isFolderAt p = true ∨ (d.contentAt? p).isSome = true) := by
  unfold isThere
  cases d.locate (Path.ofText path) with
  | error f => simp
  | ok p => simp

theorem contentIff : (d.contentAt? p).isSome = true ↔ ∃ f ∈ d.files, f.1 = p := by
  unfold contentAt?
  rw [List.lookup_isSome_iff]
  simp

/-- Whatever is in the one is in the other. -/
structure Keeps (d d' : Disk) : Prop where
  folders : d.folders ⊆ d'.folders
  files : ∀ f ∈ d.files, ∃ g ∈ d'.files, g.1 = f.1

namespace Keeps

theorem refl (d : Disk) : d.Keeps d := ⟨List.Subset.refl _,fun f mem => ⟨f,mem,rfl⟩⟩

theorem trans (first : d.Keeps d') (second : d'.Keeps d'') : d.Keeps d'' := by
  refine ⟨List.Subset.trans first.folders second.folders,fun f mem => ?_⟩
  obtain ⟨g,stored,same⟩ := first.files f mem
  obtain ⟨h,last,same'⟩ := second.files g stored
  exact ⟨h,last,same'.trans same⟩

theorem covers (keeps : d.Keeps d') : d.Covers d' := by
  intro p folder
  rw [folderIff] at folder ⊢
  rcases folder with up | here | ⟨q,stored,deep⟩ | ⟨f,stored,deep⟩
  · exact .inl up
  · exact .inr (.inl (keeps.folders here))
  · exact .inr (.inr (.inl ⟨q,keeps.folders stored,deep⟩))
  · obtain ⟨g,kept,same⟩ := keeps.files f stored
    exact .inr (.inr (.inr ⟨g,kept,same ▸ deep⟩))

theorem content (keeps : d.Keeps d') (some : (d.contentAt? p).isSome = true) :
    (d'.contentAt? p).isSome = true := by
  obtain ⟨f,stored,rfl⟩ := contentIff.mp some
  exact contentIff.mpr (keeps.files f stored)

theorem isThere (keeps : d.Keeps d') {path : String} (there : d.isThere path = true) :
    d'.isThere path = true := by
  obtain ⟨p,located,found⟩ := thereIff.mp there
  exact thereIff.mpr ⟨p,keeps.covers.locate located,
    found.imp (keeps.covers p) keeps.content⟩

end Keeps

theorem makeOneOk (ok : d.makeOne p = .ok d') : d.Keeps d' ∧ d'.isFolder p = true := by
  unfold makeOne at ok
  obtain ⟨short,ok⟩ := guardOk ok
  obtain ⟨folder,walked,ok⟩ := bindOk ok
  obtain ⟨above,ok⟩ := guardOk ok
  split at ok
  · cases ok
  · cases ok
  rename_i name other last
  obtain ⟨brief,ok⟩ := guardOk ok
  obtain ⟨free,ok⟩ := guardOk ok
  cases Except.ok.inj ok
  have keeps : d.Keeps { d with folders := d.folders ++ [⟨folder.root,folder.parts ++ [name]⟩] } :=
    ⟨List.subset_append_left _ _,fun f mem => ⟨f,mem,rfl⟩⟩
  refine ⟨keeps,isFolderIff.mpr ⟨⟨folder.root,folder.parts ++ [name]⟩,?_,?_⟩⟩
  · refine locateIff.mpr ⟨Nat.not_lt.mp short,?_⟩
    rw [← List.dropLast_append_getLast? name last]
    refine walkLast.mpr ⟨folder,keeps.covers.walk walked,keeps.covers _ (by simpa using above),
      Nat.not_lt.mp brief,if_neg ?_⟩
    rintro rfl
    exact other rfl
  · exact folderIff.mpr (.inr (.inl (List.mem_append_right _ List.mem_cons_self)))

/-- What is there already is in the way. -/
theorem makeOneTaken (there : d.isFolder p = true) (some : p.parts ≠ []) :
    d.makeOne p = .error .taken := by
  obtain ⟨q,located,folder⟩ := isFolderIff.mp there
  obtain ⟨short,walked⟩ := locateIff.mp located
  obtain ⟨front,name,parts⟩ := (List.eq_nil_or_concat p.parts).resolve_left some
  rw [List.concat_eq_append] at parts
  rw [parts] at walked
  obtain ⟨mid,first,above,brief,rfl⟩ := walkLast.mp walked
  unfold makeOne
  rw [if_neg (Nat.not_lt.mpr short),parts,List.dropLast_concat,List.getLast?_concat]
  refine bindTotal first ?_
  rw [if_neg (by simp [above])]
  split
  · rfl
  · rfl
  · rename_i last other same
    cases same
    rw [onward,if_neg fun up => other up] at folder
    rw [if_neg (Nat.not_lt.mpr brief),if_pos (by rw [folder]; rfl)]
    rfl

theorem unlessFolderOk {made : Except (String → DiskFault) Disk}
    (ok : unlessFolder p made d = .ok d') : made = .ok d' ∨ d = d' ∧ d.isFolder p = true := by
  unfold unlessFolder at ok
  split at ok
  · exact .inl (congrArg Except.ok (Except.ok.inj ok))
  · split at ok
    · exact .inr ⟨Except.ok.inj ok,‹_›⟩
    · cases ok

theorem unlessFolderMade (ok : unlessFolder p (d.makeOne p) d = .ok d') :
    d.Keeps d' ∧ d'.isFolder p = true := by
  rcases unlessFolderOk ok with made | ⟨rfl,there⟩
  · exact makeOneOk made
  · exact ⟨.refl d,there⟩

theorem makeUpwardOk {root : Root} {parts : List String} (ok : makeUpward root parts d = .ok d') :
    d.Keeps d' ∧ d'.isFolder ⟨root,parts.reverse⟩ = true := by
  induction parts generalizing d' with
  | nil =>
    cases Except.ok.inj ok
    refine ⟨.refl d,isFolderIff.mpr ⟨⟨root,[]⟩,locateIff.mpr ⟨?_,rfl⟩,?_⟩⟩
    · cases root <;> decide
    · exact folderIff.mpr (.inl (by simp))
  | cons part above ih =>
    unfold makeUpward at ok
    dsimp only at ok
    split at ok
    · rename_i made
      cases Except.ok.inj ok
      exact makeOneOk made
    · rename_i f failed
      split at ok
      · obtain ⟨mid,upper,ok⟩ := bindOk ok
        obtain ⟨keeps,_⟩ := ih upper
        obtain ⟨keeps',there⟩ := unlessFolderMade ok
        exact ⟨keeps.trans keeps',there⟩
      · rw [← failed] at ok
        exact unlessFolderMade ok

theorem makeFolderOk (ok : d.makeFolder p = .ok d') :
    holdsZero p.text = false ∧ d.Keeps d' ∧ d'.isFolder p = true := by
  obtain ⟨zero,ok⟩ := checkedOk ok
  have made := makeUpwardOk ok
  rw [List.reverse_reverse] at made
  exact ⟨by simpa using zero,made⟩

/-- A folder that is there can be made again, and nothing changes. -/
theorem makeFolderAgain (there : d.isFolder p = true) (zero : holdsZero p.text = false) :
    d.makeFolder p = .ok d := by
  obtain ⟨root,parts⟩ := p
  unfold makeFolder
  rw [if_neg (by simp [zero])]
  obtain rfl | ⟨front,name,rfl⟩ := List.eq_nil_or_concat parts
  · rfl
  · rw [List.concat_eq_append] at there ⊢
    have taken := makeOneTaken there (by simp)
    rw [List.reverse_append,List.reverse_singleton,List.singleton_append,makeUpward]
    simp only [List.reverse_cons,List.reverse_reverse,taken,unlessFolder,there,if_true]

end Montage.Disk
