import Mathlib.Data.List.TakeWhile
import Montage.Proofs.Disk.Places

/-! Files that are put down. Putting one down makes no folder and takes none away; it is read as it
was until one is put down in its place. -/
namespace Montage.Disk
variable {d d' : Disk} {p q path : Path} {content : String}

theorem upFolder (folder : d.isFolderAt p = true) : d.isFolderAt (up p) = true := by
  unfold up
  split
  · rename_i dots
    have dots : ∀ part ∈ p.parts, part = ".." := by simpa using dots
    split
    · refine folderIff.mpr (.inl fun part mem => ?_)
      rcases List.mem_append.mp mem with inner | last
      · exact dots part inner
      · exact List.mem_singleton.mp last
    · exact folder
  · rename_i other
    obtain ⟨front,name,parts⟩ := (List.eq_nil_or_concat p.parts).resolve_left
      fun none => other (by rw [none]; rfl)
    rw [List.concat_eq_append] at parts
    refine folderAbove folder (insideIff.mpr ⟨rfl,[name],List.cons_ne_nil _ _,?_⟩)
    rw [parts,List.dropLast_concat]

/-- A path at whose place `p` a file can be put down. -/
structure Admits (d : Disk) (path p : Path) : Prop where
  zero : holdsZero path.text = false
  folder : d.isFolder path.parent = true
  located : d.locate path = .ok p
  free : d.isFolderAt p = false

def put (d : Disk) (p : Path) (content : String) : Disk :=
  { d with files := d.files.filter (·.1 != p) ++ [(p,content)] }

theorem Admits.above (admits : d.Admits path p) :
    ∃ mid name, d.isFolderAt mid = true ∧ p = ⟨mid.root,mid.parts ++ [name]⟩ := by
  obtain ⟨_,walked⟩ := locateIff.mp admits.located
  obtain none | ⟨front,name,parts⟩ := List.eq_nil_or_concat path.parts
  · rw [none] at walked
    cases Except.ok.inj walked
    exact absurd admits.free (by simp [folderIff])
  · rw [parts,List.concat_eq_append] at walked
    obtain ⟨mid,_,folder,_,rfl⟩ := walkLast.mp walked
    by_cases back : name = ".."
    · have free := admits.free
      rw [onward,if_pos back,upFolder folder] at free
      cases free
    · exact ⟨mid,name,folder,if_neg back⟩

theorem putKeeps (d : Disk) (p : Path) (content : String) : d.Keeps (d.put p content) := by
  refine ⟨List.Subset.refl _,fun f stored => ?_⟩
  by_cases same : f.1 = p
  · exact ⟨(p,content),List.mem_append_right _ List.mem_cons_self,same.symm⟩
  · exact ⟨f,List.mem_append_left _ (List.mem_filter.mpr ⟨stored,by simpa using same⟩),rfl⟩

theorem putFolders (admits : d.Admits path p) (content : String) (q : Path) :
    (d.put p content).isFolderAt q = d.isFolderAt q := by
  rw [Bool.eq_iff_iff]
  refine ⟨fun there => ?_,(putKeeps d p content).covers q⟩
  rcases folderIff.mp there with up | here | deep | ⟨f,stored,deep⟩
  · exact folderIff.mpr (.inl up)
  · exact folderIff.mpr (.inr (.inl here))
  · exact folderIff.mpr (.inr (.inr (.inl deep)))
  rcases List.mem_append.mp stored with old | new
  · exact folderIff.mpr (.inr (.inr (.inr ⟨f,List.mem_of_mem_filter old,deep⟩)))
  · cases List.mem_singleton.mp new
    obtain ⟨mid,name,folder,rfl⟩ := admits.above
    rcases insideOne.mp deep with rfl | deeper
    · exact folder
    · exact folderAbove folder deeper

theorem putLocated (admits : d.Admits path p) (content : String) :
    (d.put p content).locate path = .ok p :=
  (putKeeps d p content).covers.locate admits.located

theorem lookupFiltered (files : List (Path × String)) (keep : Path → Bool) (q : Path) :
    (files.filter (keep ·.1)).lookup q = if keep q then files.lookup q else none := by
  induction files with
  | nil => simp
  | cons f files ih =>
    obtain ⟨place,content⟩ := f
    rw [List.filter_cons,List.lookup_cons]
    by_cases same : q = place
    · subst same
      cases kept : keep q with
      | true => simp
      | false => simp [ih,kept]
    · rw [beq_false_of_ne same]
      cases keep place with
      | true => rw [if_pos rfl,List.lookup_cons,beq_false_of_ne same,ih]
      | false => exact ih

theorem putContent (d : Disk) (p q : Path) (content : String) :
    (d.put p content).contentAt? q = if q = p then some content else d.contentAt? q := by
  unfold put contentAt?
  rw [List.lookup_append,lookupFiltered d.files (· != p),List.lookup_cons,List.lookup_nil]
  by_cases same : q = p
  · simp [same]
  · simp [same,beq_false_of_ne same]

theorem dropAhead (p : α → Bool) (xs : List α) :
    xs.drop (xs.takeWhile p).length = xs.dropWhile p :=
  calc xs.drop (xs.takeWhile p).length
      = (xs.takeWhile p ++ xs.dropWhile p).drop (xs.takeWhile p).length := by
        rw [List.takeWhile_append_dropWhile]
    _ = xs.dropWhile p := List.drop_left

theorem wholeIff {cs : List Char} :
    halfRun? cs = none ↔ ∀ c ∈ cs, isHalfCode (codeOf c) = false := by
  let other (c : Char) : Bool := !isHalfCode (codeOf c)
  have cut : cs.drop (cs.takeWhile other).length = cs.dropWhile other := dropAhead other cs
  have first := List.head?_dropWhile_not other cs
  unfold halfRun?
  dsimp only
  rw [cut]
  cases rest : cs.dropWhile other with
  | nil => simpa [other,List.dropWhile_eq_nil_iff] using rest
  | cons c more =>
    rw [rest] at first
    have half : isHalfCode (codeOf c) = true := by simpa [other] using first
    rw [List.takeWhile_cons,if_pos half]
    refine ⟨nofun,fun none => ?_⟩
    have mem : c ∈ cs := (List.dropWhile_sublist _).subset (rest ▸ List.mem_cons_self)
    rw [none c mem] at half
    cases half

/-- Only the content can be in the way of a file whose place is free. -/
theorem writeAdmitted (admits : d.Admits path p) (content : String) :
    d.write path content = match halfRun? content.toList with
      | none => .ok (d.put p content)
      | some (first,last,code) => .error (.unwritable first last code) := by
  obtain ⟨folder,above,there⟩ := isFolderIff.mp admits.folder
  have short := (locateIff.mp admits.located).1
  unfold write
  rw [if_neg (by simp [admits.zero]),if_neg (Nat.not_lt.mpr short)]
  refine bindTotal (relabelledOk.mpr above) ?_
  rw [if_neg (by simp [there])]
  refine bindTotal (relabelledOk.mpr admits.located) ?_
  rw [if_neg (by simp [admits.free])]
  rcases halfRun? content.toList with none | ⟨first,last,code⟩ <;> rfl

theorem writeIff : d.write path content = .ok d' ↔
    ∃ p, d.Admits path p ∧ halfRun? content.toList = none ∧ d.put p content = d' := by
  constructor
  · intro ok
    unfold write at ok
    obtain ⟨zero,ok⟩ := guardOk ok
    obtain ⟨short,ok⟩ := guardOk ok
    obtain ⟨folder,above,ok⟩ := bindOk ok
    obtain ⟨there,ok⟩ := guardOk ok
    obtain ⟨p,located,ok⟩ := bindOk ok
    obtain ⟨free,ok⟩ := guardOk ok
    have folder' := isFolderIff.mpr ⟨folder,relabelledOk.mp above,by simpa using there⟩
    refine ⟨p,⟨by simpa using zero,folder',relabelledOk.mp located,by simpa using free⟩,?_⟩
    split at ok
    · cases ok
    · rename_i whole
      exact ⟨Option.eq_none_iff_forall_ne_some.mpr fun run => whole run.1 run.2.1 run.2.2,
        Except.ok.inj ok⟩
  · rintro ⟨p,admits,whole,rfl⟩
    rw [writeAdmitted admits,whole]

/-- What can be in the way of a file. -/
theorem writeFault {f : Fault} (bad : d.write path content = .error f) :
    (∃ g, f = .disk g) ∨ (holdsZero path.text = true ∧ f = .misused .zeroInPath) ∨
      ∃ run, halfRun? content.toList = some run ∧ f = .unwritable run.1 run.2.1 run.2.2 := by
  unfold write at bad
  by_cases zero : holdsZero path.text = true
  · rw [if_pos zero] at bad
    exact .inr (.inl ⟨zero,(Except.error.inj bad).symm⟩)
  rw [if_neg zero] at bad
  rcases guardError bad with long | bad
  · exact .inl ⟨_,long.symm⟩
  rcases bindError bad with unfound | ⟨folder,_,bad⟩
  · obtain ⟨g,_,same⟩ := relabelledError unfound
    exact .inl ⟨_,same.symm⟩
  rcases guardError bad with outside | bad
  · exact .inl ⟨_,outside.symm⟩
  rcases bindError bad with unfound | ⟨q,_,bad⟩
  · obtain ⟨g,_,same⟩ := relabelledError unfound
    exact .inl ⟨_,same.symm⟩
  rcases guardError bad with folder | bad
  · exact .inl ⟨_,folder.symm⟩
  split at bad
  · rename_i run
    exact .inr (.inr ⟨_,run,(Except.error.inj bad).symm⟩)
  · cases bad

theorem Admits.same (admits : d.Admits path p) (same : ∀ q, d'.isFolderAt q = d.isFolderAt q) :
    d'.Admits path p := by
  have covers : d.Covers d' := fun q folder => (same q).trans folder
  exact ⟨admits.zero,covers.isFolder admits.folder,covers.locate admits.located,
    (same p).trans admits.free⟩

theorem readIff {path : String} (given : path ≠ "") (zero : holdsZero path = false)
    (file : asksFolder path = false) : d.read path = .ok content ↔
      ∃ p, d.locate (Path.ofText path) = .ok p ∧ d.isFolderAt p = false ∧
        d.contentAt? p = some content := by
  unfold read
  rw [if_neg given,if_neg (by simp [zero])]
  constructor
  · intro ok
    obtain ⟨p,located,ok⟩ := bindOk ok
    obtain ⟨free,ok⟩ := guardOk ok
    refine ⟨p,relabelledOk.mp located,by simpa using free,?_⟩
    split at ok
    · rename_i found
      rw [if_neg (by simp [file])] at ok
      rw [found,Except.ok.inj ok]
    · cases ok
  · rintro ⟨p,located,free,found⟩
    refine bindTotal (relabelledOk.mpr located) ?_
    rw [if_neg (by simp [free]),found]
    exact if_neg (by simp [file])

theorem sizeLocated {size : Nat} {path : String} (zero : holdsZero path = false)
    (located : d.locate (Path.ofText path) = .ok p) :
    d.size size path = if d.isFolderAt p then .ok size else
      match d.contentAt? p with
      | some content => .ok content.utf8ByteSize
      | none => .error (.disk (.missing path)) := by
  unfold Disk.size
  rw [if_neg (by simp [zero])]
  refine bindTotal (relabelledOk.mpr located) ?_
  split
  · rfl
  · cases d.contentAt? p <;> rfl

theorem thereLocated {path : String} (located : d.locate (Path.ofText path) = .ok p) :
    d.isThere path = (d.isFolderAt p || (d.contentAt? p).isSome) := by
  unfold isThere
  rw [located]

theorem lookLocated {path : String} (located : d.locate (Path.ofText path) = .ok p) :
    d.look path = .ok (d.isThere path) := by
  unfold look
  dsimp only
  rw [located]

/-- Looking a name up in a folder that is there fails only for its length, or that of the path. -/
theorem locateChild {folder : Path} {name : String} (plain : Path.Plain name) (down : name ≠ "..")
    (located : d.locate folder = .ok p) (there : d.isFolderAt p = true) :
    d.locate (folder.child name) =
      if longestPath < (folder.child name).text.utf8ByteSize ∨ longestName < name.utf8ByteSize then
        .error .nameTooLong
      else .ok ⟨p.root,p.parts ++ [name]⟩ := by
  obtain ⟨_,walked⟩ := locateIff.mp located
  have parts : d.walk ⟨folder.root,[]⟩ (folder.parts ++ [name]) = d.walk p [name] := by
    rw [walkAppend]
    exact bindTotal walked rfl
  rw [Path.childPlain plain,locate]
  by_cases long : longestPath < (Path.text ⟨folder.root,folder.parts ++ [name]⟩).utf8ByteSize
  · rw [if_pos long,if_pos (.inl long)]
  rw [if_neg long,parts,walk,if_pos there,if_neg down,walk]
  by_cases large : longestName < name.utf8ByteSize
  · rw [if_pos large,if_pos (.inr large)]
  · rw [if_neg large,if_neg (not_or.mpr ⟨long,large⟩)]

end Montage.Disk
