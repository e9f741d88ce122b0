import Montage.Proofs.Disk.Files

/-! A folder that is there for a time. While it is there, files are put down in it and elsewhere;
when it has gone, the folders are those from before, and what was put down elsewhere is still
there. -/
namespace Montage.Disk
variable {d d' : Disk} {p q path work : Path} {content : String}

/-- Nothing is at a path, but a folder can be made there. -/
structure Vacant (d : Disk) (work : Path) : Prop where
  straight : ".." ∉ work.parts
  above : d.isFolderAt work.parent = true
  folder : d.isFolderAt work = false
  file : d.contentAt? work = none

def lend (d : Disk) (work : Path) : Disk := { d with folders := d.folders ++ [work] }

/-- What has come of `d` since the folder `work` was made. -/
structure Lent (d : Disk) (work : Path) (d' : Disk) : Prop where
  keeps : d.Keeps d'
  folders : ∀ q, d'.isFolderAt q = true ↔ q = work ∨ d.isFolderAt q = true
  file : d'.contentAt? work = none

namespace Vacant

theorem last (vacant : d.Vacant work) :
    ∃ name, work = ⟨work.root,work.parent.parts ++ [name]⟩ := by
  obtain none | ⟨front,name,parts⟩ := List.eq_nil_or_concat work.parts
  · exact absurd vacant.folder (by simp [folderIff,none])
  · refine ⟨name,?_⟩
    rw [List.concat_eq_append] at parts
    unfold Path.parent
    rw [parts,List.dropLast_concat,← parts]

theorem lend (vacant : d.Vacant work) : d.Lent work (d.lend work) := by
  have keeps : d.Keeps (d.lend work) :=
    ⟨List.subset_append_left _ _,fun f stored => ⟨f,stored,rfl⟩⟩
  refine ⟨keeps,fun q => ⟨fun there => ?_,?_⟩,vacant.file⟩
  · rcases folderIff.mp there with up | here | ⟨r,stored,deep⟩ | file
    · exact .inr (folderIff.mpr (.inl up))
    · rcases List.mem_append.mp here with old | new
      · exact .inr (folderIff.mpr (.inr (.inl old)))
      · exact .inl (List.mem_singleton.mp new)
    · rcases List.mem_append.mp stored with old | new
      · exact .inr (folderIff.mpr (.inr (.inr (.inl ⟨r,old,deep⟩))))
      · cases List.mem_singleton.mp new
        obtain ⟨name,same⟩ := vacant.last
        rw [same] at deep
        rcases insideOne.mp deep with rfl | deeper
        · exact .inr vacant.above
        · exact .inr (folderAbove vacant.above deeper)
    · exact .inr (folderIff.mpr (.inr (.inr (.inr file))))
  · rintro (rfl | there)
    · exact folderIff.mpr (.inr (.inl (List.mem_append_right _ List.mem_cons_self)))
    · exact keeps.covers q there

/-- No folder that is there, and no name in one, is at the path or below it. -/
theorem apart (vacant : d.Vacant work) (there : d.isFolderAt p = true) :
    p ≠ work ∧ inside p work = false := by
  constructor
  · rintro rfl
    exact absurd there (by simp [vacant.folder])
  · by_contra within
    have above := folderAbove there (by simpa using within)
    exact absurd above (by simp [vacant.folder])

end Vacant

namespace Lent

theorem put (lent : d.Lent work d') (admits : d'.Admits path p) (content : String) :
    d.Lent work (d'.put p content) := by
  refine ⟨lent.keeps.trans (putKeeps d' p content),fun q => ?_,?_⟩
  · rw [putFolders admits]
    exact lent.folders q
  · have here := (lent.folders work).mpr (.inl rfl)
    rw [putContent,if_neg,lent.file]
    rintro rfl
    exact absurd here (by simp [admits.free])

end Lent

theorem removedContent (d : Disk) (work q : Path) :
    (d.removeFolder work).contentAt? q = if inside q work then none else d.contentAt? q := by
  unfold removeFolder contentAt?
  rw [lookupFiltered d.files fun p => !inside p work]
  cases inside q work <;> rfl

theorem removedFolder (there : (d.removeFolder work).isFolderAt q = true) :
    d.isFolderAt q = true := by
  rcases folderIff.mp there with up | here | ⟨r,stored,deep⟩ | ⟨f,stored,deep⟩
  · exact folderIff.mpr (.inl up)
  · exact folderIff.mpr (.inr (.inl (List.mem_of_mem_filter here)))
  · exact folderIff.mpr (.inr (.inr (.inl ⟨r,List.mem_of_mem_filter stored,deep⟩)))
  · exact folderIff.mpr (.inr (.inr (.inr ⟨f,List.mem_of_mem_filter stored,deep⟩)))

theorem removedHere (straight : ".." ∉ work.parts) (some : work.parts ≠ []) :
    (d.removeFolder work).isFolderAt work = false := by
  rw [Bool.eq_false_iff]
  intro there
  rcases folderIff.mp there with up | here | ⟨r,stored,deep⟩ | ⟨f,stored,deep⟩
  · obtain ⟨part,mem⟩ := List.exists_mem_of_ne_nil _ some
    exact straight (up part mem ▸ mem)
  · simpa using (List.mem_filter.mp here).2
  · simpa [deep] using (List.mem_filter.mp stored).2
  · simpa [deep] using (List.mem_filter.mp stored).2

/-- What has come of `d` when the folder has gone again. -/
structure Returned (d : Disk) (work : Path) (d' after : Disk) : Prop where
  keeps : d.Keeps after
  folders : ∀ q, after.isFolderAt q = d.isFolderAt q
  files : ∀ q, inside q work = false → after.contentAt? q = d'.contentAt? q
  gone : ∀ path, Path.ofText path = work → after.isThere path = false

theorem Vacant.gone (vacant : d.Vacant work) {after : Disk} (folder : after.isFolderAt work = false)
    (file : after.contentAt? work = none) {path : String} (same : Path.ofText path = work) :
    after.isThere path = false := by
  rw [Bool.eq_false_iff]
  intro there
  obtain ⟨p,located,found⟩ := thereIff.mp there
  have here : p = work := by
    rw [same] at located
    exact walkStraight vacant.straight (locateIff.mp located).2
  rw [here,folder,file] at found
  simp at found

theorem Lent.returned (lent : d.Lent work d') (vacant : d.Vacant work) :
    d.Returned work d' (d'.removeFolder work) := by
  have some : work.parts ≠ [] := by
    obtain ⟨name,same⟩ := vacant.last
    rw [same]
    simp
  have keeps : d.Keeps (d'.removeFolder work) := by
    constructor
    · intro p stored
      obtain ⟨other,outside⟩ := vacant.apart (folderIff.mpr (.inr (.inl stored)))
      exact List.mem_filter.mpr ⟨lent.keeps.folders stored,by simp [other,outside]⟩
    · intro f stored
      obtain ⟨g,kept,same⟩ := lent.keeps.files f stored
      refine ⟨g,List.mem_filter.mpr ⟨kept,?_⟩,same⟩
      by_contra within
      rw [same,Bool.not_eq_true,Bool.not_eq_false'] at within
      have above := folderIff.mpr (.inr (.inr (.inr ⟨f,stored,within⟩)))
      exact absurd above (by simp [vacant.folder])
  have here := removedHere (d := d') vacant.straight some
  refine ⟨keeps,fun q => ?_,fun q outside => ?_,fun path => vacant.gone here ?_⟩
  · rw [Bool.eq_iff_iff]
    refine ⟨fun there => ?_,keeps.covers q⟩
    refine ((lent.folders q).mp (removedFolder there)).resolve_left ?_
    rintro rfl
    exact absurd there (by simp [here])
  · rw [removedContent,outside]
    rfl
  · rw [removedContent,insideIrrefl]
    exact lent.file

end Montage.Disk
