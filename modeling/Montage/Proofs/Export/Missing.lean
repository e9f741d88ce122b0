import Montage.Proofs.Export.Told
import Montage.Proofs.Render.Inputs

/-! Sources that are not there. They are refused before anything is written, all of them in one
message; where they are all there, so is every input of a plan, although the plan collects its inputs
from other lists. A source that cannot be looked up, its name being too long, ends the check with a
fault of the files. -/
namespace Montage

theorem distinctOrdered (p : String → Bool) (xs : List String) :
    (distinct (xs.filter p)).Pairwise fun a b => xs.idxOf a < xs.idxOf b := by
  -- The positions of others grow by one when an item is put before the list.
  have later {x : String} {ys zs : List String} (apart : ∀ a ∈ zs, a ≠ x)
      (order : zs.Pairwise fun a b => ys.idxOf a < ys.idxOf b) :
      zs.Pairwise fun a b => (x :: ys).idxOf a < (x :: ys).idxOf b := by
    refine order.imp_of_mem fun {a b} here there less => ?_
    rw [List.idxOf_cons_ne _ (apart a here).symm,List.idxOf_cons_ne _ (apart b there).symm]
    omega
  induction xs with
  | nil => exact .nil
  | cons x xs ih =>
    by_cases kept : p x = true
    · rw [List.filter_cons_of_pos kept,distinct]
      have apart : ∀ a ∈ (distinct (xs.filter p)).filter (· != x), a ≠ x := fun a mem =>
        bne_iff_ne.mp (List.mem_filter.mp mem).2
      refine .cons (fun a mem => ?_) (later apart (ih.filter _))
      rw [List.idxOf_cons_self,List.idxOf_cons_ne _ (apart a mem).symm]
      exact Nat.succ_pos _
    · rw [List.filter_cons_of_neg kept]
      refine later (fun a mem same => kept ?_) ih
      exact same ▸ (List.mem_filter.mp (memDistinct.mp mem)).2

namespace Disk
variable {d : Disk} {path : String} {f : Fault}

/-- What cannot be looked up is not there. -/
theorem lookFailed (bad : d.look path = .error f) :
    d.isThere path = false ∧ path ≠ "" ∧ f.kind? = none := by
  unfold look at bad
  dsimp only at bad
  cases located : d.locate (Path.ofText path) with
  | ok p =>
    rw [located] at bad
    cases bad
  | error e =>
    rw [located] at bad
    have absent : d.isThere path = false := by
      unfold isThere
      rw [located]
    have given : path ≠ "" := by
      rintro rfl
      cases located
    refine ⟨absent,given,?_⟩
    dsimp only at bad
    split at bad
    · split at bad
      · cases bad
      · cases bad
        rfl
    · cases bad

/-- No name is as long as that. -/
theorem lookWide (d : Disk) (plain : Path.Plain path) (zero : holdsZero path = false)
    (wide : longestName < path.utf8ByteSize) :
    d.look path = .error (.disk (.nameTooLong path)) := by
  have text : Path.text ⟨.none,[path]⟩ = path := by simp [Path.text,Root.text]
  have top : d.isFolderAt ⟨.none,[]⟩ = true := by simp [isFolderAt]
  have located : d.locate (Path.ofText path) = .error .nameTooLong := by
    rw [Path.ofPlain plain,locate]
    split
    · rfl
    · rw [walk,if_pos top,if_pos wide]
  unfold look
  dsimp only
  rw [located,Path.ofPlain plain,text]
  exact if_neg (by simp [zero])

end Disk

/-- The message that lists them, a line for each. -/
def missingText (paths : List String) : String :=
  "Missing " ++ toString paths.length ++ " source file(s):\n" ++
    String.join (paths.map fun path => "  - " ++ path ++ "\n")

namespace Timeline
variable {tl : Timeline} {d : Disk} {f : Fault}

/-- The sources that clips name and that are not there, each once and in the order of first use. -/
structure Missing (tl : Timeline) (d : Disk) (paths : List String) : Prop where
  listed : ∀ path, path ∈ paths ↔
    path ≠ "" ∧ d.isThere path = false ∧ ∃ c ∈ tl.clips, c.source = some path
  once : paths.Nodup
  ordered : paths.Pairwise fun a b =>
    (tl.clips.filterMap Clip.source).idxOf a < (tl.clips.filterMap Clip.source).idxOf b

def Lookable (tl : Timeline) (d : Disk) : Prop :=
  ∀ c ∈ tl.clips, ∀ path, c.source = some path → ∃ there, d.look path = .ok there

theorem missingOf (tl : Timeline) (d : Disk) : tl.Missing d (missingSources d.isThere tl.clips) where
  listed path := by
    unfold missingSources
    rw [memDistinct,List.mem_filter,List.mem_filterMap]
    simp [and_assoc,and_comm]
  once := distinctNodup _
  ordered := distinctOrdered _ _

theorem checkedMissing (tl : Timeline) (isThere : String → Bool) :
    (checkSources isThere tl = .ok () ∧ missingSources isThere tl.clips = []) ∨
      checkSources isThere tl = .error (.rejected (.sourcesMissing (missingSources isThere tl.clips))) ∧
        missingSources isThere tl.clips ≠ [] := by
  unfold checkSources
  split
  · exact .inl ⟨rfl,‹_›⟩
  · exact .inr ⟨rfl,‹_›⟩

/-- All are looked up before any is missed; the first that cannot be ends the check. -/
theorem lookedUp (tl : Timeline) (d : Disk) :
    (tl.Lookable d ∧ tl.checkSourcesOn d = checkSources d.isThere tl) ∨
      ∃ f, tl.checkSourcesOn d = .error f ∧ f.kind? = none ∧ ¬ tl.Lookable d ∧
        ∃ path ≠ "", d.isThere path = false ∧ ∃ c ∈ tl.clips, c.source = some path := by
  rcases answerCases ((tl.clips.filterMap Clip.source).forM fun path => discard (d.look path)) with
    ⟨_,looked⟩ | ⟨f,bad⟩
  · refine .inl ⟨fun c stored path source => ?_,bindTotal looked rfl⟩
    have ok := forMIff.mp looked path (List.mem_filterMap.mpr ⟨c,stored,source⟩)
    rcases answerCases (d.look path) with there | ⟨f,bad⟩
    · exact there
    · rw [bad] at ok
      cases ok
  · obtain ⟨path,mem,failed⟩ := forMFailed bad
    obtain ⟨c,stored,source⟩ := List.mem_filterMap.mp mem
    rcases answerCases (d.look path) with ⟨there,ok⟩ | ⟨f',hidden⟩
    · rw [ok] at failed
      cases failed
    rw [hidden] at failed
    cases failed
    obtain ⟨absent,given,foreign⟩ := Disk.lookFailed hidden
    refine .inr ⟨f,bindFailed bad,foreign,fun lookable => ?_,path,given,absent,c,stored,source⟩
    obtain ⟨there,ok⟩ := lookable c stored path source
    rw [hidden] at ok
    cases ok

theorem sourcesGiven {cs : List Clip} {sources : List String} (ok : sourcesOf cs = .ok sources) :
    ∀ c ∈ cs, ∃ s, c.source = some s ∧ s ≠ "" := by
  induction cs generalizing sources with
  | nil => exact nofun
  | cons c cs ih =>
    unfold sourcesOf at ok
    obtain ⟨given,ok⟩ := guardOk ok
    obtain ⟨rest,found,_⟩ := bindOk ok
    exact List.forall_mem_cons.mpr ⟨refGiven given,ih found⟩

/-- The inputs are read off the clips that are seen and those that are heard, the check goes through
all clips. -/
theorem inputsThere {o : Options} {p : Plan} (ok : tl.checkSourcesOn d = .ok ())
    (planned : tl.compile o = .ok p) : ∀ path ∈ p.inputs, d.isThere path = true := by
  obtain ⟨length,sources,picture,_,_,found,_,rfl⟩ := compileSource planned
  intro path mem
  have named : some path ∈ (tl.visual ++ tl.audio).map Clip.source := by
    rw [sourcesOfEq found]
    exact List.mem_map_of_mem (memDistinct.mp mem)
  obtain ⟨c,played,source⟩ := List.mem_map.mp named
  have stored : c ∈ tl.clips := by
    rcases List.mem_append.mp played with seen | heard
    · exact (ofKindsMem.mp seen).1
    · exact (ofKindsMem.mp heard).1
  obtain ⟨path',source',given⟩ := sourcesGiven found c played
  cases source.symm.trans source'
  exact sourcesThere ok c stored path source given

theorem refusedIff : (∃ f, tl.checkSourcesOn d = .error f) ↔
    ∃ path ≠ "", d.isThere path = false ∧ ∃ c ∈ tl.clips, c.source = some path := by
  constructor
  · rintro ⟨f,bad⟩
    rcases lookedUp tl d with ⟨_,same⟩ | ⟨_,_,_,_,absent⟩
    · rw [same] at bad
      rcases checkedMissing tl d.isThere with ⟨ok,_⟩ | ⟨_,some⟩
      · rw [ok] at bad
        cases bad
      · obtain ⟨path,mem⟩ := List.exists_mem_of_ne_nil _ some
        exact ⟨path,((missingOf tl d).listed path).mp mem⟩
    · exact absent
  · rintro ⟨path,given,absent,c,stored,source⟩
    rcases answerCases (tl.checkSourcesOn d) with ⟨_,ok⟩ | bad
    · rw [sourcesThere ok c stored path source given] at absent
      cases absent
    · exact bad

theorem refusalTold (bad : tl.checkSourcesOn d = .error f) :
    f.kind? = some "validation" ∧ f.message = missingText (missingSources d.isThere tl.clips) ↔
      tl.Lookable d := by
  rcases lookedUp tl d with ⟨lookable,same⟩ | ⟨f',bad',foreign,hidden,_⟩
  · rw [same] at bad
    rcases checkedMissing tl d.isThere with ⟨ok,_⟩ | ⟨told,_⟩
    · rw [ok] at bad
      cases bad
    · rw [told] at bad
      cases bad
      exact iff_of_true ⟨rfl,rfl⟩ lookable
  · cases bad.symm.trans bad'
    refine iff_of_false (fun listed => ?_) hidden
    rw [foreign] at listed
    cases listed.1

theorem sourcesChecked (tl : Timeline) (d : Disk) : ∃ paths, tl.Missing d paths ∧
    ((∃ f, tl.checkSourcesOn d = .error f) ↔
      ∃ path ≠ "", d.isThere path = false ∧ ∃ c ∈ tl.clips, c.source = some path) ∧
    (∀ f, tl.checkSourcesOn d = .error f →
      (f.kind? = some "validation" ∧ f.message = missingText paths ↔ tl.Lookable d)) ∧
    (tl.checkSourcesOn d = .ok () → ∀ o p, tl.compile o = .ok p →
      ∀ path ∈ p.inputs, d.isThere path = true) :=
  ⟨_,missingOf tl d,refusedIff,fun _ bad => refusalTold bad,fun ok _ _ planned =>
    inputsThere ok planned⟩

theorem tooLongUntold (path : String) (paths : List String) :
    (Fault.disk (.nameTooLong path)).message ≠ missingText paths := by
  intro same
  have shown : (Fault.disk (.nameTooLong path)).message =
      "[Errno 36] File name too long: " ++ Quoted.text path := rfl
  have first := congrArg (·.toList.head?) (shown.symm.trans same)
  simp [missingText] at first

def longName : String := String.ofList (List.replicate 256 'x')

def playing (path : String) : Timeline :=
  { clips := [⟨"a","audio","audio",0,1,some path,none,none⟩] }

theorem playingHidden {path : String} (hidden : d.look path = .error f) :
    (playing path).checkSourcesOn d = .error f := by
  have dropped : (discard (d.look path) : Except Fault PUnit) = .error f := by
    rw [hidden]
    rfl
  exact bindFailed (bindFailed dropped)

/-- A file whose name no file system takes is not there, but no message says so. -/
theorem longNameUnlisted : ¬ ∀ (tl : Timeline) (d : Disk) (f : Fault),
    tl.checkSourcesOn d = .error f → ∃ paths, tl.Missing d paths ∧ f.message = missingText paths := by
  intro listed
  have letters : ∀ c ∈ longName.toList, c = 'x' := by
    unfold longName
    rw [String.toList_ofList]
    exact fun c mem => List.eq_of_mem_replicate mem
  have wide : Disk.longestName < longName.utf8ByteSize := by decide +kernel
  have plain : Path.Plain longName := by
    refine ⟨fun mem => absurd (letters _ mem) (by decide),fun none => ?_,fun dot => ?_⟩
    · rw [none] at wide
      exact absurd wide (by decide)
    · rw [dot] at wide
      exact absurd wide (by decide)
  have zero : Disk.holdsZero longName = false := by
    unfold Disk.holdsZero
    rw [Bool.eq_false_iff]
    exact fun held => absurd (letters _ (List.contains_iff_mem.mp held)) (by decide)
  obtain ⟨paths,_,told⟩ := listed _ {} _ (playingHidden (Disk.lookWide {} plain zero wide))
  exact tooLongUntold longName paths told

end Timeline
end Montage
