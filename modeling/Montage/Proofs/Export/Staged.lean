import Montage.Proofs.Disk.Lent
import Montage.Proofs.Export.Launched
import Montage.Proofs.Render.SideFiles

/-! One export, step by step. What is refused is refused before the renderer is tried; when it is
tried, every text that is drawn stands in its file. -/
namespace Montage
variable {w : World} {tl : Timeline} {o : Options} {p : Plan} {out : Path} {d d' : Disk}
  {fs : List SideFile} (runs : List Run) (tool : String) (quiet : Bool)

/-- Puts files down, one after another. -/
def Disk.writeAll (d : Disk) (fs : List SideFile) : Except Fault Disk :=
  fs.foldlM (fun d f => d.write (Path.ofText f.path) f.content) d

namespace Disk

theorem writeAllCons {f : SideFile} (ok : d.writeAll (f :: fs) = .ok d') :
    ∃ q, d.Admits (Path.ofText f.path) q ∧ halfRun? f.content.toList = none ∧
      (d.put q f.content).writeAll fs = .ok d' := by
  unfold writeAll at ok
  rw [List.foldlM_cons] at ok
  obtain ⟨mid,first,ok⟩ := bindOk ok
  obtain ⟨q,admits,whole,rfl⟩ := writeIff.mp first
  exact ⟨q,admits,whole,ok⟩

theorem writeAllFault {f : Fault} (bad : d.writeAll fs = .error f) :
    ∃ (e : Disk) (g : SideFile), e.write (Path.ofText g.path) g.content = .error f := by
  induction fs generalizing d with
  | nil => cases bad
  | cons g fs ih =>
    unfold writeAll at bad
    rw [List.foldlM_cons] at bad
    rcases bindError bad with here | ⟨mid,_,later⟩
    · exact ⟨d,g,here⟩
    · exact ih later

/-- Nothing is in the way of a file at a path, nor of its content. -/
structure Takes (d : Disk) (path : Path) (content : String) : Prop where
  admits : ∃ q, d.Admits path q
  whole : ∀ c ∈ content.toList, isHalfCode (codeOf c) = false

theorem Takes.same {path : Path} {content : String} (takes : d.Takes path content)
    (same : ∀ q, d'.isFolderAt q = d.isFolderAt q) : d'.Takes path content := by
  obtain ⟨q,admits⟩ := takes.admits
  exact ⟨⟨q,admits.same same⟩,takes.whole⟩

/-- Files that are put down are in no other's way. -/
theorem writeAllIff : (∃ d', d.writeAll fs = .ok d') ↔
    ∀ f ∈ fs, d.Takes (Path.ofText f.path) f.content := by
  induction fs generalizing d with
  | nil => exact iff_of_true ⟨d,rfl⟩ (by simp)
  | cons f fs ih =>
    rw [List.forall_mem_cons]
    constructor
    · rintro ⟨d',ok⟩
      obtain ⟨q,admits,whole,ok⟩ := writeAllCons ok
      refine ⟨⟨⟨q,admits⟩,wholeIff.mp whole⟩,fun g mem => ?_⟩
      exact (ih.mp ⟨d',ok⟩ g mem).same fun p => (putFolders admits _ p).symm
    · rintro ⟨⟨⟨q,admits⟩,whole⟩,later⟩
      obtain ⟨d',ok⟩ := ih.mpr fun g mem => (later g mem).same (putFolders admits f.content)
      refine ⟨d',?_⟩
      unfold writeAll
      rw [List.foldlM_cons]
      exact bindTotal (writeIff.mpr ⟨q,admits,wholeIff.mpr whole,rfl⟩) ok

/-- What every single file leaves as it was, all of them do. -/
theorem writeAllKeeps {P : Disk → Prop} (each : ∀ f ∈ fs, ∀ d q, Admits d (Path.ofText f.path) q →
    P d → P (d.put q f.content)) (ok : d.writeAll fs = .ok d') (start : P d) : P d' := by
  induction fs generalizing d with
  | nil =>
    cases Except.ok.inj ok
    exact start
  | cons f fs ih =>
    obtain ⟨here,later⟩ := List.forall_mem_cons.mp each
    obtain ⟨q,admits,_,ok⟩ := writeAllCons ok
    exact ih later ok (here d q admits start)

theorem writeAllFolders (ok : d.writeAll fs = .ok d') (q : Path) :
    d'.isFolderAt q = d.isFolderAt q :=
  writeAllKeeps (P := fun e => e.isFolderAt q = d.isFolderAt q)
    (fun _ _ _ _ admits same => (putFolders admits _ q).trans same) ok rfl

theorem Admits.straight {path q : Path} (admits : d.Admits path q) (straight : ".." ∉ path.parts) :
    q = path :=
  walkStraight straight (locateIff.mp admits.located).2

theorem writeAllRead (straight : ∀ f ∈ fs, ".." ∉ (Path.ofText f.path).parts)
    (apart : (fs.map fun f => Path.ofText f.path).Nodup) (ok : d.writeAll fs = .ok d') :
    ∀ f ∈ fs, d'.Admits (Path.ofText f.path) (Path.ofText f.path) ∧
      d'.contentAt? (Path.ofText f.path) = some f.content := by
  induction fs generalizing d with
  | nil => simp
  | cons f fs ih =>
    obtain ⟨here,later⟩ := List.forall_mem_cons.mp straight
    obtain ⟨other,apart⟩ := List.nodup_cons.mp apart
    obtain ⟨q,admits,_,ok⟩ := writeAllCons ok
    have same := admits.straight here
    subst same
    refine List.forall_mem_cons.mpr ⟨⟨?_,?_⟩,ih later apart ok⟩
    · exact admits.same fun q => (writeAllFolders ok q).trans (putFolders admits _ q)
    · refine writeAllKeeps (P := fun e => e.contentAt? (Path.ofText f.path) = some f.content)
        (fun g mem e q admits' kept => ?_) ok (by rw [putContent,if_pos rfl])
      rw [putContent,if_neg,kept]
      rintro same
      rw [admits'.straight (later g mem)] at same
      exact other (List.mem_map.mpr ⟨g,mem,same.symm⟩)

theorem Lent.writeAll {work : Path} {e : Disk} (lent : e.Lent work d)
    (ok : d.writeAll fs = .ok d') : e.Lent work d' :=
  writeAllKeeps (P := fun d => e.Lent work d) (fun _ _ _ _ admits kept => kept.put admits _) ok lent

/-- A path that ends in a letter is that of a file. -/
theorem endsFile {path : String} {cs : List Char} {c : Char} (ends : path.toList = cs ++ [c])
    (slash : c ≠ '/') (dot : c ≠ '.') : path ≠ "" ∧ asksFolder path = false := by
  constructor
  · rintro rfl
    simp at ends
  · unfold asksFolder
    rw [ends,List.reverse_append]
    simp [slash,dot]

/-- What is at the place of a path is read under its text. -/
theorem readAdmitted {path q : Path} (normal : path.Normal) {cs : List Char} {c : Char}
    (ends : path.text.toList = cs ++ [c]) (slash : c ≠ '/') (dot : c ≠ '.') {content : String}
    (zero : holdsZero path.text = false) (located : d.locate path = .ok q)
    (free : d.isFolderAt q = false) (there : d.contentAt? q = some content) :
    d.read path.text = .ok content := by
  obtain ⟨given,file⟩ := endsFile ends slash dot
  exact (readIff given zero file).mpr ⟨q,by rw [Path.reread normal]; exact located,free,there⟩

end Disk

theorem Path.childEnds {name : String} (plain : Plain name) (folder : Path) {front : List Char}
    {c : Char} (ends : name.toList = front ++ [c]) :
    ∃ cs, (folder.child name).text.toList = cs ++ [c] := by
  obtain ⟨ahead,written⟩ := childText folder
  exact ⟨ahead.toList ++ front,by rw [written name plain,String.toList_append,ends,
    List.append_assoc]⟩

theorem Path.notUp {name : String} {c : Char} (mem : c ∈ name.toList) (dot : c ≠ '.') :
    name ≠ ".." := by
  rintro rfl
  have dots : c = '.' ∨ c = '.' := by simpa using mem
  exact dot (dots.elim id id)

/-- The name of the output of an export that begins at this millisecond. -/
def outputName (stamp : Int) : String := "output-" ++ toString stamp ++ ".mp4"

theorem outputChars (stamp : Int) : (outputName stamp).toList =
    "output-".toList ++ ((toString stamp).toList ++ ".mp4".toList) := by
  unfold outputName
  simp

theorem stampLetters {stamp : Int} {c : Char} (mem : c ∈ (toString stamp).toList) :
    c = '-' ∨ c.isDigit = true := by
  have digits (n : Nat) (mem : c ∈ (toString n).toList) : c.isDigit = true :=
    Nat.isDigit_of_mem_toDigits (b := 10) (n := n) (by decide) (by decide) (by simpa using mem)
  rw [Int.toString_eq_repr,Int.repr_eq_if] at mem
  split at mem
  · exact .inr (digits _ mem)
  · rw [String.toList_append] at mem
    rcases List.mem_append.mp mem with minus | digit
    · exact .inl (List.mem_singleton.mp minus)
    · exact .inr (digits _ digit)

theorem outputLetters {stamp : Int} {c : Char} (mem : c ∈ (outputName stamp).toList) :
    c ∈ "output-.mp4".toList ∨ c.isDigit = true := by
  have front : "output-".toList ⊆ "output-.mp4".toList := by decide
  have ending : ".mp4".toList ⊆ "output-.mp4".toList := by decide
  have minus : '-' ∈ "output-.mp4".toList := by decide
  rw [outputChars] at mem
  rcases List.mem_append.mp mem with first | rest
  · exact .inl (front first)
  rcases List.mem_append.mp rest with number | last
  · rcases stampLetters number with rfl | digit
    · exact .inl minus
    · exact .inr digit
  · exact .inl (ending last)

theorem outputPlain (stamp : Int) : Path.Plain (outputName stamp) := by
  have letter : 'o' ∈ (outputName stamp).toList := by
    rw [outputChars]
    exact List.mem_append_left _ (by decide)
  refine ⟨fun slash => ?_,fun none => ?_,fun dot => ?_⟩
  · exact absurd (outputLetters slash) (by decide)
  · rw [none] at letter
    exact absurd letter (by decide)
  · rw [dot] at letter
    exact absurd letter (by decide)

theorem outputDown (stamp : Int) : outputName stamp ≠ ".." := by
  have letter : 'o' ∈ (outputName stamp).toList := by
    rw [outputChars]
    exact List.mem_append_left _ (by decide)
  exact Path.notUp letter (by decide)

theorem outputEnds (folder : Path) (stamp : Int) :
    ∃ cs, (folder.child (outputName stamp)).text.toList = cs ++ ['4'] := by
  have chars : (outputName stamp).toList =
      ("output-".toList ++ ((toString stamp).toList ++ ".mp".toList)) ++ ['4'] := by
    rw [outputChars]
    simp
  exact Path.childEnds (outputPlain stamp) folder chars

theorem outputZero {folder : Path} (normal : folder.Normal) (stamp : Int)
    (zero : Disk.holdsZero folder.text = false) :
    Disk.holdsZero (folder.child (outputName stamp)).text = false := by
  have plain := outputPlain stamp
  rw [Bool.eq_false_iff] at zero ⊢
  intro held
  obtain ⟨part,mem,inside⟩ := (Disk.zeroIff (Path.childNormal normal plain)).mp held
  rw [Path.childPlain plain] at mem
  rcases List.mem_append.mp mem with above | last
  · exact zero ((Disk.zeroIff normal).mpr ⟨part,above,inside⟩)
  · rw [List.mem_singleton.mp last] at inside
    exact absurd (outputLetters inside) (by decide)

def World.work (w : World) : Path := Path.ofText w.workFolder

/-- What is told of an export in the end, when the files are `after`. -/
def World.reported (w : World) (name out : String) (r : Except Fault String) (after : Disk) :
    Except Fault Artifact :=
  r >>= fun _ => (after.size w.folderSize out).map fun size => ⟨name,out,size⟩

theorem Disk.Lent.acted {found : Disk} (lent : d.Lent w.work found) (normal : out.Normal)
    (tool : Tool) : d.Lent w.work (tool.act found (some out.text)).2 := by
  rcases actCases tool found normal with still | ⟨q,content,admits,put⟩
  · rw [still]
    exact lent
  · rw [put]
    exact lent.put admits content

theorem Disk.Lent.tries {found : Disk} (lent : d.Lent w.work found) (normal : out.Normal)
    (command : List String) : d.Lent w.work (w.tries command out.text found).2 := by
  unfold World.tries
  split
  · exact lent
  · exact lent.acted normal w.tool

namespace Timeline

/-- What an export compiles with. -/
def exportOptions (w : World) (o : Options) (out : Path) : Options :=
  { o with output := out.text, workFolder := w.workFolder }

/-- The plan, and the files once the texts of overlays are put down. -/
def staged (w : World) (tl : Timeline) (o : Options) (d : Disk) : Except Fault (Plan × Disk) := do
  let p ← tl.compile { o with font := w.font d }
  let d ← d.writeAll p.sideFiles
  return (p,d)

theorem stagedSource (ok : tl.staged w o d = .ok (p,d')) :
    tl.compile { o with font := w.font d } = .ok p ∧ d.writeAll p.sideFiles = .ok d' := by
  obtain ⟨q,planned,ok⟩ := bindOk ok
  obtain ⟨e,written,last⟩ := bindOk ok
  obtain ⟨rfl,rfl⟩ := Prod.mk.inj (Except.ok.inj last)
  exact ⟨planned,written⟩

theorem compileOutput (ok : tl.compile o = .ok p) : p.output = o.output := by
  obtain ⟨_,_,_,_,_,_,_,rfl⟩ := compileSource ok
  rfl

theorem sidePlace (o : Options) (i : Nat) : Path.ofText (Picture.sidePath o i) =
    (Path.ofText o.workFolder).child ("text_" ++ toString i ++ ".txt") :=
  Path.reread (Path.childNormal (Path.ofTextNormal _) (sideNamePlain i))

theorem sideStraight (straight : ".." ∉ (Path.ofText o.workFolder).parts) (i : Nat) :
    ".." ∉ (Path.ofText (Picture.sidePath o i)).parts := by
  have letter : '_' ∈ ("text_" ++ toString i ++ ".txt").toList := by simp
  rw [sidePlace,Path.childPlain (sideNamePlain i)]
  intro mem
  rcases List.mem_append.mp mem with above | last
  · exact straight above
  · exact Path.notUp letter (by decide) (List.mem_singleton.mp last).symm

theorem sideApart (tl : Timeline) (o : Options) :
    ((Picture.textFiles tl o).map fun f => Path.ofText f.path).Nodup := by
  have injective : Function.Injective fun i => Path.ofText (Picture.sidePath o i) := by
    intro i j same
    refine sidePathInjective o ?_
    have places : (Path.ofText o.workFolder).child ("text_" ++ toString i ++ ".txt") =
        (Path.ofText o.workFolder).child ("text_" ++ toString j ++ ".txt") := by
      rw [← sidePlace,← sidePlace]
      exact same
    exact congrArg Path.text places
  exact Picture.textFilesApart Path.ofText injective

theorem textsRead (straight : ".." ∉ (Path.ofText o.workFolder).parts)
    (written : d.writeAll (Picture.textFiles tl o) = .ok d') :
    ∀ x ∈ Picture.placedTexts tl, d'.read (Picture.sidePath o x.1) = .ok x.2.1.content := by
  intro x mem
  have places : ∀ f ∈ Picture.textFiles tl o, ".." ∉ (Path.ofText f.path).parts := by
    intro f inside
    obtain ⟨y,_,rfl⟩ := List.mem_map.mp inside
    exact sideStraight straight y.1
  have stored : ⟨Picture.sidePath o x.1,x.2.1.content⟩ ∈ Picture.textFiles tl o :=
    List.mem_map.mpr ⟨x,mem,rfl⟩
  obtain ⟨admits,there⟩ := Disk.writeAllRead places (sideApart tl o) written _ stored
  have plain := sideNamePlain x.1
  have normal := Path.childNormal (Path.ofTextNormal o.workFolder) plain
  have chars : ("text_" ++ toString x.1 ++ ".txt").toList =
      ("text_".toList ++ ((toString x.1).toList ++ ".tx".toList)) ++ ['t'] := by simp
  obtain ⟨cs,ends⟩ := Path.childEnds plain (Path.ofText o.workFolder) chars
  dsimp only at admits there
  rw [sidePlace] at admits there
  exact Disk.readAdmitted normal ends (by decide) (by decide) admits.zero admits.located
    admits.free there

theorem renderFailed {f : Fault} (bad : tl.staged w o d = .error f) :
    (tl.render w o tool quiet).Comes (d,runs) (.error f) (d,runs) := by
  unfold Timeline.render
  refine .reading fun t scene => ?_
  obtain ⟨rfl,_⟩ := Prod.mk.inj scene
  dsimp only
  rcases bindError bad with unplanned | ⟨p,planned,bad⟩
  · rw [unplanned]
    exact (Program.Comes.lifted (.error f) _).bindFailed
  · rw [planned]
    refine (Program.Comes.lifted (.ok p) _).bind (Program.Comes.bindFailed ?_)
    rcases bindError bad with unwritten | ⟨d',_,last⟩
    · exact .onDiskFailed unwritten runs
    · cases last

theorem renderStaged (staged : tl.staged w o d = .ok (p,d')) (normal : out.Normal)
    (goes : o.output = out.text) (above : d'.makeFolder out.parent = .ok d') :
    let tries := w.tries (p.command tool) out.text d'
    (tl.render w o tool quiet).Comes (d,runs) (tries.1.map fun _ => ())
      (tries.2,runs ++ [⟨p.command tool,d'⟩]) := by
  intro tries
  obtain ⟨planned,written⟩ := stagedSource staged
  have tried := (runTries (w := w) runs tool quiet normal ((compileOutput planned).trans goes)
    above).discarded
  unfold Timeline.render
  refine .reading fun t scene => ?_
  obtain ⟨rfl,_⟩ := Prod.mk.inj scene
  dsimp only
  rw [planned]
  refine (Program.Comes.lifted (.ok p) _).bind ((Program.Comes.onDisk written runs).bind ?_)
  rcases told : tries.1.map fun _ => () with f | _
  · rw [told] at tried
    refine tried.handled ?_
    -- What is shown before a fault is passed on changes no file.
    cases f with
    | toolFailed code diagnostic => exact (Program.Comes.tell _ _ _).bind (.fail _ _)
    | outputMissing path => exact (Program.Comes.tell _ _ _).bind (.fail _ _)
    | _ => exact .fail _ _
  · rw [told] at tried
    exact tried.caught

/-- An export once its folder is there and the clock has been read. -/
def exportStamped (w : World) (tl : Timeline) (folder : Path) (stamp : Int) (o : Options)
    (tool : String) (quiet : Bool) : Program Artifact := do
  let output := folder.child (outputName stamp)
  Program.withFolder w.work <| render w tl (exportOptions w o output) tool quiet
  let size ← (← get).disk.size w.folderSize output.text
  let elapsed := Decimal.fixed 1 (w.ticks.2 - w.ticks.1)
  Program.tell quiet
    ("  DONE   " ++ output.text ++ " — " ++ toString size ++ " bytes, " ++ elapsed ++ "s wall")
  return ⟨outputName stamp,output.text,size⟩

section
variable {folder : String} {stamp : Int} {r : Except Fault Artifact} {s : Disk × List Run}

theorem exportUnsourced {f : Fault} (bad : tl.checkSourcesOn d = .error f) :
    (tl.exportTo w folder o tool quiet).Comes (d,runs) (.error f) (d,runs) := by
  unfold exportTo
  refine .reading fun t scene => ?_
  obtain ⟨rfl,_⟩ := Prod.mk.inj scene
  rw [bad]
  exact (Program.Comes.lifted (.error f) _).bindFailed

theorem exportUntimed {f : Fault} (sourced : tl.checkSourcesOn d = .ok ())
    (made : d.makeFolder (Path.ofText folder) = .ok d')
    (unread : Clock.milliseconds w.now = .error f) :
    (tl.exportTo w folder o tool quiet).Comes (d,runs) (.error f) (d',runs) := by
  unfold exportTo
  refine .reading fun t scene => ?_
  obtain ⟨rfl,_⟩ := Prod.mk.inj scene
  rw [sourced,unread]
  exact (Program.Comes.lifted (.ok ()) _).bind ((Program.Comes.onDisk made runs).bind
    (Program.Comes.lifted (.error f) _).bindFailed)

theorem exportTimed (sourced : tl.checkSourcesOn d = .ok ())
    (made : d.makeFolder (Path.ofText folder) = .ok d')
    (read : Clock.milliseconds w.now = .ok stamp)
    (rest : (exportStamped w tl (Path.ofText folder) stamp o tool quiet).Comes (d',runs) r s) :
    (tl.exportTo w folder o tool quiet).Comes (d,runs) r s := by
  unfold exportTo
  refine .reading fun t scene => ?_
  obtain ⟨rfl,_⟩ := Prod.mk.inj scene
  rw [sourced,read]
  exact (Program.Comes.lifted (.ok ()) _).bind ((Program.Comes.onDisk made runs).bind
    ((Program.Comes.lifted (.ok stamp) _).bind rest))

end

section
variable {folder : Path} {stamp : Int}

theorem stampedFailed {f : Fault} (bad : tl.staged w
      (exportOptions w o (folder.child (outputName stamp))) (d.lend w.work) = .error f) :
    (exportStamped w tl folder stamp o tool quiet).Comes (d,runs) (.error f)
      ((d.lend w.work).removeFolder w.work,runs) :=
  (Program.Comes.withFolder (renderFailed runs tool quiet bad)).bindFailed

theorem stampedTried (staged : tl.staged w
      (exportOptions w o (folder.child (outputName stamp))) (d.lend w.work) = .ok (p,d'))
    (vacant : d.Vacant w.work) (normal : folder.Normal)
    (zero : Disk.holdsZero folder.text = false) (there : d.isFolder folder = true) :
    let out := folder.child (outputName stamp)
    let tries := w.tries (p.command tool) out.text d'
    (exportStamped w tl folder stamp o tool quiet).Comes (d,runs)
      (w.reported (outputName stamp) out.text tries.1 (tries.2.removeFolder w.work))
      (tries.2.removeFolder w.work,runs ++ [⟨p.command tool,d'⟩]) := by
  intro out tries
  have plain := outputPlain stamp
  have lent := vacant.lend.writeAll (stagedSource staged).2
  have above : d'.makeFolder out.parent = .ok d' := by
    unfold out
    rw [Path.childPlain plain]
    unfold Path.parent
    rw [List.dropLast_concat]
    exact Disk.makeFolderAgain (lent.keeps.covers.isFolder there) zero
  have done := Program.Comes.withFolder
    (renderStaged runs tool quiet staged (Path.childNormal normal plain) rfl above)
  change Program.Comes (Program.withFolder w.work _) (d,runs) (tries.1.map fun _ => ())
    (tries.2.removeFolder w.work,_) at done
  unfold exportStamped World.reported
  rcases told : tries.1 with f | path
  · rw [told] at done
    exact done.bindFailed
  · rw [told] at done
    refine done.bind (.reading fun t scene => ?_)
    rw [(Prod.mk.inj scene).1]
    dsimp only
    rcases (tries.2.removeFolder w.work).size w.folderSize out.text with f | size
    · exact (Program.Comes.lifted (.error f) _).bindFailed
    · exact (Program.Comes.lifted (.ok size) _).bind
        ((Program.Comes.tell _ _ _).bind (.pure _ _))

end

/-- What an export comes to, by how far it gets: its answer, the files it leaves, and the runs. In
`before` it finds the sources; its folder is there in `d`. -/
inductive Exported (w : World) (tl : Timeline) (folder : Path) (o : Options) (tool : String)
    (before d : Disk) (runs : List Run) : Except Fault Artifact → Disk → List Run → Prop where
  | unsourced {f : Fault} (bad : tl.checkSourcesOn before = .error f) :
      Exported w tl folder o tool before d runs (.error f) before runs
  | untimed {f : Fault} (sourced : tl.checkSourcesOn before = .ok ())
      (bad : Clock.milliseconds w.now = .error f) :
      Exported w tl folder o tool before d runs (.error f) d runs
  | unstaged {stamp : Int} {f : Fault} (sourced : tl.checkSourcesOn before = .ok ())
      (clock : Clock.milliseconds w.now = .ok stamp)
      (bad : tl.staged w (exportOptions w o (folder.child (outputName stamp))) (d.lend w.work) =
        .error f) :
      Exported w tl folder o tool before d runs (.error f)
        ((d.lend w.work).removeFolder w.work) runs
  | tried {stamp : Int} {p : Plan} {found e : Disk} {r : Except Fault String}
      (sourced : tl.checkSourcesOn before = .ok ())
      (clock : Clock.milliseconds w.now = .ok stamp)
      (staged : tl.staged w (exportOptions w o (folder.child (outputName stamp)))
        (d.lend w.work) = .ok (p,found))
      (tries : w.Tries (p.command tool) (folder.child (outputName stamp)).text found r e)
      (lent : d.Lent w.work e) :
      Exported w tl folder o tool before d runs
        (w.reported (outputName stamp) (folder.child (outputName stamp)).text r
          (e.removeFolder w.work)) (e.removeFolder w.work) (runs ++ [⟨p.command tool,found⟩])

theorem exported {folder : String} {t : Trace} (made : t.disk.makeFolder (Path.ofText folder) = .ok d)
    (vacant : d.Vacant w.work) :
    let r := (tl.exportTo w folder o tool quiet).run t
    Exported w tl (Path.ofText folder) o tool t.disk d t.runs r.1 r.2.disk r.2.runs := by
  intro r
  have ended {answer : Except Fault Artifact} {e : Disk} {after : List Run}
      (comes : (tl.exportTo w folder o tool quiet).Comes (t.disk,t.runs) answer (e,after))
      (is : Exported w tl (Path.ofText folder) o tool t.disk d t.runs answer e after) :
      Exported w tl (Path.ofText folder) o tool t.disk d t.runs r.1 r.2.disk r.2.runs := by
    obtain ⟨t',ran,scene⟩ := comes t rfl
    obtain ⟨rfl,rfl⟩ := Prod.mk.inj scene
    rw [show r = _ from ran]
    exact is
  obtain ⟨zero,_,there⟩ := Disk.makeFolderOk made
  rcases answerCases (tl.checkSourcesOn t.disk) with ⟨_,sourced⟩ | ⟨f,bad⟩
  · rcases answerCases (Clock.milliseconds w.now) with ⟨stamp,clock⟩ | ⟨f,bad⟩
    · rcases answerCases (tl.staged w (exportOptions w o ((Path.ofText folder).child
        (outputName stamp))) (d.lend w.work)) with ⟨⟨p,found⟩,staged⟩ | ⟨f,bad⟩
      · have normal := Path.ofTextNormal folder
        have comes := stampedTried t.runs tool quiet staged vacant normal zero there
        have lent := (vacant.lend.writeAll (stagedSource staged).2).tries
          (Path.childNormal normal (outputPlain stamp)) (p.command tool)
        exact ended (exportTimed t.runs tool quiet sourced made clock comes)
          (.tried sourced clock staged (triesCases w _ _ _) lent)
      · exact ended (exportTimed t.runs tool quiet sourced made clock
          (stampedFailed t.runs tool quiet bad)) (.unstaged sourced clock bad)
    · exact ended (exportUntimed t.runs tool quiet sourced made bad) (.untimed sourced bad)
  · exact ended (exportUnsourced t.runs tool quiet bad) (.unsourced bad)

end Timeline

end Montage
