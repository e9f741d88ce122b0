import Montage.Export
import Montage.Proofs.Disk.Files
import Montage.Proofs.Program

/-! Trying the renderer. It is tried once, with the files as they are then; what is told of it follows
from the words it is handed, from how it ended and what it printed, and from what is at the place of
its output afterwards. -/
namespace Montage
variable {w : World} {p : Plan} {out : Path} {d d' e : Disk} {command : List String}
  (runs : List Run) (tool : String) (quiet : Bool)

/-- What a renderer can be at fault for. -/
inductive Fault.OfRenderer : Fault → Prop where
  | failed (code : Int) (diagnostic : String) : OfRenderer (.toolFailed code diagnostic)
  | missing (path : String) : OfRenderer (.outputMissing path)

/-- No word holds a character of code zero, or a half that stands for no byte. -/
def Handed (command : List String) : Prop :=
  ∀ word ∈ command, ∀ c ∈ word.toList,
    c ≠ '\x00' ∧ (isHalfCode (codeOf c) = true → isByteCode (codeOf c) = true)

/-- A character below the halves is none. -/
theorem lowWhole {c : Char} (low : c.toNat < 0xd800) : isHalfCode (codeOf c) = false := by
  have under : c.toNat - 0x100000 = 0 := by omega
  unfold codeOf isHalfCode
  simp [under,Nat.not_le.mpr low]

theorem strayIff {cs : List Char} : strayRun? cs = none ↔
    ∀ c ∈ cs, isHalfCode (codeOf c) = true → isByteCode (codeOf c) = true := by
  let other (c : Char) : Bool := !(isHalfCode (codeOf c) && !isByteCode (codeOf c))
  have cut : cs.drop (cs.takeWhile other).length = cs.dropWhile other := Disk.dropAhead other cs
  have first := List.head?_dropWhile_not other cs
  have none : strayRun? cs = none ↔ cs.dropWhile other = [] := by
    unfold strayRun?
    dsimp only
    rw [cut,Option.map_eq_none_iff,Disk.wholeIff]
    cases rest : cs.dropWhile other with
    | nil => simp
    | cons c more =>
      rw [rest] at first
      have stray : isHalfCode (codeOf c) = true ∧ isByteCode (codeOf c) = false := by
        simpa [other] using first
      exact iff_of_false (fun whole => by simp [whole c List.mem_cons_self] at stray) nofun
  rw [none,List.dropWhile_eq_nil_iff]
  simp [other,imp_iff_not_or]

theorem checkWordIff {word : String} : World.checkWord word = .ok () ↔ ∀ c ∈ word.toList,
    c ≠ '\x00' ∧ (isHalfCode (codeOf c) = true → isByteCode (codeOf c) = true) := by
  have zero : Disk.holdsZero word = false ↔ ∀ c ∈ word.toList, c ≠ '\x00' := by
    unfold Disk.holdsZero
    rw [Bool.eq_false_iff,ne_eq,List.contains_iff_mem]
    exact ⟨fun without c mem same => without (same ▸ mem),fun all held => all _ held rfl⟩
  rw [forall₂_and,← zero,← strayIff]
  unfold World.checkWord
  rcases strayRun? word.toList with _ | ⟨first,last,code⟩
  · cases Disk.holdsZero word with
    | true => exact iff_of_false nofun fun held => nomatch held.1
    | false => exact iff_of_true rfl ⟨rfl,rfl⟩
  · exact iff_of_false nofun fun held => nomatch held.2

theorem checkCommandIff : World.checkCommand command = .ok () ↔ Handed command := by
  unfold World.checkCommand Handed
  rw [forMIff]
  simp only [checkWordIff]

instance : DecidablePred Handed := fun _ => decidable_of_iff _ checkCommandIff

/-- A word that cannot be handed over is no fault of the renderer. -/
theorem unhandedOther {f : Fault} (bad : World.checkCommand command = .error f) :
    ¬ f.OfRenderer := by
  intro renderer
  obtain ⟨word,_,bad⟩ := forMFailed bad
  unfold World.checkWord at bad
  rcases stray : strayRun? word.toList with _ | ⟨first,last,code⟩
  · rw [stray] at bad
    cases zero : Disk.holdsZero word with
    | true =>
      rw [zero] at bad
      cases bad
      cases renderer
    | false =>
      rw [zero] at bad
      cases bad
  · rw [stray] at bad
    cases bad
    cases renderer

/-- What the renderer prints is text. -/
structure Tool.Readable (tool : Tool) : Prop where
  listing : ∃ s, tool.listing = .text s
  complaints : ∃ s, tool.complaints = .text s

/-- How the renderer ends that is tried for `out` and finds these files. -/
def Tool.Ends (tool : Tool) (out : String) (found : Disk) (ended : Except String Int) : Prop :=
  (tool.act found (some out)).1 = ended

/-- The words of the command can be handed over, and what the renderer prints is text. -/
structure World.Heard (w : World) (command : List String) (out : String) (found : Disk) : Prop where
  handed : Handed command
  readable : ∀ code, w.tool.Ends out found (.ok code) → w.tool.Readable

/-- A try leaves the files as they are, or puts down the output. -/
theorem actCases (tool : Tool) (d : Disk) (normal : out.Normal) :
    (tool.act d (some out.text)).2 = d ∨ ∃ q content, d.Admits out q ∧
      (tool.act d (some out.text)).2 = d.put q content := by
  unfold Tool.act
  rcases tool.refusal with _ | reason
  · rcases tool.outputSize with _ | size
    · exact .inl rfl
    · dsimp only
      rw [Path.reread normal]
      cases written : d.write out (String.ofList (List.replicate size 'x')) with
      | error f => exact .inl rfl
      | ok e =>
        obtain ⟨q,admits,_,put⟩ := Disk.writeIff.mp written
        exact .inr ⟨q,_,admits,put.symm⟩
  · exact .inl rfl

/-- What came of a run that ended like this. -/
def World.finished (w : World) : Except String Int → Except Fault (Except String Finished)
  | .error reason => .ok (.error reason)
  | .ok code => do return .ok ⟨code,← w.tool.listing.read,← w.tool.complaints.read⟩

/-- The output is where it should be. -/
def Disk.found (d : Disk) (out : String) : Except Fault String := do
  if ← d.look out then .ok out else .error (.outputMissing out)

/-- What is told of what came of a run, when the files are `d`. -/
def World.judged (out : String) (r : Except String Finished) (d : Disk) : Except Fault String :=
  match r with
  | .error reason => .error (.toolFailed (-1) reason)
  | .ok ended =>
    if ended.code ≠ 0 then .error (.toolFailed ended.code (Diagnosis.text ended.complaints))
    else d.found out

/-- What a try comes to whose output goes to `out`, and the files it leaves. -/
def World.tries (w : World) (command : List String) (out : String) (d : Disk) :
    Except Fault String × Disk :=
  match checkCommand command with
  | .error f => (.error f,d)
  | .ok () =>
    let (ended,d) := w.tool.act d (some out)
    (w.finished ended >>= fun r => judged out r d,d)

theorem triesClean {out : String} (handed : Handed command)
    (acts : w.tool.act d (some out) = (.ok 0,e)) (readable : w.tool.Readable) :
    w.tries command out d = (e.found out,e) := by
  obtain ⟨⟨_,listed⟩,⟨_,printed⟩⟩ := readable
  unfold World.tries
  rw [checkCommandIff.mpr handed,acts]
  dsimp only [World.finished]
  rw [listed,printed]
  rfl

/-- How a try may come out. -/
inductive World.Tries (w : World) (command : List String) (out : String) (d : Disk) :
    Except Fault String → Disk → Prop where
  | unheard {f : Fault} {e : Disk} (unheard : ¬ w.Heard command out d) (other : ¬ f.OfRenderer) :
      Tries w command out d (.error f) e
  | refused {reason : String} {e : Disk} (heard : w.Heard command out d)
      (acts : w.tool.act d (some out) = (.error reason,e)) :
      Tries w command out d (.error (.toolFailed (-1) reason)) e
  | failed {code : Int} {complaints : String} {e : Disk} (heard : w.Heard command out d)
      (acts : w.tool.act d (some out) = (.ok code,e)) (bad : code ≠ 0)
      (printed : w.tool.complaints = .text complaints) :
      Tries w command out d (.error (.toolFailed code (Diagnosis.text complaints))) e
  | clean {e : Disk} (heard : w.Heard command out d)
      (acts : w.tool.act d (some out) = (.ok 0,e)) : Tries w command out d (e.found out) e

theorem triesCases (w : World) (command : List String) (out : String) (d : Disk) :
    w.Tries command out d (w.tries command out d).1 (w.tries command out d).2 := by
  unfold World.tries
  rcases checked : World.checkCommand command with f | ⟨⟩
  · refine .unheard (fun heard => ?_) (unhandedOther checked)
    cases (checkCommandIff.mpr heard.handed).symm.trans checked
  have handed := checkCommandIff.mp checked
  rcases acts : w.tool.act d (some out) with ⟨reason | code,e⟩
  · refine .refused ⟨handed,fun code ends => ?_⟩ acts
    cases (congrArg Prod.fst acts).symm.trans ends
  have ends : w.tool.Ends out d (.ok code) := congrArg Prod.fst acts
  dsimp only [World.finished]
  rcases listed : w.tool.listing with listing | why
  · rcases printed : w.tool.complaints with complaints | why
    · have heard : w.Heard command out d := ⟨handed,fun _ _ => ⟨⟨_,listed⟩,⟨_,printed⟩⟩⟩
      change w.Tries command out d (World.judged out (.ok ⟨code,listing,complaints⟩) e) e
      unfold World.judged
      dsimp only
      split
      · exact .failed heard acts ‹_› printed
      · have clean : code = 0 := not_not.mp ‹_›
        exact .clean heard (clean ▸ acts)
    · refine .unheard (fun heard => ?_) nofun
      obtain ⟨s,text⟩ := (heard.readable code ends).complaints
      cases printed.symm.trans text
  · refine .unheard (fun heard => ?_) nofun
    obtain ⟨s,text⟩ := (heard.readable code ends).listing
    cases listed.symm.trans text

theorem launchNoted (command : List String) (d : Disk) :
    (modify fun t => { t with runs := t.runs ++ [⟨command,t.disk⟩] } : Program Unit).Comes
      (d,runs) (.ok ()) (d,runs ++ [⟨command,d⟩]) := by
  refine .modified _ _ _ fun t scene => ?_
  obtain ⟨rfl,rfl⟩ := Prod.mk.inj scene
  rfl

theorem launchUnhanded {f : Fault} (bad : World.checkCommand command = .error f) :
    (w.launch command).Comes (d,runs) (.error f) (d,runs ++ [⟨command,d⟩]) := by
  unfold World.launch
  rw [bad]
  exact (launchNoted runs command d).bind (Program.Comes.lifted (.error f) _).bindFailed

theorem launchHanded {out : String} {ended : Except String Int}
    (handed : World.checkCommand command = .ok ()) (last : command.getLast? = some out)
    (acts : w.tool.act d (some out) = (ended,e)) :
    (w.launch command).Comes (d,runs) (w.finished ended) (e,runs ++ [⟨command,d⟩]) := by
  unfold World.launch
  rw [handed,last]
  refine (launchNoted runs command d).bind ((Program.Comes.lifted (.ok ()) _).bind
    (.reading fun t scene => ?_))
  obtain ⟨rfl,_⟩ := Prod.mk.inj scene
  rw [acts]
  refine Program.Comes.bind (.modified _ _ (e,runs ++ [⟨command,t.disk⟩]) fun t' scene => ?_) ?_
  · rw [← (Prod.mk.inj scene).2]
    rfl
  · cases ended with
    | error reason => exact .pure _ _
    | ok code =>
      dsimp only [World.finished]
      rcases w.tool.listing.read with f | listing
      · exact (Program.Comes.lifted (.error f) _).bindFailed
      · refine (Program.Comes.lifted (.ok listing) _).bind ?_
        rcases w.tool.complaints.read with f | complaints
        · exact (Program.Comes.lifted (.error f) _).bindFailed
        · exact (Program.Comes.lifted (.ok complaints) _).bind (.pure _ _)

theorem commandLast (p : Plan) : (p.command tool).getLast? = some p.output :=
  List.getLast?_concat

theorem runTries (normal : out.Normal) (goes : p.output = out.text)
    (above : d.makeFolder out.parent = .ok d) :
    let tries := w.tries (p.command tool) out.text d
    (p.run w tool quiet).Comes (d,runs) tries.1 (tries.2,runs ++ [⟨p.command tool,d⟩]) := by
  intro tries
  have last := commandLast tool p
  rw [goes] at last
  unfold Plan.run
  rw [goes,Path.reread normal]
  refine (Program.Comes.onDisk above runs).bind ((Program.Comes.tell _ _ _).bind ?_)
  unfold tries World.tries
  rcases checked : World.checkCommand (p.command tool) with f | ⟨⟩
  · exact (launchUnhanded runs checked).bindFailed
  rcases acts : w.tool.act d (some out.text) with ⟨ended,e⟩
  have launched := launchHanded runs checked last acts
  dsimp only
  rcases finished : w.finished ended with f | r
  · rw [finished] at launched
    exact launched.bindFailed
  rw [finished] at launched
  refine launched.bind ?_
  change Program.Comes _ _ (World.judged out.text r e) _
  unfold World.judged
  rcases r with reason | ended
  · exact .fail _ _
  dsimp only
  by_cases failed : ended.code ≠ 0
  · rw [if_pos failed,if_pos failed]
    exact (Program.Comes.fail _ _).bindFailed
  · rw [if_neg failed,if_neg failed]
    refine .reading fun t scene => ?_
    obtain ⟨rfl,_⟩ := Prod.mk.inj scene
    unfold Disk.found
    rcases t.disk.look out.text with f | there
    · exact (Program.Comes.lifted (.error f) _).bindFailed
    · refine (Program.Comes.lifted (.ok there) _).bind ?_
      cases there with
      | true => exact .pure _ _
      | false => exact (Program.Comes.fail _ _).bindFailed

end Montage
