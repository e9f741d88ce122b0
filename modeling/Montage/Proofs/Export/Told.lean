import Montage.Proofs.Export.Staged

/-! What an export tells. It tries the renderer at most once, and only with every source there and
every text in its file; the work folder is gone however it ends. What it tells of the try is what the
renderer did, as long as its words can be handed over and what it prints is text, and with one
exception: a renderer that ends well and leaves the files as they are is believed where a folder has
the name of the output, and ends in a fault of the files where that name is too long. -/
namespace Montage
variable {w : World} {tl : Timeline} {o : Options} {p : Plan} {out q : Path} {d e found : Disk}
  {name : String} {command : List String}

/-- The work folder is new, and named like no output. -/
structure World.Fresh (w : World) (d : Disk) : Prop where
  vacant : d.Vacant w.work
  apart : ∀ stamp, w.work.parts.getLast? ≠ some (outputName stamp)

/-- The renderer is tried for `out`, and finds these files. -/
structure Timeline.Tried (w : World) (tl : Timeline) (o : Options) (t : Trace) (out : Path)
    (p : Plan) (found : Disk) : Prop where
  sources : ∀ c ∈ tl.clips, ∀ path, c.source = some path → path ≠ "" → t.disk.isThere path = true
  planned : ∃ font, tl.compile { exportOptions w o out with font } = .ok p
  texts : ∀ f ∈ p.sideFiles, ∃ x ∈ Picture.placedTexts tl,
    f = ⟨Picture.sidePath (exportOptions w o out) x.1,x.2.1.content⟩ ∧
      found.read f.path = .ok x.2.1.content

/-- What is to be told of a renderer that found these files, when the files are `after`. -/
inductive World.Told (w : World) (name : String) (out : Path) (found after : Disk) :
    Except Fault Artifact → Prop where
  | written {content : String} (ends : w.tool.Ends out.text found (.ok 0))
      (there : after.read out.text = .ok content) :
      Told w name out found after (.ok ⟨name,out.text,content.utf8ByteSize⟩)
  | refused {reason : String} (ends : w.tool.Ends out.text found (.error reason)) :
      Told w name out found after (.error (.toolFailed (-1) reason))
  | failed {code : Int} {complaints : String} (ends : w.tool.Ends out.text found (.ok code))
      (bad : code ≠ 0) (printed : w.tool.complaints = .text complaints) :
      Told w name out found after (.error (.toolFailed code (Diagnosis.text complaints)))
  | missing (ends : w.tool.Ends out.text found (.ok 0)) (absent : after.isThere out.text = false) :
      Told w name out found after (.error (.outputMissing out.text))

theorem World.Told.read {after : Disk} {a : Artifact}
    (told : w.Told name out found after (.ok a)) :
    ∃ content, after.read out.text = .ok content := by
  cases told with
  | written ends there => exact ⟨_,there⟩

theorem World.Told.ofRenderer {after : Disk} {f : Fault}
    (told : w.Told name out found after (.error f)) : f.OfRenderer := by
  cases told with
  | refused ends => exact .failed _ _
  | failed ends bad printed => exact .failed _ _
  | missing ends absent => exact .missing _

/-- Ends well and leaves the files as they are. -/
def Tool.Idle (tool : Tool) (out : String) (found : Disk) : Prop :=
  tool.act found (some out) = (.ok 0,found)

/-- A renderer that ends well writes to a place where no folder is, or nothing. -/
theorem idleUnless (normal : out.Normal) (acts : w.tool.act found (some out.text) = (.ok 0,e))
    (without : ∀ q, e.locate out = .ok q → e.isFolderAt q = true) : w.tool.Idle out.text found := by
  rcases actCases w.tool found normal with still | ⟨q,content,admits,put⟩
  · rw [acts] at still
    exact acts.trans (congrArg _ still)
  · rw [acts] at put
    dsimp only at put
    subst put
    have folder := without q (Disk.putLocated admits content)
    rw [Disk.putFolders admits,admits.free] at folder
    cases folder

/-- A path that is too long to be looked up, or that of a folder. -/
def Disk.Obscured (d : Disk) (path : Path) : Prop :=
  (∃ f, d.look path.text = .error f) ∨ d.isFolder path = true

/-- The place `q` of an output, in the files `e` with the work folder, and in `after` without it. -/
structure Disk.Sited (d : Disk) (out q : Path) (e after : Disk) : Prop where
  before : d.locate out = .ok q
  during : e.locate out = .ok q
  since : after.locate out = .ok q
  folder : e.isFolderAt q = d.isFolderAt q
  folder' : after.isFolderAt q = d.isFolderAt q
  content : after.contentAt? q = e.contentAt? q

theorem outputApart (fresh : w.Fresh d) (there : d.isFolderAt q = true) (stamp : Int) :
    ⟨q.root,q.parts ++ [outputName stamp]⟩ ≠ w.work ∧
      Disk.inside ⟨q.root,q.parts ++ [outputName stamp]⟩ w.work = false := by
  constructor
  · intro same
    refine fresh.apart stamp ?_
    rw [← same]
    exact List.getLast?_concat
  · rw [Bool.eq_false_iff]
    intro within
    obtain ⟨other,outside⟩ := fresh.vacant.apart there
    rcases Disk.insideOne.mp within with same | deeper
    · exact other same.symm
    · exact absurd deeper (by simp [outside])

theorem Disk.Lent.sited (lent : d.Lent w.work e) (vacant : d.Vacant w.work)
    (located : d.locate out = .ok q) (other : q ≠ w.work) (outside : inside q w.work = false) :
    d.Sited out q e (e.removeFolder w.work) := by
  have returned := lent.returned vacant
  refine ⟨located,lent.keeps.covers.locate located,returned.keeps.covers.locate located,?_,
    returned.folders q,returned.files q outside⟩
  rw [Bool.eq_iff_iff,lent.folders]
  exact or_iff_right other

/-- Only for its length can the place of an output not be found. -/
theorem outputPlace {folder : Path} (fresh : w.Fresh d) (there : d.isFolder folder = true)
    (lent : d.Lent w.work e) (stamp : Int) :
    (∃ q, d.Sited (folder.child (outputName stamp)) q e (e.removeFolder w.work)) ∨
      d.locate (folder.child (outputName stamp)) = .error .nameTooLong ∧
        e.locate (folder.child (outputName stamp)) = .error .nameTooLong := by
  obtain ⟨p,located,above⟩ := Disk.isFolderIff.mp there
  have plain := outputPlain stamp
  have down := outputDown stamp
  have covers := lent.keeps.covers
  have before := Disk.locateChild plain down located above
  have during := Disk.locateChild plain down (covers.locate located) (covers p above)
  split at before
  · rename_i long
    exact .inr ⟨before,during.trans (if_pos long)⟩
  · obtain ⟨other,outside⟩ := outputApart fresh above stamp
    exact .inl ⟨_,lent.sited fresh.vacant before other outside⟩

theorem Disk.Sited.look {after : Disk} (sited : d.Sited out q e after) (normal : out.Normal) :
    d.look out.text = .ok (d.isThere out.text) :=
  lookLocated (by rw [Path.reread normal]; exact sited.before)

theorem Disk.Sited.obscured {after : Disk} (sited : d.Sited out q e after) (normal : out.Normal) :
    d.Obscured out ↔ d.isFolderAt q = true := by
  unfold Obscured
  rw [sited.look normal,isFolderIff]
  simp [sited.before]

section
variable {after : Disk} {cs : List Char} (normal : out.Normal)
  (zero : Disk.holdsZero out.text = false) (ends : out.text.toList = cs ++ ['4'])
include normal zero

theorem lookLong (long : d.locate out = .error .nameTooLong) :
    d.look out.text = .error (.disk (.nameTooLong out.text)) := by
  unfold Disk.look
  dsimp only
  rw [Path.reread normal,long]
  exact if_neg (by simp [zero])

/-- What is told of a renderer that ended well depends on what is at the place of the output. -/
theorem reportedClean (sited : d.Sited out q e after) :
    w.reported name out.text (e.found out.text) after =
      if d.isFolderAt q then .ok ⟨name,out.text,w.folderSize⟩
      else match e.contentAt? q with
        | some content => .ok ⟨name,out.text,content.utf8ByteSize⟩
        | none => .error (.outputMissing out.text) := by
  have read := Path.reread normal
  have during : e.locate (Path.ofText out.text) = .ok q := by rw [read]; exact sited.during
  have since : after.locate (Path.ofText out.text) = .ok q := by rw [read]; exact sited.since
  unfold World.reported Disk.found
  rw [Disk.lookLocated during,Disk.thereLocated during,Disk.sizeLocated zero since,sited.folder,
    sited.folder',sited.content]
  cases d.isFolderAt q with
  | true => rfl
  | false => rcases e.contentAt? q with none | content <;> rfl

/-- A name too long to be looked up is a fault of the files. -/
theorem reportedLong (long : e.locate out = .error .nameTooLong) :
    w.reported name out.text (e.found out.text) after =
      .error (.disk (.nameTooLong out.text)) := by
  unfold World.reported Disk.found
  rw [lookLong normal zero long]
  rfl

include ends

/-- What is told of a renderer that ended well is what it did, unless a folder is in the place of
its output. -/
theorem toldSited (sited : d.Sited out q e after)
    (clean : w.tool.Ends out.text found (.ok 0)) :
    w.Told name out found after (w.reported name out.text (e.found out.text) after) ↔
      d.isFolderAt q = false := by
  have since : after.locate (Path.ofText out.text) = .ok q := by
    rw [Path.reread normal]
    exact sited.since
  rw [reportedClean normal zero sited]
  cases folder : d.isFolderAt q with
  | true =>
    refine iff_of_false (fun told => ?_) Bool.true_eq_false_eq_False
    obtain ⟨content,there⟩ := told.read
    obtain ⟨given,file⟩ := Disk.endsFile ends (by decide) (by decide)
    obtain ⟨p,located,free,_⟩ := (Disk.readIff given zero file).mp there
    cases Except.ok.inj (since.symm.trans located)
    rw [sited.folder',folder] at free
    cases free
  | false =>
    refine iff_of_true ?_ rfl
    rcases content : e.contentAt? q with _ | content
    · refine .missing clean ?_
      rw [Disk.thereLocated since,sited.folder',folder,sited.content,content]
      rfl
    · refine .written clean ?_
      exact Disk.readAdmitted normal ends (by decide) (by decide) zero sited.since
        (sited.folder'.trans folder) (sited.content.trans content)

/-- Of a renderer that ended well, only what it did at an obscured place is not told. -/
theorem toldClean (acts : w.tool.act found (some out.text) = (.ok 0,e))
    (place : (∃ q, d.Sited out q e after) ∨
      d.locate out = .error .nameTooLong ∧ e.locate out = .error .nameTooLong) :
    w.Told name out found after (w.reported name out.text (e.found out.text) after) ↔
      ¬ (w.tool.Idle out.text found ∧ d.Obscured out) := by
  have clean : w.tool.Ends out.text found (.ok 0) := congrArg Prod.fst acts
  rcases place with ⟨q,sited⟩ | ⟨long,long'⟩
  · rw [toldSited normal zero ends sited clean,sited.obscured normal]
    cases folder : d.isFolderAt q with
    | true =>
      have idle : w.tool.Idle out.text found := idleUnless normal acts fun p located => by
        cases Except.ok.inj (sited.during.symm.trans located)
        exact sited.folder.trans folder
      exact iff_of_false nofun (not_not.mpr ⟨idle,rfl⟩)
    | false => exact iff_of_true rfl fun held => nomatch held.2
  · have idle : w.tool.Idle out.text found := idleUnless normal acts fun p located => by
      rw [long'] at located
      cases located
    rw [reportedLong normal zero long']
    exact iff_of_false nofun (not_not.mpr ⟨idle,.inl ⟨_,lookLong normal zero long⟩⟩)

/-- What is told is what the renderer did if that can be heard, but for one that ends well and leaves
the files as they are, at an obscured place. -/
theorem toldIff {r : Except Fault String} (tries : w.Tries command out.text found r e)
    (place : (∃ q, d.Sited out q e after) ∨
      d.locate out = .error .nameTooLong ∧ e.locate out = .error .nameTooLong) :
    w.Told name out found after (w.reported name out.text r after) ↔
      w.Heard command out.text found ∧ ¬ (w.tool.Idle out.text found ∧ d.Obscured out) := by
  cases tries with
  | unheard unheard other =>
    exact iff_of_false (fun told => other told.ofRenderer) fun held => unheard held.1
  | refused heard acts =>
    refine iff_of_true (.refused (congrArg Prod.fst acts)) ⟨heard,fun held => ?_⟩
    cases held.1.symm.trans acts
  | failed heard acts bad printed =>
    refine iff_of_true (.failed (congrArg Prod.fst acts) bad printed) ⟨heard,fun held => bad ?_⟩
    cases held.1.symm.trans acts
    rfl
  | clean heard acts =>
    rw [toldClean normal zero ends acts place]
    exact (and_iff_right heard).symm

end

theorem missingNone {isThere : String → Bool} {clips : List Clip}
    (none : missingSources isThere clips = []) :
    ∀ c ∈ clips, ∀ path, c.source = some path → path ≠ "" → isThere path = true := by
  intro c mem path source given
  by_contra absent
  have inside : path ∈ missingSources isThere clips := by
    refine memDistinct.mpr (List.mem_filter.mpr ⟨List.mem_filterMap.mpr ⟨c,mem,source⟩,?_⟩)
    simpa [given] using absent
  rw [none] at inside
  cases inside

namespace Timeline
variable {folder : String} {tool : String} {quiet : Bool} {t : Trace}

theorem sourcesThere (ok : tl.checkSourcesOn d = .ok ()) :
    ∀ c ∈ tl.clips, ∀ path, c.source = some path → path ≠ "" → d.isThere path = true := by
  obtain ⟨_,_,ok⟩ := bindOk ok
  unfold checkSources at ok
  split at ok
  · rename_i none
    exact missingNone none
  · cases ok

theorem stagedTried (sourced : tl.checkSourcesOn t.disk = .ok ()) (straight : ".." ∉ w.work.parts)
    (staged : tl.staged w (exportOptions w o out) d = .ok (p,found)) :
    tl.Tried w o t out p found := by
  obtain ⟨planned,written⟩ := stagedSource staged
  refine ⟨sourcesThere sourced,⟨_,planned⟩,fun f mem => ?_⟩
  rcases compileTexts planned with ⟨_,_,none⟩ | ⟨_,_,texts⟩
  · rw [none] at mem
    cases mem
  · rw [texts] at mem written
    obtain ⟨x,placed,rfl⟩ := List.mem_map.mp mem
    exact ⟨x,placed,rfl,textsRead (by exact straight) written x placed⟩

/-- What an export tells is what the renderer did if that can be heard, but for one that ends well
and leaves the files as they are, at an obscured place. -/
theorem exportTold (made : t.disk.makeFolder (Path.ofText folder) = .ok d) (fresh : w.Fresh d) :
    let r := (tl.exportTo w folder o tool quiet).run t
    r.2.disk.isThere w.workFolder = false ∧
    ((∃ f, r.1 = .error f ∧ r.2.runs = t.runs) ∨
      ∃ stamp p found, Clock.milliseconds w.now = .ok stamp ∧
        let out := (Path.ofText folder).child (outputName stamp)
        tl.Tried w o t out p found ∧ r.2.runs = t.runs ++ [⟨p.command tool,found⟩] ∧
        (w.Told (outputName stamp) out found r.2.disk r.1 ↔
          w.Heard (p.command tool) out.text found ∧ ¬ (w.tool.Idle out.text found ∧ d.Obscured out))) := by
  intro r
  obtain ⟨zero,keeps,there⟩ := Disk.makeFolderOk made
  have gone : d.isThere w.workFolder = false :=
    fresh.vacant.gone fresh.vacant.folder fresh.vacant.file rfl
  have ended : Exported w tl (Path.ofText folder) o tool t.disk d t.runs r.1 r.2.disk r.2.runs :=
    exported tool quiet made fresh.vacant
  clear_value r
  obtain ⟨answer,⟨after,printed,runs,probes⟩⟩ := r
  dsimp only at ended ⊢
  cases ended with
  | unsourced bad =>
    refine ⟨?_,.inl ⟨_,rfl,rfl⟩⟩
    rw [Bool.eq_false_iff] at gone ⊢
    exact fun here => gone (keeps.isThere here)
  | untimed sourced bad => exact ⟨gone,.inl ⟨_,rfl,rfl⟩⟩
  | unstaged sourced clock bad =>
    exact ⟨(fresh.vacant.lend.returned fresh.vacant).gone _ rfl,.inl ⟨_,rfl,rfl⟩⟩
  | @tried stamp p found e r sourced clock staged tries lent =>
    obtain ⟨cs,ends⟩ := outputEnds (Path.ofText folder) stamp
    refine ⟨(lent.returned fresh.vacant).gone _ rfl,.inr ⟨stamp,p,found,clock,
      stagedTried sourced fresh.vacant.straight staged,rfl,?_⟩⟩
    exact toldIff (Path.childNormal (Path.ofTextNormal folder) (outputPlain stamp))
      (outputZero (Path.ofTextNormal folder) stamp zero) ends tries
      (outputPlace fresh there lent stamp)

def solo : Timeline where
  clips := [⟨"v","video","video",0,3,some "a/v.mp4",none,none⟩]

def hall (tool : Tool) : World where
  disk := { files := [(⟨.none,["a","v.mp4"]⟩,"")] }
  tool := tool
  now := .whole 1700000000

theorem hallFresh (tool : Tool) {d : Disk} (vacant : d.Vacant (hall tool).work) :
    (hall tool).Fresh d := by
  refine ⟨vacant,fun stamp same => ?_⟩
  have work : (Path.ofText "work").parts.getLast? = some "work" := by decide
  have name : outputName stamp = "work" := Option.some.inj (same.symm.trans work)
  have letter : 'w' ∈ (outputName stamp).toList := by
    rw [name]
    decide
  exact absurd (outputLetters letter) (by decide)

theorem screenedTold :
    let w := hall { outputSize := some 3 }
    let d : Disk := { w.disk with folders := [⟨.none,["renders"]⟩] }
    let r := (solo.exportTo w "renders" {} "ffmpeg" true).run w.start
    w.start.disk.makeFolder (Path.ofText "renders") = .ok d ∧ w.Fresh d ∧
    r.1.toOption.map Artifact.size = some 3 ∧
    r.2.disk.isThere w.workFolder = false ∧
    ((∃ f, r.1 = .error f ∧ r.2.runs = w.start.runs) ∨
      ∃ stamp p found, Clock.milliseconds w.now = .ok stamp ∧
        let out := (Path.ofText "renders").child (outputName stamp)
        solo.Tried w {} w.start out p found ∧
        r.2.runs = w.start.runs ++ [⟨p.command "ffmpeg",found⟩] ∧
        (w.Told (outputName stamp) out found r.2.disk r.1 ↔
          w.Heard (p.command "ffmpeg") out.text found ∧ ¬ (w.tool.Idle out.text found ∧ d.Obscured out))) := by
  intro w d r
  have made : w.start.disk.makeFolder (Path.ofText "renders") = .ok d := by decide
  have fresh : w.Fresh d := hallFresh _ ⟨by decide,by decide,by decide,by decide⟩
  exact ⟨made,fresh,by decide +kernel,exportTold made fresh⟩

/-- The folder that holds the source, named by going out of it and back in again and again. -/
def echoes : Path := ⟨.none,"a" :: (List.replicate 814 ["..","a"]).flatten⟩

theorem echoesParts : ∀ part ∈ echoes.parts, part = "a" ∨ part = ".." := by
  intro part mem
  rcases List.mem_cons.mp mem with rfl | later
  · exact .inl rfl
  · obtain ⟨pair,copies,inside⟩ := List.mem_flatten.mp later
    rw [(List.mem_replicate.mp copies).2] at inside
    simpa [or_comm] using inside

theorem echoesNormal : echoes.Normal := by
  intro part mem
  rcases echoesParts part mem with rfl | rfl
  · exact ⟨by decide,by decide,by decide⟩
  · exact ⟨by decide,by decide,by decide⟩

theorem echoesZero : Disk.holdsZero echoes.text = false := by
  rw [Bool.eq_false_iff]
  intro held
  obtain ⟨part,mem,inside⟩ := (Disk.zeroIff echoesNormal).mp held
  rcases echoesParts part mem with rfl | rfl
  · exact absurd inside (by decide)
  · exact absurd inside (by decide)

/-- The output in that folder. -/
def echo : Path := echoes.child "output-1700000000000.mp4"

theorem echoName : outputName 1700000000000 = "output-1700000000000.mp4" := by decide

theorem echoNormal : echo.Normal := Path.childNormal echoesNormal (echoName ▸ outputPlain _)

theorem echoHanded : Handed [echo.text] := by
  refine List.forall_mem_singleton.mpr fun c mem => ?_
  have letter : c ∈ "/.output-170mp4a".toList := by
    by_cases slash : c = '/'
    · exact slash ▸ by decide
    by_cases dot : c = '.'
    · exact dot ▸ by decide
    obtain ⟨part,there,inside⟩ := (Path.textLetters echoNormal slash dot).mp mem
    rw [echo,Path.childPlain (echoName ▸ outputPlain _)] at there
    rcases List.mem_append.mp there with above | last
    · rcases echoesParts part above with rfl | rfl
      · rw [List.mem_singleton.mp inside]
        decide
      · exact absurd (by simpa using inside) dot
    · rw [List.mem_singleton.mp last] at inside
      exact (by decide : "output-1700000000000.mp4".toList ⊆ "/.output-170mp4a".toList) inside
  have plain : ("/.output-170mp4a".toList.all fun c => c != '\x00' && c.toNat < 0xd800) = true := by
    decide
  obtain ⟨zero,low⟩ : c ≠ '\x00' ∧ c.toNat < 0xd800 := by
    simpa using List.all_eq_true.mp plain c letter
  exact ⟨zero,fun half => nomatch half.symm.trans (lowWhole low)⟩

theorem echoesSize : echoes.text.utf8ByteSize = 4071 ∧
    (echoes.child (outputName 1700000000000)).text.utf8ByteSize = 4096 := by
  have copies (n : Nat) : ((List.replicate n ["..","a"]).flatten.map
      fun part => part.utf8ByteSize + 1).sum = n * 5 := by
    induction n with
    | zero => rfl
    | succ n ih =>
      rw [List.replicate_succ,List.flatten_cons,List.map_append,List.sum_append,ih,Nat.succ_mul,
        Nat.add_comm]
      rfl
  have some : echoes.parts ≠ [] := List.cons_ne_nil _ _
  have sizes : (echoes.parts.map fun part => part.utf8ByteSize + 1).sum = 4072 := by
    rw [echoes,List.map_cons,List.sum_cons,copies]
    decide
  have size := Path.textSize (p := echoes) rfl some
  rw [sizes] at size
  have size : echoes.text.utf8ByteSize = 4071 := by omega
  refine ⟨size,?_⟩
  rw [Path.childSize (outputPlain _) some,size]
  decide

theorem echoesWalk (n : Nat) :
    (hall {}).disk.walk ⟨.none,["a"]⟩ (List.replicate n ["..","a"]).flatten = .ok ⟨.none,["a"]⟩ := by
  induction n with
  | zero => rfl
  | succ n ih =>
    rw [List.replicate_succ,List.flatten_cons]
    exact Disk.walkCons.mpr ⟨by decide,by decide,Disk.walkCons.mpr ⟨by decide,by decide,ih⟩⟩

theorem echoesThere : (hall {}).disk.isFolder echoes = true := by
  refine Disk.isFolderIff.mpr ⟨⟨.none,["a"]⟩,Disk.locateIff.mpr ⟨?_,?_⟩,by decide⟩
  · rw [echoesSize.1]
    decide
  · exact Disk.walkCons.mpr ⟨by decide,by decide,echoesWalk 814⟩

/-- Nothing but the place of the output depends on it. -/
theorem compileTo (tl : Timeline) (o : Options) (output : String) :
    tl.compile { o with output } = (tl.compile o).map fun p => { p with output } := by
  rw [compileEq,compileEq]
  split
  · rfl
  change (plannedLength tl o >>= fun length => _) = _
  rcases plannedLength tl o with f | length
  · rfl
  rcases sourcesOf (tl.visual ++ tl.audio) with f | sources
  · rfl
  change (tl.picture o _ >>= fun picture => _) = Except.map _ (tl.picture o _ >>= fun picture => _)
  rcases tl.picture o (distinct sources) with f | picture <;> rfl

theorem soloPlanned {output : String} (handed : Handed [output]) :
    ∃ p, solo.compile { output, workFolder := "work" } = .ok p ∧ p.sideFiles = [] ∧
      Handed (p.command "ffmpeg") := by
  obtain ⟨p,ok,plain⟩ := answered (x := solo.compile { workFolder := "work" })
    (fun p => p.sideFiles = [] ∧ Handed (p.command "ffmpeg")) (by decide +kernel)
  obtain ⟨none,words⟩ := of_decide_eq_true plain
  refine ⟨{ p with output },?_,none,?_⟩
  · rw [compileTo solo { workFolder := "work" },ok]
    rfl
  · unfold Handed Plan.command at words ⊢
    rw [List.forall_mem_append] at words ⊢
    exact ⟨words.1,handed⟩

/-- The renderer has ended well and has written nothing, and that is not told. -/
theorem echoesUntold :
    let w := hall {}
    let r := (solo.exportTo w echoes.text {} "ffmpeg" true).run w.start
    w.start.disk.makeFolder (Path.ofText echoes.text) = .ok w.disk ∧ w.Fresh w.disk ∧
    (∃ run, r.2.runs = [run] ∧ w.Heard run.command echo.text run.disk ∧ w.tool.Idle echo.text run.disk) ∧
    r.1 = .error (.disk (.nameTooLong echo.text)) := by
  intro w r
  have read := Path.reread echoesNormal
  have made : w.start.disk.makeFolder (Path.ofText echoes.text) = .ok w.disk := by
    rw [read]
    exact Disk.makeFolderAgain echoesThere echoesZero
  have fresh : w.Fresh w.disk := hallFresh _ ⟨by decide,by decide,by decide,by decide⟩
  refine ⟨made,fresh,?_⟩
  have sourced : solo.checkSourcesOn w.start.disk = .ok () := by decide
  have output : echoes.child (outputName 1700000000000) = echo := by rw [echoName,echo]
  obtain ⟨p,planned,none,handed⟩ := soloPlanned echoHanded
  have staged : solo.staged w (exportOptions w {} (echoes.child (outputName 1700000000000)))
      (w.disk.lend w.work) = .ok (p,w.disk.lend w.work) := by
    rw [output]
    refine bindTotal planned ?_
    rw [none]
    rfl
  have readable : w.tool.Readable := ⟨⟨_,rfl⟩,⟨_,rfl⟩⟩
  have idle : w.tool.Idle echo.text (w.disk.lend w.work) := rfl
  have comes := stampedTried [] "ffmpeg" true staged fresh.vacant echoesNormal echoesZero
    echoesThere
  dsimp only at comes
  rw [output,triesClean handed idle readable,← read] at comes
  obtain ⟨t',ran,scene⟩ := exportTimed [] "ffmpeg" true sourced made rfl comes w.start rfl
  rw [show r = _ from ran,(Prod.mk.inj scene).2]
  refine ⟨⟨_,rfl,⟨handed,fun _ _ => readable⟩,idle⟩,?_⟩
  obtain ⟨q,located,above⟩ :=
    Disk.isFolderIff.mp (fresh.vacant.lend.keeps.covers.isFolder echoesThere)
  have place := Disk.locateChild (outputPlain 1700000000000) (outputDown _) located above
  have zero := outputZero echoesNormal 1700000000000 echoesZero
  rw [if_pos (.inl (by rw [echoesSize.2]; decide)),output] at place
  rw [output] at zero
  exact reportedLong echoNormal zero place

end Timeline

end Montage
