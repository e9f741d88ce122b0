import Montage.Proofs.Export.Told
import Montage.Proofs.Render.Policy
import Montage.Proofs.Render.Relocated

/-! Exports that are submitted. Before one is scheduled its sources are looked for and its timeline is
compiled, but for the length alone. What is wrong with the sources, the length and the colours of
overlays is told at once. Keywords, the size and the rate of the picture, the policy for effects, the
texts, the words for the renderer and the place of the output are first looked at in the export
itself. -/
namespace Montage
variable {w : World} {tl : Timeline} {o o' : Options} {k : Keywords} {p : Plan} {out q : Path}
  {d e found after : Disk} {name : String} {command : List String} {f : Fault}

namespace Timeline

/-- A picture that can be asked for, a policy that is known, and room for every text. -/
structure Drawable (w : World) (tl : Timeline) (o : Options) (d : Disk) : Prop where
  writable : o.Writable
  policy : o.policy ∈ effectPolicies
  texts : ∀ x ∈ Picture.placedTexts tl,
    d.Takes (w.work.child ("text_" ++ toString x.1 ++ ".txt")) x.2.1.content

/-- Nothing is wrong with what is first looked at in an export. -/
structure Cleared (w : World) (tl : Timeline) (folder : Path) (k : Keywords) (tool : String)
    (d : Disk) : Prop where
  known : k.strangers = []
  drawable : tl.visual ≠ [] → tl.Drawable w k.toOptions (d.lend w.work)
  timed : ∃ stamp, Clock.milliseconds w.now = .ok stamp ∧
    let out := folder.child (outputName stamp)
    ∀ p found, tl.staged w (exportOptions w k.toOptions out) (d.lend w.work) = .ok (p,found) →
      w.Heard (p.command tool) out.text found ∧
        ¬ (w.tool.Idle out.text found ∧ ∃ f, d.look out.text = .error f)

end Timeline

theorem firstSame (e : Effect) (o o' : Options) :
    Agree (fun _ _ => True) (effectFilters e "first" o.width o.height o.rate)
      (effectFilters e "first" o'.width o'.height o'.rate) := by
  by_cases soften : e.kind = "soften"
  · rw [effectFiltersSoften soften,effectFiltersSoften soften]
    exact .same (fun _ => trivial) _
  · unfold effectFilters
    rw [if_neg soften]
    split
    · exact .answered trivial
    split
    · exact .answered trivial
    · exact .failed _

theorem layeredTotal {e : Effect} {policy : String} (allowed : e.kind ∈ allowedKinds)
    (other : policy ≠ "first") (width height rate : Int) :
    ∃ filters, effectFilters e policy width height rate = .ok filters := by
  by_cases soften : e.kind = "soften"
  · rw [effectFiltersSoften soften,if_neg other]
    exact ⟨_,rfl⟩
  · simp only [allowedKinds,List.mem_cons,List.not_mem_nil,or_false,soften] at allowed
    unfold effectFilters
    rcases allowed with amplify | fade
    · exact ⟨_,if_pos amplify⟩
    · exact ⟨_,by rw [if_neg (by simp [fade]),if_pos fade]; rfl⟩

namespace Picture
variable {inputs : List String} {visual : List Clip}

theorem textsSame (tl : Timeline) (o o' : Options) (base : String) :
    Agree (List.Forall₂ Node.Alike) (textNodes tl o base) (textNodes tl o' base) :=
  .mapM fun x _ => textRelocated o o'.output o'.workFolder o'.font base x.2 x.1.1 x.1.2.1 x.1.2.2

theorem firstChain (first : o.policy = "first") (first' : o'.policy = "first") (base : String)
    (effects : List Effect) : Agree (List.Forall₂ fun _ _ => True) (effectNodes o base effects)
      (effectNodes o' base effects) := by
  refine .mapM fun x _ => ?_
  have filters := firstSame x.1 o o'
  unfold effectNode
  rw [first,first']
  exact filters.bind fun _ _ _ => .answered trivial

theorem layeredChain {effects : List Effect} (allowed : ∀ e ∈ effects, e.kind ∈ allowedKinds)
    (other : o.policy ≠ "first") (base : String) :
    ∃ chain, effectNodes o base effects = .ok chain := by
  refine mapMTotal fun x mem => ?_
  obtain ⟨filters,ok⟩ := layeredTotal (allowed x.1 (List.fst_mem_of_mem_zipIdx mem)) other
    o.width o.height o.rate
  exact ⟨_,bindTotal ok rfl⟩

/-- What keeps a picture from being drawn that is no matter of the timeline. -/
inductive Undrawn (o : Options) : Fault → Prop where
  | unwritten {f : Fault} (bad : o.checkPicture = .error f) : Undrawn o f
  | unknown (other : o.policy ∉ effectPolicies) : Undrawn o (.misused (.effectPolicy o.policy))

/-- The policy `first` asks the most of effects; so what fails under another policy fails under it,
unless it is the policy or the picture asked for that is at fault. -/
theorem buildFirst (first : o.policy = "first") (writable : o.Writable)
    (bad : build tl o' inputs visual = .error f) :
    build tl o inputs visual = .error f ∨ Undrawn o' f := by
  have checked := pictureChecked.mpr writable
  have texts := textsSame tl o o' (joinedLabel visual)
  rcases bindError bad with unwritten | ⟨_,_,bad⟩
  · exact .inr (.unwritten unwritten)
  rcases bindError bad with undrawn | ⟨ns',drawn',bad⟩
  · exact .inl (bindTotal checked (bindFailed (texts.fault undrawn)))
  obtain ⟨ns,drawn⟩ : ∃ ns, textNodes tl o (joinedLabel visual) = .ok ns := by
    rcases texts.outcomes with ⟨g,_,bad'⟩ | ⟨ns,_,drawn,_⟩
    · rw [drawn'] at bad'
      cases bad'
    · exact ⟨ns,drawn⟩
  rcases bindError bad with unselected | ⟨effects,selected,bad⟩
  · unfold selectEffects at unselected
    split at unselected
    · rename_i unknown
      cases unselected
      exact .inr (.unknown unknown)
    · split at unselected <;> cases unselected
  rcases bindError bad with unmade | ⟨_,_,last⟩
  · by_cases first' : o'.policy = "first"
    · rw [first',← first] at selected
      exact .inl (bindTotal checked (bindTotal drawn (bindTotal selected
        (bindFailed ((firstChain first first' _ _).fault unmade)))))
    · have allowed := fun e mem => (selectedMem selected e mem).2
      obtain ⟨chain,made⟩ := layeredChain allowed first'
        (link "txt" (joinedLabel visual) (placedTexts tl).length)
      rw [made] at unmade
      cases unmade
  · cases last

end Picture

namespace Timeline

theorem pictureFirst {inputs : List String} (first : o.policy = "first") (writable : o.Writable)
    (bad : tl.picture o' inputs = .error f) :
    tl.picture o inputs = .error f ∨ tl.visual ≠ [] ∧ Picture.Undrawn o' f := by
  unfold Timeline.picture at bad ⊢
  split at bad
  · cases bad
  · rename_i some
    rw [if_neg some]
    rcases Picture.buildFirst first writable (mapError bad) with same | undrawn
    · rw [same]
      exact .inl rfl
    · exact .inr ⟨by simpa using some,undrawn⟩

theorem compileFirst (bad : tl.compile o' = .error f) (length : o'.length = o.length)
    (first : o.policy = "first") (writable : o.Writable) :
    tl.compile o = .error f ∨ tl.visual ≠ [] ∧ Picture.Undrawn o' f := by
  have planned : plannedLength tl o' = plannedLength tl o := by
    unfold plannedLength
    rw [length]
  rw [compileEq,planned] at bad
  rw [compileEq]
  split at bad
  · rename_i none
    exact .inl ((if_pos none).trans bad)
  rename_i some
  rw [if_neg some]
  rcases bindError bad with endless | ⟨length,known,bad⟩
  · exact .inl (bindFailed endless)
  rcases bindError bad with unsourced | ⟨sources,found,bad⟩
  · exact .inl (bindTotal known (bindFailed unsourced))
  rcases bindError bad with unseen | ⟨picture,_,last⟩
  · rcases pictureFirst first writable unseen with same | undrawn
    · exact .inl (bindTotal known (bindTotal found (bindFailed same)))
    · exact .inr undrawn
  · cases last

/-- A timeline is compiled for a picture that can be asked for, under a policy that is known. -/
theorem compileDrawn (ok : tl.compile o = .ok p) (seen : tl.visual ≠ []) :
    o.checkPicture = .ok () ∧ o.policy ∈ effectPolicies := by
  obtain ⟨_,_,picture,_,_,_,drawn,_⟩ := compileSource ok
  rcases pictureSource drawn with ⟨none,_⟩ | ⟨q,_,build,_⟩
  · exact absurd none seen
  · obtain ⟨texts,effects,chain,built⟩ := Picture.buildSource build
    refine ⟨built.checked,?_⟩
    by_contra unknown
    have chosen := built.selected
    unfold selectEffects at chosen
    rw [if_pos unknown] at chosen
    cases chosen

/-- The picture that is asked for when nothing is said about it. -/
theorem usualWritable (length : Option Float) : ({ length } : Options).Writable := by
  have usual : ({} : Options).Writable := by decide +kernel
  exact ⟨usual.pair,usual.width,usual.height,usual.rate⟩

theorem untimedOther (bad : Clock.milliseconds w.now = .error f) : ¬ f.OfRenderer := by
  intro renderer
  unfold Clock.milliseconds at bad
  split at bad
  · cases bad
  · obtain ⟨cause,_,rfl⟩ := relabelledError bad
    cases cause <;> cases renderer

theorem undrawnOther (undrawn : Picture.Undrawn o f) : ¬ f.OfRenderer := by
  intro renderer
  cases undrawn with
  | unwritten bad =>
    rcases checkPictureFault bad with rfl | ⟨_,rfl⟩ | rfl <;> cases renderer
  | unknown other => cases renderer

theorem unwrittenOther {fs : List SideFile} (bad : d.writeAll fs = .error f) :
    ¬ f.OfRenderer := by
  intro renderer
  obtain ⟨e,g,bad⟩ := Disk.writeAllFault bad
  rcases Disk.writeFault bad with ⟨_,rfl⟩ | ⟨_,rfl⟩ | ⟨_,_,rfl⟩ <;> cases renderer

/-- The texts of a plan can be put down, as far as there are any. -/
theorem textsTaken (ok : tl.compile o = .ok p) : (∃ d', d.writeAll p.sideFiles = .ok d') ↔
    (tl.visual ≠ [] → ∀ x ∈ Picture.placedTexts tl, d.Takes
      ((Path.ofText o.workFolder).child ("text_" ++ toString x.1 ++ ".txt")) x.2.1.content) := by
  rw [Disk.writeAllIff]
  rcases compileTexts ok with ⟨none,_,files⟩ | ⟨some,_,files⟩
  · rw [files]
    exact iff_of_true (by simp) fun some => absurd none some
  · rw [files,imp_iff_right some]
    unfold Picture.textFiles
    rw [List.forall_mem_map]
    simp only [sidePlace]

/-- Of a renderer that ended well, only the renderer can be at fault where its output can be looked
up. -/
theorem faultClean (normal : out.Normal) (zero : Disk.holdsZero out.text = false)
    (acts : w.tool.act found (some out.text) = (.ok 0,e))
    (place : (∃ q, d.Sited out q e after) ∨
      d.locate out = .error .nameTooLong ∧ e.locate out = .error .nameTooLong) :
    (∀ f, w.reported name out.text (e.found out.text) after = .error f → f.OfRenderer) ↔
      ¬ (w.tool.Idle out.text found ∧ ∃ f, d.look out.text = .error f) := by
  rcases place with ⟨q,sited⟩ | ⟨long,long'⟩
  · refine iff_of_true (fun f bad => ?_) fun held => ?_
    · rw [reportedClean normal zero sited] at bad
      split at bad
      · cases bad
      split at bad
      · cases bad
      · cases bad
        exact .missing _
    · obtain ⟨_,g,bad⟩ := held
      cases (sited.look normal).symm.trans bad
  · have idle : w.tool.Idle out.text found := idleUnless normal acts fun p located => by
      rw [long'] at located
      cases located
    refine iff_of_false (fun only => ?_) (not_not.mpr ⟨idle,_,lookLong normal zero long⟩)
    cases only _ (reportedLong normal zero long')

theorem faultIff {r : Except Fault String} (tries : w.Tries command out.text found r e)
    (normal : out.Normal) (zero : Disk.holdsZero out.text = false)
    (place : (∃ q, d.Sited out q e after) ∨
      d.locate out = .error .nameTooLong ∧ e.locate out = .error .nameTooLong) :
    (∀ f, w.reported name out.text r after = .error f → f.OfRenderer) ↔
      w.Heard command out.text found ∧
        ¬ (w.tool.Idle out.text found ∧ ∃ f, d.look out.text = .error f) := by
  cases tries with
  | unheard unheard other =>
    exact iff_of_false (fun only => other (only _ rfl)) fun held => unheard held.1
  | refused heard acts =>
    refine iff_of_true (fun f bad => ?_) ⟨heard,fun held => ?_⟩
    · cases bad
      exact .failed _ _
    · cases held.1.symm.trans acts
  | failed heard acts wrong printed =>
    refine iff_of_true (fun f bad => ?_) ⟨heard,fun held => wrong ?_⟩
    · cases bad
      exact .failed _ _
    · cases held.1.symm.trans acts
      rfl
  | clean heard acts =>
    rw [faultClean normal zero acts place]
    exact (and_iff_right heard).symm

theorem stagedDrawable
    (ok : tl.staged w (exportOptions w o out) d = .ok (p,found)) (seen : tl.visual ≠ []) :
    tl.Drawable w o d := by
  obtain ⟨planned,written⟩ := stagedSource ok
  obtain ⟨checked,known⟩ := compileDrawn planned seen
  have taken := (textsTaken planned).mp ⟨found,written⟩ seen
  exact ⟨pictureChecked.mp checked,known,taken⟩

/-- What keeps an export from its try has been told when it was submitted, unless nothing looked at
it there. -/
theorem unstagedCases (bad : tl.staged w (exportOptions w o out) d = .error f) :
    tl.compile { length := o.length } = .error f ∨
      ¬ f.OfRenderer ∧ ¬ (tl.visual ≠ [] → tl.Drawable w o d) := by
  rcases bindError bad with unplanned | ⟨p,planned,bad⟩
  · rcases compileFirst (o := { length := o.length }) unplanned rfl rfl (usualWritable _) with
      same | ⟨seen,undrawn⟩
    · exact .inl same
    · refine .inr ⟨undrawnOther undrawn,fun drawable => ?_⟩
      cases undrawn with
      | unwritten bad => cases (pictureChecked.mpr (drawable seen).writable).symm.trans bad
      | unknown other => exact other (drawable seen).policy
  rcases bindError bad with unwritten | ⟨d',_,last⟩
  · refine .inr ⟨unwrittenOther unwritten,fun drawable => ?_⟩
    obtain ⟨d',written⟩ := (textsTaken planned).mpr fun seen => (drawable seen).texts
    rw [unwritten] at written
    cases written
  · cases last

section
variable {folder : Path} {tool : String} {answer : Except Fault Artifact} {runs runs' : List Run}
  (fresh : w.Fresh d) (normal : folder.Normal) (zero : Disk.holdsZero folder.text = false)
  (there : d.isFolder folder = true)
include fresh normal zero there

theorem triedIff {stamp : Int} {found e : Disk} {r : Except Fault String}
    (tries : w.Tries command (folder.child (outputName stamp)).text found r e)
    (lent : d.Lent w.work e) : let out := folder.child (outputName stamp)
    (∀ f, w.reported (outputName stamp) out.text r (e.removeFolder w.work) = .error f →
      f.OfRenderer) ↔
      w.Heard command out.text found ∧
        ¬ (w.tool.Idle out.text found ∧ ∃ f, d.look out.text = .error f) :=
  faultIff tries (Path.childNormal normal (outputPlain stamp)) (outputZero normal stamp zero)
    (outputPlace fresh there lent stamp)

theorem exportedIff
    (ended : Exported w tl folder k.toOptions tool w.disk d runs answer after runs')
    (sourced : tl.checkSourcesOn w.disk = .ok ())
    (planned : tl.compile { length := k.length } = .ok p) (known : k.strangers = []) :
    (∀ f, answer = .error f → f.OfRenderer) ↔ tl.Cleared w folder k tool d := by
  cases ended with
  | unsourced bad =>
    rw [sourced] at bad
    cases bad
  | untimed _ bad =>
    refine iff_of_false (fun only => untimedOther bad (only _ rfl)) fun cleared => ?_
    obtain ⟨stamp,clock,_⟩ := cleared.timed
    rw [bad] at clock
    cases clock
  | unstaged _ clock bad =>
    rcases unstagedCases bad with told | ⟨other,undrawable⟩
    · rw [planned] at told
      cases told
    · exact iff_of_false (fun only => other (only _ rfl)) fun cleared => undrawable cleared.drawable
  | tried _ clock staged tries lent =>
    refine (triedIff fresh normal zero there tries lent).trans ⟨fun told =>
      ⟨known,stagedDrawable staged,_,clock,fun p found staged' => ?_⟩,fun cleared => ?_⟩
    · cases Except.ok.inj (staged.symm.trans staged')
      exact told
    · obtain ⟨stamp,clock',told⟩ := cleared.timed
      cases Except.ok.inj (clock.symm.trans clock')
      exact told _ _ staged

theorem exportedElse (place : String) (quiet : Bool)
    (ended : Exported w tl folder k.toOptions tool w.disk d runs answer after runs')
    (cleared : tl.Cleared w folder k tool d) (bad : answer = .error f) (other : ¬ f.OfRenderer) :
    tl.submit w place k tool quiet = .error f := by
  obtain ⟨stamp,clock,told⟩ := cleared.timed
  cases ended with
  | unsourced unsourced =>
    cases bad
    exact bindFailed unsourced
  | untimed _ unread =>
    rw [clock] at unread
    cases unread
  | unstaged sourced _ unstaged =>
    cases bad
    rcases unstagedCases unstaged with told | ⟨_,undrawable⟩
    · exact bindTotal sourced (bindFailed told)
    · exact absurd cleared.drawable undrawable
  | tried _ clock' staged tries lent =>
    cases Except.ok.inj (clock.symm.trans clock')
    have only := (triedIff fresh normal zero there tries lent).mpr (told _ _ staged)
    exact absurd (only f bad) other

end

variable {folder : String} {tool : String} {quiet : Bool} {t : Trace}

theorem submitSource {job : Program Artifact} (ok : tl.submit w folder k tool quiet = .ok job) :
    tl.checkSourcesOn w.disk = .ok () ∧ (∃ p, tl.compile { length := k.length } = .ok p) ∧
      job = tl.exportBy w folder k tool quiet := by
  obtain ⟨_,sourced,ok⟩ := bindOk ok
  obtain ⟨p,planned,last⟩ := bindOk ok
  exact ⟨sourced,⟨p,planned⟩,(Except.ok.inj last).symm⟩

theorem exportKnown (known : k.strangers = []) :
    tl.exportBy w folder k tool quiet = tl.exportTo w folder k.toOptions tool quiet := by
  unfold exportBy
  rw [known]

theorem exportStrange (strange : k.strangers ≠ []) (t : Trace) :
    ∃ name, ((tl.exportBy w folder k tool quiet).run t).1 =
      .error (.unusable (.unknownField name)) := by
  obtain ⟨name,others,given⟩ := List.exists_cons_of_ne_nil strange
  refine ⟨name,?_⟩
  unfold exportBy
  rw [given]
  rfl

theorem submitTold (unchanged : t.disk = w.disk)
    (made : w.disk.makeFolder (Path.ofText folder) = .ok d) (fresh : w.Fresh d) :
    (∀ job, tl.submit w folder k tool quiet = .ok job →
      ((∀ f, (job.run t).1 = .error f → f.OfRenderer) ↔
        tl.Cleared w (Path.ofText folder) k tool d)) ∧
    (tl.Cleared w (Path.ofText folder) k tool d →
      ∀ f, ((tl.exportBy w folder k tool quiet).run t).1 = .error f → ¬ f.OfRenderer →
        tl.submit w folder k tool quiet = .error f) := by
  obtain ⟨zero,_,there⟩ := Disk.makeFolderOk made
  have normal := Path.ofTextNormal folder
  have ended : Exported w tl (Path.ofText folder) k.toOptions tool t.disk d t.runs _ _ _ :=
    exported tool quiet (by rw [unchanged]; exact made) fresh.vacant
  rw [unchanged] at ended
  constructor
  · intro job ok
    obtain ⟨sourced,⟨p,planned⟩,rfl⟩ := submitSource ok
    by_cases known : k.strangers = []
    · rw [exportKnown known]
      exact exportedIff fresh normal zero there ended sourced planned known
    · obtain ⟨name,bad⟩ := exportStrange known t
      exact iff_of_false (fun only => nomatch only _ bad) fun cleared => known cleared.known
  · intro cleared f bad other
    rw [exportKnown cleared.known] at bad
    exact exportedElse fresh normal zero there _ quiet ended cleared bad other

theorem soloSubmitted :
    let w := hall { outputSize := some 3 }
    let d : Disk := { w.disk with folders := [⟨.none,["renders"]⟩] }
    w.start.disk = w.disk ∧ w.disk.makeFolder (Path.ofText "renders") = .ok d ∧ w.Fresh d ∧
    (∃ job, solo.submit w "renders" {} "ffmpeg" true = .ok job) ∧
    solo.Cleared w (Path.ofText "renders") {} "ffmpeg" d ∧
    (∀ job, solo.submit w "renders" {} "ffmpeg" true = .ok job →
      ((∀ f, (job.run w.start).1 = .error f → f.OfRenderer) ↔
        solo.Cleared w (Path.ofText "renders") {} "ffmpeg" d)) ∧
    (solo.Cleared w (Path.ofText "renders") {} "ffmpeg" d →
      ∀ f, ((solo.exportBy w "renders" {} "ffmpeg" true).run w.start).1 = .error f →
        ¬ f.OfRenderer → solo.submit w "renders" {} "ffmpeg" true = .error f) := by
  intro w d
  have made : w.disk.makeFolder (Path.ofText "renders") = .ok d := by decide
  have fresh : w.Fresh d := hallFresh _ ⟨by decide,by decide,by decide,by decide⟩
  have unchanged : w.start.disk = w.disk := rfl
  obtain ⟨job,ok,ran⟩ := answered (x := solo.submit w "renders" {} "ffmpeg" true)
    (fun job => (job.run w.start).1.toOption.isSome) (by decide +kernel)
  refine ⟨unchanged,made,fresh,⟨job,ok⟩,?_,submitTold unchanged made fresh⟩
  -- It ends without a fault, so nothing was wrong.
  refine ((submitTold unchanged made fresh).1 job ok).mp fun f bad => ?_
  rw [bad] at ran
  cases ran

/-- The policy is unknown; that comes out of the export, when it runs. -/
theorem unknownSubmitted :
    let w := hall { outputSize := some 1 }
    ∃ job, solo.submit w "renders" ({ policy := "bogus" } : Options) "ffmpeg" true = .ok job ∧
      (job.run w.start).1 = .error (.misused (.effectPolicy "bogus")) ∧
      ¬ Fault.OfRenderer (.misused (.effectPolicy "bogus")) := by
  intro w
  obtain ⟨job,ok,ran⟩ := answered
    (x := solo.submit w "renders" ({ policy := "bogus" } : Options) "ffmpeg" true)
    (fun job => (job.run w.start).1 = .error (.misused (.effectPolicy "bogus")))
    (by decide +kernel)
  exact ⟨job,ok,by simpa using ran,nofun⟩

end Timeline

end Montage
