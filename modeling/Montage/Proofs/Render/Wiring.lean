import Montage.Proofs.Desk
import Montage.Proofs.Render.Total

/-! Wiring. A plan obeys the rules of labels, and what can go wrong before there is one is never a
matter of labels: a timeline that only its own operations changed names a source for every clip
that plays one. -/
namespace Montage

/-- Faults that tell of what a compilation was given. -/
def Fault.OfInput (f : Fault) : Prop :=
  f = .rejected .nothingToCompile ∨ (∃ cause, f = .misused cause) ∨ f = .tooLarge

theorem notMiswired {f : Fault} (given : f.OfInput) (cause : Miswiring) : f ≠ .miswired cause := by
  rcases given with rfl | ⟨_,rfl⟩ | rfl <;> simp

theorem wholeFault {r : Except NoWhole Int} {f : Fault} (bad : whole? r = .error f) :
    f.OfInput := by
  unfold whole? at bad
  cases r with
  | ok n => cases bad
  | error e =>
    cases Except.error.inj bad
    cases e with
    | nan => exact .inr (.inl ⟨_,rfl⟩)
    | infinite => exact .inr (.inr rfl)

theorem digitsFault {n : Int} {f : Fault} (bad : checkDigits n = .error f) : f.OfInput := by
  unfold checkDigits at bad
  split at bad
  · cases bad
  · cases Except.error.inj bad
    exact .inr (.inl ⟨_,rfl⟩)

theorem colorFault {s : String} {f : Fault} (bad : filterColor s = .error f) : f.OfInput := by
  have bad := mapError bad
  unfold Color.parse at bad
  dsimp only at bad
  split at bad
  · cases bad
  split at bad
  · cases bad
  unfold Color.ofHex at bad
  dsimp only at bad
  split at bad
  · cases bad
  · cases Except.error.inj bad
    exact .inr (.inl ⟨_,rfl⟩)

theorem effectFault {e : Effect} {policy : String} {width height rate : Int} {f : Fault}
    (bad : effectFilters e policy width height rate = .error f) : f.OfInput := by
  unfold effectFilters at bad
  split at bad
  · cases bad
  split at bad
  · cases bad
  split at bad
  · split at bad
    · rcases bindError bad with radius | ⟨_,_,bad⟩
      · rcases bindError radius with whole | ⟨_,_,bad⟩
        · exact wholeFault whole
        · cases bad
      · cases bad
    · cases bad
  · cases Except.error.inj bad
    exact .inr (.inl ⟨_,rfl⟩)

theorem selectFault {effects : List Effect} {policy : String} {f : Fault}
    (bad : selectEffects effects policy = .error f) : f.OfInput := by
  unfold selectEffects at bad
  split at bad
  · cases Except.error.inj bad
    exact .inr (.inl ⟨_,rfl⟩)
  · split at bad <;> cases bad

theorem lengthFault {tl : Timeline} {o : Options} {f : Fault}
    (bad : plannedLength tl o = .error f) : f.OfInput := by
  unfold plannedLength at bad
  split at bad
  · cases bad
  unfold Timeline.length lengthOf at bad
  split at bad
  · cases bad
  rcases bindError bad with last | ⟨_,_,bad⟩
  · rcases bindError last with whole | ⟨_,_,bad⟩
    · exact wholeFault whole
    · cases bad
  · cases bad

theorem drawFault {t : Overlay} {c : Clip} {path : String} {font : Option String} {f : Fault}
    (bad : Picture.drawText t c path font = .error f) : f.OfInput := by
  rcases bindError bad with color | ⟨_,_,bad⟩
  · exact colorFault color
  rcases bindError bad with long | ⟨_,_,bad⟩
  · exact digitsFault long
  · cases bad

theorem checkPictureFault {o : Options} {f : Fault} (bad : o.checkPicture = .error f) :
    f.OfInput := by
  unfold Options.checkPicture at bad
  rcases guardError bad with rfl | bad
  · exact .inr (.inl ⟨_,rfl⟩)
  rcases bindError bad with width | ⟨_,_,bad⟩
  · exact digitsFault width
  rcases bindError bad with height | ⟨_,_,bad⟩
  · exact digitsFault height
  · exact digitsFault bad

theorem buildFault {tl : Timeline} {o : Options} {inputs : List String} {visual : List Clip}
    {f : Fault} (bad : Picture.build tl o inputs visual = .error f) : f.OfInput := by
  rcases bindError bad with numbers | ⟨_,_,bad⟩
  · exact checkPictureFault numbers
  rcases bindError bad with texts | ⟨_,_,bad⟩
  · obtain ⟨x,_,bad⟩ := mapMError texts
    rcases bindError bad with drawn | ⟨_,_,bad⟩
    · exact drawFault drawn
    · cases bad
  rcases bindError bad with selected | ⟨_,_,bad⟩
  · exact selectFault selected
  rcases bindError bad with chain | ⟨_,_,bad⟩
  · obtain ⟨x,_,bad⟩ := mapMError chain
    rcases bindError bad with made | ⟨_,_,bad⟩
    · exact effectFault made
    · cases bad
  · cases bad

namespace Timeline
variable {tl : Timeline} {o : Options} {p : Plan} {f : Fault}

theorem compileFault {timed : Prop} (kept : tl.Kept timed) (bad : tl.compile o = .error f) :
    f.OfInput := by
  obtain ⟨sources,found⟩ := sourcesOfTotal kept.sources
  rw [compileEq] at bad
  split at bad
  · exact .inl (Except.error.inj bad).symm
  rcases bindError bad with length | ⟨length,_,bad⟩
  · exact lengthFault length
  rw [found] at bad
  rcases bindError bad with bad | ⟨sources,_,bad⟩
  · cases bad
  rcases bindError bad with picture | ⟨picture,_,bad⟩
  · unfold Timeline.picture at picture
    split at picture
    · cases picture
    · exact buildFault (mapError picture)
  · cases bad

end Timeline

theorem linkPlain {s base : String} (letters : ∀ c ∈ s.toList, (!isDigit c) = true)
    (some : s.toList ≠ []) (plain : isStream base = false) (k : Nat) :
    isStream (Picture.link s base k) = false := by
  cases k with
  | zero => exact plain
  | succ k => exact noStream (by rw [Picture.link,stemNumbered letters]; exact some)

theorem numberedPlain {s : String} (letters : ∀ c ∈ s.toList, (!isDigit c) = true)
    (some : s.toList ≠ []) {count : Nat} {l : String} (mem : l ∈ numbered s count) :
    isStream l = false :=
  noStream (by rw [numberedStem letters count l mem]; exact some)

def IsInput (inputs : List String) (l : String) : Prop :=
  ∃ k, k < inputs.length ∧ (l = s!"{k}:v" ∨ l = s!"{k}:a")

def Node.Fed (inputs : List String) (n : Node) : Prop :=
  ∀ l ∈ n.inputs, isStream l = false ∨ IsInput inputs l

theorem fedOne {inputs : List String} {n : Node} {label : String} (reads : n.inputs = [label])
    (fed : isStream label = false ∨ IsInput inputs label) : n.Fed inputs := by
  intro l mem
  rw [reads] at mem
  exact List.mem_singleton.mp mem ▸ fed

theorem segmentsFed {o : Options} {inputs : List String} {visual : List Clip}
    (listed : ∀ c ∈ visual, c.source.getD "" ∈ inputs) :
    ∀ n ∈ Picture.segments o inputs visual, n.Fed inputs := by
  intro n mem
  obtain ⟨⟨c,i⟩,at',rfl⟩ := List.mem_map.mp mem
  have stored := listed c (List.fst_mem_of_mem_zipIdx at')
  exact fedOne rfl (.inr ⟨_,(sourceNumber stored).1,.inl rfl⟩)

theorem tracksFed {length : Float} {inputs : List String} {audio : List Clip}
    (listed : ∀ c ∈ audio, c.source.getD "" ∈ inputs) :
    ∀ n ∈ Sound.tracks length inputs audio, n.Fed inputs := by
  intro n mem
  obtain ⟨⟨c,i⟩,at',rfl⟩ := List.mem_map.mp mem
  have stored := listed c (List.fst_mem_of_mem_zipIdx at')
  exact fedOne rfl (.inr ⟨_,(sourceNumber stored).1,.inr rfl⟩)

theorem gatherFed {inputs : List String} {n : Node} {s : String} {count : Nat}
    (letters : ∀ c ∈ s.toList, (!isDigit c) = true) (some : s.toList ≠ [])
    (reads : n.inputs = numbered s count) : n.Fed inputs := by
  intro l mem
  rw [reads] at mem
  exact .inl (numberedPlain letters some mem)

theorem Picture.Built.fed {tl : Timeline} {o : Options} {inputs : List String}
    {visual : List Clip} {p : Picture} {texts chain : List Node} {effects : List Effect}
    (built : Built tl o inputs visual p texts effects chain) :
    ∀ n ∈ texts ++ chain, n.Fed inputs := by
  have base := joinedLabelPlain visual
  have onward := linkPlain (letters "txt" (by decide)) (by decide) base (placedTexts tl).length
  intro n mem
  rcases List.mem_append.mp mem with text | effect
  · obtain ⟨x,_,made⟩ := pairedRight built.drawn text
    obtain ⟨f,_,rfl⟩ := textNodeSource made
    exact fedOne rfl (.inl (linkPlain (letters "txt" (by decide)) (by decide) base _))
  · obtain ⟨x,_,made⟩ := pairedRight built.made effect
    obtain ⟨filters,_,rfl⟩ := effectNodeSource made
    exact fedOne rfl (.inl (linkPlain (letters "fx" (by decide)) (by decide) onward _))

namespace Timeline
variable {tl : Timeline} {o : Options} {p : Plan}

theorem compileFed (ok : tl.compile o = .ok p) : ∀ n ∈ p.graph.nodes, n.Fed p.inputs := by
  obtain ⟨length,sources,picture,_,_,found,drawn,rfl⟩ := compileSource ok
  have listed : ∀ c ∈ tl.visual ++ tl.audio, c.source.getD "" ∈ distinct sources := by
    intro c mem
    obtain ⟨s,source,listed⟩ := sourcesOfOk found c mem
    rw [source]
    exact memDistinct.mpr listed
  intro n mem
  rcases List.mem_append.mp mem with seen | heard
  · rcases pictureSource drawn with ⟨_,rfl⟩ | ⟨q,_,built,rfl⟩
    · cases seen
    obtain ⟨texts,effects,chain,source⟩ := Picture.buildSource built
    change n ∈ q.nodes at seen
    rw [source.nodes,List.append_assoc] at seen
    rcases List.mem_append.mp seen with first | strung
    · rcases List.mem_append.mp first with segment | join
      · exact segmentsFed (fun c mem => listed c (List.mem_append_left _ mem)) n segment
      · unfold Picture.joined at join
        split at join
        · cases List.mem_singleton.mp join
          exact gatherFed (s := "v") (Picture.letters "v" (by decide)) (by decide) rfl
        · cases join
    · exact source.fed n strung
  · rcases List.mem_append.mp heard with track | mix
    · exact tracksFed (fun c mem => listed c (List.mem_append_right _ mem)) n track
    · unfold Sound.mixed at mix
      split at mix
      · cases List.mem_singleton.mp mix
        exact gatherFed (s := "a") (Picture.letters "a" (by decide)) (by decide) rfl
      · cases mix

theorem readsAll (ns : List Node) :
    ns.flatMap Node.reads = (ns.flatMap Node.inputs).filter (!isStream ·) := by
  rw [List.filter_flatMap]
  rfl

theorem readOnce (flow : Flow [] p.graph.nodes p.maps) (distinct : p.graph.produced.Nodup)
    (plain : ∀ l ∈ p.graph.produced, isStream l = false) :
    ∀ l ∈ p.graph.produced, (p.graph.nodes.flatMap Node.inputs ++ p.maps).count l = 1 := by
  intro l mem
  have kept := (flow.conserved (by simpa [Graph.produced] using distinct)).count_eq l
  rw [List.nil_append,readsAll,List.count_append,List.count_filter (by simp [plain l mem])] at kept
  rw [List.count_append,← kept]
  exact List.count_eq_one_of_mem distinct mem

theorem compileWired (ok : tl.compile o = .ok p) : p.Wired := by
  have fed := compileFed ok
  obtain ⟨length,sources,picture,_,_,_,drawn,rfl⟩ := compileSource ok
  obtain ⟨labels,plain⟩ := assembledLabels length drawn
  have flow := assembledFlow length drawn
  refine ⟨labels,plain,?_,readOnce flow labels plain,(assembledAccepted length drawn).2⟩
  intro before n after split l mem
  have stored : n ∈ (assembled tl o length (distinct sources) picture).graph.nodes := by
    rw [split]
    exact List.mem_append_right _ List.mem_cons_self
  rcases fed n stored l mem with plain | stream
  · right
    have read : l ∈ n.reads := List.mem_filter.mpr ⟨mem,by simp [plain]⟩
    simpa using flow.earlier split read
  · exact .inl stream

end Timeline

theorem runWired {as : List Act} (inside : ∀ a ∈ as, a.outside = false) (o : Options) :
    (∀ cause, (({} : Desk).run as).timeline.compile o ≠ .error (.miswired cause)) ∧
      ∀ p, (({} : Desk).run as).timeline.compile o = .ok p → p.Wired := by
  have kept := Desk.runChecked inside
  refine ⟨fun cause bad => ?_,fun p ok => Timeline.compileWired ok⟩
  exact notMiswired (Timeline.compileFault kept bad) cause rfl

def scene : List Act :=
  [.command 0 (.addOverlay { id := "t", content := "Hello" }),
   .command 0 (.addEffect { id := "e", kind := "zoom" }),
   .command 0 (.addClip ⟨"a","audio","audio",0,3,some "a.mp4",none,none⟩),
   .command 0 (.addClip ⟨"b","audio","audio",1,4,some "b.mp3",none,none⟩),
   .command 0 (.addClip ⟨"c","image","image",2,5,some "c.png",none,none⟩),
   .command 0 (.addClip ⟨"d","video","video",0,2,some "a.mp4",none,none⟩),
   .command 0 (.addClip ⟨"e","text","text",1,2,none,some "t",none⟩),
   .command 0 (.addClip ⟨"f","effect","effect",0,3,none,none,some "e"⟩)]

theorem scenePlanned : ∃ p, (({} : Desk).run scene).timeline.compile {} = .ok p := by
  have kept := Desk.runChecked (show ∀ a ∈ scene, a.outside = false by decide)
  refine (Timeline.compileIff kept).mpr ⟨?_,fun _ => ?_,fun _ => ⟨by decide,?_,?_⟩⟩
  · decide +kernel
  · decide +kernel
  · decide +kernel
  · decide +kernel

/-- Two segments to join, a text, an effect, and two tracks to mix, one from the file of a
segment. -/
theorem sceneWired : (∀ a ∈ scene, a.outside = false) ∧
    ∃ p, (({} : Desk).run scene).timeline.compile {} = .ok p ∧ p.Wired := by
  obtain ⟨p,ok⟩ := scenePlanned
  exact ⟨by decide,p,ok,(runWired (by decide) {}).2 p ok⟩

end Montage
