import Montage.Proofs.Render.Captions
import Montage.Proofs.Render.Words

/-! Plans read back. Every filter but those that draw text keeps its separators in quotes; a filter
that draws text shows the paths of its two files, and their commas and semicolons are bare. So the
text of a plan gives its nodes back just where no text is drawn or no such path holds one. -/
namespace Montage

theorem Plain.append {a b : String} (first : Plain a) (second : Plain b) : Plain (a ++ b) := by
  unfold Plain
  rw [String.toList_append]
  exact List.forall_mem_append.mpr ⟨first,second⟩

theorem Plain.quoted {s : String} (plain : Plain s) : Sealed (inQuotes s) :=
  sealedQuoted fun quote => (plain _ quote).2 rfl

theorem sealedNamed {key value : String} (word : Word key) (closed : Sealed value) :
    Sealed (named key value) :=
  (word.append (by decide : Word "=")).sealed.append closed

theorem gatePlain {clock : String} (word : Word clock) (start stop : Float) :
    Plain (gate clock start stop) := by
  have comma : Plain "," := by decide
  have front : Plain ("between(" ++ clock ++ ",") :=
    (Plain.append (by decide) word.plain).append comma
  have ends (x : Float) := (Decimal.secondsWord x).plain
  exact (((front.append (ends start)).append comma).append (ends stop)).append (by decide)

namespace Filter

/-- A filter whose arguments hold no bare separator. -/
structure Guarded (f : Filter) : Prop where
  word : Word f.name
  named : f.name ≠ ""
  some : f.args ≠ []
  args : ∀ a ∈ f.args, Sealed a

variable {f : Filter}

theorem Guarded.framed (guarded : f.Guarded) : f.Framed where
  word := guarded.word
  named := guarded.named
  args a mem := (guarded.args a mem).closed
  last := ⟨_,List.getLast?_eq_some_getLast guarded.some,guarded.args _ (List.getLast_mem _)⟩

theorem Guarded.clear (guarded : f.Guarded) {c : Char} (known : c = ',' ∨ c = ';') :
    ¬ Bare c f.text := by
  rw [guarded.framed.bare known]
  rintro ⟨a,mem,bare⟩
  exact (guarded.args a mem).guarded c (cutSeparator known) bare

theorem Guarded.ofParts {name : String} {positional : List String} {options : List (String × String)}
    (words : List String) (keys : name :: options.map Prod.fst = words)
    (spelled : ∀ w ∈ words, w ≠ "" ∧ Word w) (some : positional ++ options.map Prod.snd ≠ [])
    (values : ∀ v ∈ positional ++ options.map Prod.snd, Sealed v) :
    (make name positional options).Guarded := by
  rw [← keys] at spelled
  obtain ⟨⟨named,word⟩,later⟩ := List.forall_mem_cons.mp spelled
  obtain ⟨bare,valued⟩ := List.forall_mem_append.mp values
  refine ⟨word,named,?_,List.forall_mem_append.mpr ⟨bare,List.forall_mem_map.mpr ?_⟩⟩
  · simpa [make] using some
  · intro x mem
    exact sealedNamed (later _ (List.mem_map_of_mem mem)).2 (valued _ (List.mem_map_of_mem mem))

end Filter

namespace Picture

theorem segmentGuarded (c : Clip) (o : Options) : ∀ f ∈ segmentFilters c o, f.Guarded := by
  have width := (wholeWord o.width).sealed
  have height := (wholeWord o.height).sealed
  have rate := (wholeWord o.rate).sealed
  have span := (Decimal.secondsWord c.span).sealed
  have literal : ∀ s ∈ ["decrease","(ow-iw)/2","(oh-ih)/2","1","-1","0","PTS-STARTPTS"], Word s := by
    decide
  have literal := fun s mem => (literal s mem).sealed
  unfold segmentFilters
  refine List.forall_mem_append.mpr ⟨List.forall_mem_append.mpr ⟨?_,?_⟩,?_⟩
  · simp only [List.forall_mem_cons]
    refine ⟨?_,?_,?_,List.forall_mem_nil _⟩
    · exact .ofParts ["scale","force_original_aspect_ratio"] rfl (by decide) (by simp) (by simp_all)
    · exact .ofParts ["pad"] rfl (by decide) (by simp) (by simp_all)
    · exact .ofParts ["setsar"] rfl (by decide) (by simp) (by simp_all)
  · split
    · refine List.forall_mem_singleton.mpr ?_
      exact .ofParts ["loop","loop","size","start"] rfl (by decide) (by simp) (by simp_all)
    · exact List.forall_mem_nil _
  · simp only [List.forall_mem_cons]
    refine ⟨?_,?_,?_,List.forall_mem_nil _⟩
    · exact .ofParts ["fps"] rfl (by decide) (by simp) (by simp_all)
    · exact .ofParts ["trim","duration"] rfl (by decide) (by simp) (by simp_all)
    · exact .ofParts ["setpts"] rfl (by decide) (by simp) (by simp_all)

theorem joinGuarded (count : Nat) : ∀ f ∈ (join count).filters, f.Guarded := by
  have count := (naturalWord count).sealed
  have one := Word.sealed (s := "1") (by decide)
  have zero := Word.sealed (s := "0") (by decide)
  refine List.forall_mem_singleton.mpr ?_
  exact .ofParts ["concat","n","v","a"] rfl (by decide) (by simp) (by simp_all)

theorem zoomGuarded (e : Effect) (width height rate : Int) :
    (zoomFilter e width height rate).Guarded := by
  have zoom : Sealed (inQuotes ("if(" ++ gate "in_time" e.start e.stop ++ "," ++
      Decimal.compactText (amplifyScale e.intensity) ++ ",1)")) := by
    have opening := Plain.append (a := "if(") (by decide)
      (gatePlain (by decide : Word "in_time") e.start e.stop)
    have scale := (Decimal.compactWord (amplifyScale e.intensity)).plain
    exact (((opening.append (by decide)).append scale).append (by decide)).quoted
  have x : Sealed (inQuotes "iw/2-(iw/zoom/2)") := Plain.quoted (by decide)
  have y : Sealed (inQuotes "ih/2-(ih/zoom/2)") := Plain.quoted (by decide)
  have d := Word.sealed (s := "1") (by decide)
  have size : Sealed s!"{width}x{height}" :=
    (((wholeWord width).append (by decide : Word "x")).append (wholeWord height)).sealed
  have rate := (wholeWord rate).sealed
  refine .ofParts ["zoompan","z","x","y","d","s","fps"] rfl (by decide) (by simp) ?_
  simp only [List.map,List.nil_append,List.forall_mem_cons]
  exact ⟨zoom,x,y,d,size,rate,List.forall_mem_nil _⟩

theorem fadeGuarded {direction : String} (word : Word direction) (start length : Float) :
    (fadeFilter direction start length).Guarded := by
  have direction := word.sealed
  have start := (Decimal.secondsWord start).sealed
  have length := (Decimal.secondsWord length).sealed
  exact .ofParts ["fade","t","st","d"] rfl (by decide) (by simp) (by simp_all)

theorem gateSealed (start stop : Float) : Sealed (inQuotes (gate "t" start stop)) :=
  (gatePlain (by decide : Word "t") start stop).quoted

theorem boxBlurGuarded (e : Effect) (radius : Int) : (boxBlurFilter e radius).Guarded := by
  have radius := (wholeWord radius).sealed
  have gated := gateSealed e.start e.stop
  exact .ofParts ["boxblur","enable"] rfl (by decide) (by simp) (by simp_all)

theorem gaussBlurGuarded (e : Effect) : (gaussBlurFilter e).Guarded := by
  have sigma := (Decimal.compactWord (softenSigma e.intensity)).sealed
  have gated := gateSealed e.start e.stop
  exact .ofParts ["gblur","sigma","enable"] rfl (by decide) (by simp) (by simp_all)

theorem effectGuarded {e : Effect} {policy : String} {width height rate : Int}
    {filters : List Filter} (ok : effectFilters e policy width height rate = .ok filters) :
    ∀ f ∈ filters, f.Guarded := by
  unfold effectFilters at ok
  split at ok
  · cases Except.ok.inj ok
    exact List.forall_mem_singleton.mpr (zoomGuarded e width height rate)
  split at ok
  · cases Except.ok.inj ok
    refine List.forall_mem_cons.mpr ⟨fadeGuarded (by decide) _ _,?_⟩
    exact List.forall_mem_singleton.mpr (fadeGuarded (by decide) _ _)
  split at ok
  · split at ok
    · obtain ⟨radius,_,last⟩ := bindOk ok
      cases Except.ok.inj last
      exact List.forall_mem_singleton.mpr (boxBlurGuarded e radius)
    · cases Except.ok.inj ok
      exact List.forall_mem_singleton.mpr (gaussBlurGuarded e)
  · cases ok

theorem alignedSealed (t : Overlay) : Sealed (alignedX t) := by
  have x := Decimal.compactWord t.x
  unfold alignedX
  dsimp only
  split
  · exact (x.plain.append (by decide)).quoted
  split
  · exact (x.plain.append (by decide)).quoted
  · exact x.sealed

/-- The argument for the file of a font, where there is one. -/
def fontArgs (font : Option String) : List String :=
  if font.getD "" = "" then [] else [named "fontfile" (escapeValue (font.getD ""))]

theorem fontArgsEq (font : Option String) : fontArgs font = (match font with
    | some f => if f = "" then [] else [("fontfile",escapeValue f)]
    | none => []).map fun x : String × String => named x.1 x.2 := by
  cases font with
  | none => rfl
  | some f =>
    unfold fontArgs
    rw [Option.getD_some]
    dsimp only
    split <;> rfl

theorem optionSealed {key value : String} (known : key ∈ "enable" :: textKeys)
    (closed : Sealed value) : Sealed (named key value) := by
  have keys : ∀ s ∈ "enable" :: textKeys, Word s := by decide
  exact sealedNamed (keys _ known) closed

theorem fadeInSealed (start : Float) : Sealed (inQuotes ("min(1,(t-" ++
    Decimal.secondsText start ++ ")/" ++ Decimal.compactText 0.5 ++ ")")) := by
  have opening := Plain.append (a := "min(1,(t-") (by decide) (Decimal.secondsWord start).plain
  have half := (Decimal.compactWord 0.5).plain
  exact (((opening.append (by decide)).append half).append (by decide)).quoted

/-- All arguments but those that name a file are sealed. -/
theorem drawTextArgs {t : Overlay} {c : Clip} {path : String} {font : Option String} {f : Filter}
    (ok : drawText t c path font = .ok f) : ∃ others, others ≠ [] ∧ (∀ a ∈ others, Sealed a) ∧
      f = ⟨"drawtext",named "textfile" (escapeValue path) :: (fontArgs font ++ others)⟩ := by
  obtain ⟨color,read,ok⟩ := bindOk ok
  obtain ⟨_,_,last⟩ := bindOk ok
  cases Except.ok.inj last
  have color := (colorWord read).sealed
  have size := (wholeWord t.fontSize).sealed
  have x := alignedSealed t
  have y := (Decimal.compactWord t.y).sealed
  have literal : ∀ s ∈ ["1","2","5","black@0.5"], Word s := by decide
  have literal := fun s mem => (literal s mem).sealed
  simp only [List.forall_mem_cons] at literal
  obtain ⟨one,two,five,box,_⟩ := literal
  have fade := fadeInSealed c.start
  have gated := gateSealed c.start c.stop
  refine ⟨?others,?some,?each,?same⟩
  -- Each group of arguments stands under a condition of its own; the files come first.
  case same =>
    unfold Filter.make
    rw [fontArgsEq,List.nil_append,List.append_assoc,List.append_assoc,List.append_assoc,
      List.map_append]
    rfl
  case some => simp
  case each =>
    refine List.forall_mem_map.mpr ?_
    refine List.forall_mem_append.mpr ⟨?_,List.forall_mem_append.mpr ⟨?_,
      List.forall_mem_append.mpr ⟨?_,?_⟩⟩⟩
    · simp only [List.forall_mem_cons]
      exact ⟨optionSealed (by decide) size,optionSealed (by decide) color,
        optionSealed (by decide) x,optionSealed (by decide) y,
        optionSealed (by decide) one,optionSealed (by decide) box,
        optionSealed (by decide) five,List.forall_mem_nil _⟩
    · split
      · simp only [List.forall_mem_cons]
        exact ⟨optionSealed (by decide) two,optionSealed (by decide) color,
          List.forall_mem_nil _⟩
      · exact List.forall_mem_nil _
    · split
      · exact List.forall_mem_singleton.mpr (optionSealed (show "alpha" ∈ _ by decide) fade)
      · exact List.forall_mem_nil _
    · exact List.forall_mem_singleton.mpr (optionSealed (show "enable" ∈ _ by decide) gated)

theorem pathClosed {key : String} (word : Word key) (s : String) :
    Closed (named key (escapeValue s)) :=
  (word.append (by decide : Word "=")).sealed.closed.append (escapedReads s).closed

theorem pathBare {key : String} (word : Word key) (s : String) {d : Char}
    (known : d = ',' ∨ d = ';') : Bare d (named key (escapeValue s)) ↔ d ∈ s.toList := by
  have apart : d ∉ ['\\',':','\''] := by rcases known with rfl | rfl <;> decide
  have front := (word.append (by decide : Word "=")).sealed
  unfold named
  rw [front.closed.bare,bareEscaped apart,or_iff_right (front.guarded d (cutSeparator known))]

theorem fontClosed (font : Option String) : ∀ a ∈ fontArgs font, Closed a := by
  unfold fontArgs
  split
  · exact List.forall_mem_nil _
  · exact List.forall_mem_singleton.mpr (pathClosed (by decide) _)

theorem fontBare (font : Option String) {d : Char} (known : d = ',' ∨ d = ';') :
    (∃ a ∈ fontArgs font, Bare d a) ↔ d ∈ (font.getD "").toList := by
  unfold fontArgs
  split
  · rename_i none
    simp [none]
  · rw [List.exists_mem_cons_iff,pathBare (by decide) _ known]
    simp

/-- The commas and semicolons that a filter shows bare are those of the paths of its files. -/
theorem drawTextBare {t : Overlay} {c : Clip} {path : String} {font : Option String} {f : Filter}
    (ok : drawText t c path font = .ok f) : f.Framed ∧ ∀ d, d = ',' ∨ d = ';' →
      (Bare d f.text ↔ d ∈ path.toList ∨ d ∈ (font.getD "").toList) := by
  obtain ⟨others,some,closed,rfl⟩ := drawTextArgs ok
  have framed : Filter.Framed
      ⟨"drawtext",named "textfile" (escapeValue path) :: (fontArgs font ++ others)⟩ := by
    refine ⟨(by decide : Word "drawtext"),(by decide : "drawtext" ≠ ""),?_,?_⟩
    · refine List.forall_mem_cons.mpr ⟨pathClosed (by decide) path,?_⟩
      exact List.forall_mem_append.mpr ⟨fontClosed font,fun a mem => (closed a mem).closed⟩
    · refine ⟨others.getLast some,?_,closed _ (List.getLast_mem some)⟩
      rw [List.getLast?_cons,List.getLast?_append,List.getLast?_eq_some_getLast some]
      rfl
  refine ⟨framed,fun d known => ?_⟩
  have clear : ¬ ∃ a ∈ others, Bare d a := fun ⟨a,mem,bare⟩ =>
    (closed a mem).guarded d (cutSeparator known) bare
  have rest : (∃ a ∈ fontArgs font ++ others, Bare d a) ↔ d ∈ (font.getD "").toList := by
    rw [← fontBare font known,← or_iff_left clear (a := ∃ a ∈ fontArgs font, Bare d a)]
    simp only [List.mem_append,or_and_right,exists_or]
  rw [framed.bare known,List.exists_mem_cons_iff,rest,pathBare (by decide) path known]

end Picture

namespace Sound

theorem trackGuarded (length : Float) (input i : Nat) (c : Clip) :
    ∀ f ∈ (track length input i c).filters, f.Guarded := by
  have start := Word.sealed (s := "PTS-STARTPTS") (by decide)
  have zero := Word.sealed (s := "0") (by decide)
  have span := (Decimal.secondsWord (firstMin c.span length)).sealed
  refine List.forall_mem_cons.mpr ⟨?_,List.forall_mem_singleton.mpr ?_⟩
  · exact .ofParts ["asetpts"] rfl (by decide) (by simp) (by simp_all)
  · exact .ofParts ["atrim"] rfl (by decide) (by simp) (by simp_all)

theorem mixGuarded (count : Nat) : ∀ f ∈ (mix count).filters, f.Guarded := by
  have count := (naturalWord count).sealed
  have longest := Word.sealed (s := "longest") (by decide)
  have zero := Word.sealed (s := "0") (by decide)
  refine List.forall_mem_singleton.mpr ?_
  exact .ofParts ["amix","inputs","duration","dropout_transition"] rfl (by decide) (by simp)
    (by simp_all)

end Sound

theorem sidePathLetters (o : Options) (i : Nat) {d : Char} (known : d = ',' ∨ d = ';') :
    d ∈ (Picture.sidePath o i).toList ↔ d ∈ o.workFolder.toList := by
  have slash : d ≠ '/' := by rcases known with rfl | rfl <;> decide
  have dot : d ≠ '.' := by rcases known with rfl | rfl <;> decide
  have name : Word ("text_" ++ toString i ++ ".txt") :=
    (Word.append (by decide) (naturalWord i)).append (by decide)
  have root (r : Root) : d ∉ r.text.toList := by
    rcases known with rfl | rfl <;> cases r <;> decide
  have joined := Path.childJoined (sideNamePlain i) (Path.ofText o.workFolder)
  change Picture.sidePath o i = _ at joined
  -- What is written before the name is the folder as it is read, and not as it was given.
  rw [joined,String.toList_append,List.mem_append,or_iff_right (root _),String.toList_intercalate,
    ← Path.partsLetters slash dot]
  refine (memJoined (s := '/') slash).trans ?_
  simp only [List.mem_map,List.mem_append,List.mem_singleton]
  constructor
  · rintro ⟨_,⟨p,part | rfl,rfl⟩,inside⟩
    · exact ⟨p,part,inside⟩
    · exact absurd inside (name.apart (cutSeparator known))
  · rintro ⟨p,part,inside⟩
    exact ⟨_,⟨p,.inl part,rfl⟩,inside⟩

theorem Word.label {s : String} (word : Word s) : Label s := by
  intro c mem bad
  refine word c mem ?_
  simp only [special,separators,List.mem_cons] at bad ⊢
  tauto

theorem Label.append {a b : String} (first : Label a) (second : Label b) : Label (a ++ b) := by
  unfold Label
  rw [String.toList_append]
  exact List.forall_mem_append.mpr ⟨first,second⟩

theorem numberedWord {s : String} (word : Word s) (k : Nat) : Label (s ++ toString k) :=
  (word.append (naturalWord k)).label

theorem linkLabel {s base : String} (word : Word s) (label : Label base) (k : Nat) :
    Label (Picture.link s base k) := by
  cases k with
  | zero => exact label
  | succ k => exact numberedWord word k

theorem joinedLabelLabel (visual : List Clip) : Label (Picture.joinedLabel visual) := by
  unfold Picture.joinedLabel
  split
  · exact (by decide : Word "outv").label
  · exact (by decide : Word "v0").label

/-- A node can be told apart from its neighbours, and shows separators only where it draws text. -/
structure Node.Written (o : Options) (n : Node) : Prop where
  framed : n.Framed
  guarded : n.kind ≠ "text" → ∀ f ∈ n.filters, f.Guarded
  drawn : n.kind = "text" → ∀ f ∈ n.filters, ∀ d, d = ',' ∨ d = ';' →
    (Bare d f.text ↔ d ∈ o.workFolder.toList ∨ d ∈ (o.font.getD "").toList)

theorem writtenPlain {o : Options} {n : Node} (kind : n.kind ≠ "text") (some : n.filters ≠ [])
    (guarded : ∀ f ∈ n.filters, f.Guarded) (inputs : ∀ l ∈ n.inputs, Label l)
    (outputs : ∀ l ∈ n.outputs, Label l) : n.Written o :=
  ⟨⟨some,fun f mem => (guarded f mem).framed,inputs,outputs⟩,fun _ => guarded,
    fun text => absurd text kind⟩

section
variable {o : Options}

theorem segmentsWritten (inputs : List String) (visual : List Clip) :
    ∀ n ∈ Picture.segments o inputs visual, n.Written o := by
  intro n mem
  obtain ⟨⟨c,i⟩,_,rfl⟩ := List.mem_map.mp mem
  refine writtenPlain (show "normalize" ≠ "text" by decide)
    (by simp [Picture.segment,Picture.segmentFilters]) (Picture.segmentGuarded c o) ?_ ?_
  · exact List.forall_mem_singleton.mpr ((naturalWord _).label.append (by decide : Label ":v"))
  · exact List.forall_mem_singleton.mpr (numberedWord (by decide : Word "v") i)

theorem tracksWritten (length : Float) (inputs : List String) (audio : List Clip) :
    ∀ n ∈ Sound.tracks length inputs audio, n.Written o := by
  intro n mem
  obtain ⟨⟨c,i⟩,_,rfl⟩ := List.mem_map.mp mem
  refine writtenPlain (show "audio" ≠ "text" by decide) (by simp [Sound.track])
    (Sound.trackGuarded length _ i c) ?_ ?_
  · exact List.forall_mem_singleton.mpr ((naturalWord _).label.append (by decide : Label ":a"))
  · exact List.forall_mem_singleton.mpr (numberedWord (by decide : Word "a") i)

theorem joinedWritten (visual : List Clip) : ∀ n ∈ Picture.joined visual, n.Written o := by
  unfold Picture.joined
  split
  · refine List.forall_mem_singleton.mpr ?_
    refine writtenPlain (show "concat" ≠ "text" by decide) (by simp [Picture.join])
      (Picture.joinGuarded _) ?_ (by decide : ∀ l ∈ ["outv"], Label l)
    exact List.forall_mem_map.mpr fun i _ => numberedWord (by decide : Word "v") i
  · exact List.forall_mem_nil _

theorem mixedWritten (audio : List Clip) : ∀ n ∈ Sound.mixed audio, n.Written o := by
  unfold Sound.mixed
  split
  · refine List.forall_mem_singleton.mpr ?_
    refine writtenPlain (show "mix" ≠ "text" by decide) (by simp [Sound.mix])
      (Sound.mixGuarded _) ?_ (by decide : ∀ l ∈ ["outa"], Label l)
    exact List.forall_mem_map.mpr fun i _ => numberedWord (by decide : Word "a") i
  · exact List.forall_mem_nil _

theorem textWritten {base : String} (label : Label base) {k i : Nat} {t : Overlay} {c : Clip}
    {n : Node} (ok : Picture.textNode o base k i t c = .ok n) : n.Written o := by
  obtain ⟨f,drawn,rfl⟩ := Picture.textNodeSource ok
  obtain ⟨framed,bare⟩ := Picture.drawTextBare drawn
  refine ⟨⟨by simp,List.forall_mem_singleton.mpr framed,?_,?_⟩,fun other => absurd rfl other,
    fun _ => List.forall_mem_singleton.mpr fun d known => ?_⟩
  · exact List.forall_mem_singleton.mpr (linkLabel (by decide) label k)
  · exact List.forall_mem_singleton.mpr (numberedWord (by decide : Word "txt") k)
  · rw [bare d known,sidePathLetters o i known]

theorem effectWritten {base : String} (label : Label base) {k : Nat} {e : Effect} {n : Node}
    (ok : Picture.effectNode o base k e = .ok n) : n.Written o := by
  obtain ⟨filters,made,rfl⟩ := Picture.effectNodeSource ok
  refine writtenPlain (show "effect" ≠ "text" by decide) (Picture.effectFiltersSome made)
    (Picture.effectGuarded made) ?_ ?_
  · exact List.forall_mem_singleton.mpr (linkLabel (by decide) label k)
  · exact List.forall_mem_singleton.mpr (numberedWord (by decide : Word "fx") k)

theorem builtWritten {tl : Timeline} {inputs : List String} {visual : List Clip} {q : Picture}
    (ok : Picture.build tl o inputs visual = .ok q) : ∀ n ∈ q.nodes, n.Written o := by
  obtain ⟨texts,effects,chain,built⟩ := Picture.buildSource ok
  have base := joinedLabelLabel visual
  have onward := linkLabel (by decide : Word "txt") base (Picture.placedTexts tl).length
  rw [built.nodes]
  refine List.forall_mem_append.mpr ⟨List.forall_mem_append.mpr ⟨List.forall_mem_append.mpr
    ⟨segmentsWritten inputs visual,joinedWritten visual⟩,fun n mem => ?_⟩,fun n mem => ?_⟩
  · obtain ⟨x,_,made⟩ := pairedRight built.drawn mem
    exact textWritten base made
  · obtain ⟨x,_,made⟩ := pairedRight built.made mem
    exact effectWritten onward made

theorem Graph.readWritten {g : Graph} (given : g.nodes ≠ []) (written : ∀ n ∈ g.nodes, n.Written o) :
    Shown.ofText g.text = g.nodes.map Node.shown ↔ g.ofKind "text" = [] ∨
      ∀ d, d = ',' ∨ d = ';' → d ∉ o.workFolder.toList ∧ d ∉ (o.font.getD "").toList := by
  rw [Graph.readIff given fun n mem => (written n mem).framed]
  constructor
  · intro clear
    refine or_iff_not_imp_left.mpr fun some d known => ?_
    obtain ⟨n,mem⟩ := List.exists_mem_of_ne_nil _ some
    obtain ⟨stored,kind⟩ := List.mem_filter.mp mem
    have own := written n stored
    obtain ⟨f,inside⟩ := List.exists_mem_of_ne_nil _ own.framed.some
    have bare : ¬ Bare d f.text := by
      rcases known with rfl | rfl
      · exact (clear n stored f inside).1
      · exact (clear n stored f inside).2
    rwa [own.drawn (beq_iff_eq.mp kind) f inside d known,not_or] at bare
  · intro paths n mem f inside
    have clear (d : Char) (known : d = ',' ∨ d = ';') : ¬ Bare d f.text := by
      by_cases text : n.kind = "text"
      · rw [(written n mem).drawn text f inside d known,not_or]
        refine paths.resolve_left (fun none => ?_) d known
        exact List.filter_eq_nil_iff.mp none n mem (beq_iff_eq.mpr text)
      · exact ((written n mem).guarded text f inside).clear known
    exact ⟨clear ',' (.inl rfl),clear ';' (.inr rfl)⟩

end

namespace Timeline
variable {tl : Timeline} {o : Options} {p : Plan}

theorem compileWritten (ok : tl.compile o = .ok p) : ∀ n ∈ p.graph.nodes, n.Written o := by
  obtain ⟨length,sources,picture,_,_,_,drawn,rfl⟩ := compileSource ok
  refine List.forall_mem_append.mpr ⟨?_,List.forall_mem_append.mpr
    ⟨tracksWritten length _ tl.audio,mixedWritten tl.audio⟩⟩
  rcases pictureSource drawn with ⟨_,rfl⟩ | ⟨q,_,built,rfl⟩
  · exact List.forall_mem_nil _
  · exact builtWritten built

theorem compileSome (ok : tl.compile o = .ok p) : p.graph.nodes ≠ [] := by
  obtain ⟨length,sources,picture,some,_,_,drawn,rfl⟩ := compileSource ok
  intro none
  obtain ⟨seen,heard⟩ := List.append_eq_nil_iff.mp none
  refine some ⟨?_,?_⟩
  · rcases pictureSource drawn with ⟨none,_⟩ | ⟨q,_,built,rfl⟩
    · exact none
    obtain ⟨texts,effects,chain,built⟩ := Picture.buildSource built
    change q.nodes = [] at seen
    rw [built.nodes] at seen
    simp only [List.append_eq_nil_iff] at seen
    simpa [Picture.segments] using seen.1.1.1
  · have tracks := (List.append_eq_nil_iff.mp heard).1
    simpa [Sound.tracks] using tracks

/-- The text of a plan gives its nodes back just where it draws no text or the paths that texts
bring in hold neither a comma nor a semicolon. -/
theorem compileReadable (ok : tl.compile o = .ok p) :
    Shown.ofText p.graph.text = p.graph.nodes.map Node.shown ↔ p.graph.ofKind "text" = [] ∨
      ∀ d, d = ',' ∨ d = ';' → d ∉ o.workFolder.toList ∧ d ∉ (o.font.getD "").toList :=
  Graph.readWritten (compileSome ok) (compileWritten ok)

/-- Colons, quotes and backslashes in paths do no harm. -/
def quaint : Options := { workFolder := "C:/it's", font := some "D:\\a b.ttf" }

theorem quaintReadable : ∃ p, (sung [verse]).compile quaint = .ok p ∧
    p.graph.ofKind "text" ≠ [] ∧ Shown.ofText p.graph.text = p.graph.nodes.map Node.shown := by
  obtain ⟨p,ok,drawn⟩ := answered (x := (sung [verse]).compile quaint)
    (fun p => (p.graph.ofKind "text").length == 1) (by decide +kernel)
  refine ⟨p,ok,fun none => ?_,(compileReadable ok).mpr (.inr ?_)⟩
  · rw [none] at drawn
    cases drawn
  · rintro d (rfl | rfl) <;> decide

/-- A semicolon in the path of a work folder ends the node that reads a file there. -/
theorem splitUnreadable : ∃ p, (sung [verse]).compile { workFolder := "a;b" } = .ok p ∧
    Shown.ofText p.graph.text ≠ p.graph.nodes.map Node.shown := by
  obtain ⟨p,ok,drawn⟩ := answered (x := (sung [verse]).compile { workFolder := "a;b" })
    (fun p => (p.graph.ofKind "text").length == 1) (by decide +kernel)
  refine ⟨p,ok,fun read => ?_⟩
  rcases (Graph.readWritten (compileSome ok) (compileWritten ok)).mp read with none | clear
  · rw [none] at drawn
    cases drawn
  · exact (clear ';' (.inr rfl)).1 (by decide)

end Timeline
end Montage
