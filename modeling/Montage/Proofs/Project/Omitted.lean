import Montage.Proofs.Manifest.Entry
import Montage.Proofs.Media.Allotted
import Montage.Proofs.Project.Openings

/-! Omitted ends. A media clip of a manifest may leave out its end. The project is the same, or fails
in the same way, as if the entry said when: after the whole seconds that are allotted to it. This is
later than its start, so that no clip is turned down for an end that was left out. -/
namespace Montage.Project

/-- What a clip is called when something about it is told. -/
def clipPlace (i : Nat) (es : List (Scalar × Value)) : String :=
  let id := ((Entry.found es ["id"]).getD .null).display
  s!"Clip {i} ({id})"

/-- The file that the entry of a media clip names. -/
def FileOf (raw : List (Scalar × Value)) (i : Nat) (es : List (Scalar × Value))
    (track path : String) : Prop :=
  ∃ known, paths (entryAt? raw "paths") = .ok known ∧
    sourceOf (clipPlace i es) track known (.mapping es) = .ok (some path)

/-- The time so many whole seconds after a start. No double comes after some whole numbers. -/
def endAfter (start : Float) (n : Int) : Except Fault Float :=
  match (Amount.whole n).toFloat? with
  | some length => .ok (start + length)
  | none => .error .tooLarge

/-- The entry of a media clip that has a start before `2 ^ 40` and no end. -/
structure Endless (raw : List (Scalar × Value)) (vs : List Value) (i : Nat)
    (es : List (Scalar × Value)) (track : String) (start : Float) : Prop where
  clips : Entry.items (entryAt? raw "clips") = .ok vs
  entry : vs[i]? = some (.mapping es)
  kind : Entry.found es ["track","type"] = some (.text track)
  played : track ∈ sourceKinds
  started : startOf (clipPlace i es) (.mapping es) = .ok start
  least : 0 ≤ start
  near : start < 1099511627776
  endless : Entry.found es ["end","endTime"] = none

/-- The same entry with an end, under either of its names, that is read as `stop`. -/
structure Ended (stop : Except Fault Float) (es es' : List (Scalar × Value)) : Prop where
  stop : ∃ v, Entry.present (Entry.found es' ["end","endTime"]) = some v ∧
    ∀ place, Entry.number place "end" v = stop
  others : ∀ key ∉ ["end","endTime"], entryAt? es' key = entryAt? es key

/-- The same manifest with an end in this entry. -/
structure Ending (stop : Except Fault Float) (raw : List (Scalar × Value)) (vs : List Value)
    (i : Nat) (es raw' : List (Scalar × Value)) : Prop where
  clips : ∃ es', Ended stop es es' ∧
    Entry.items (entryAt? raw' "clips") = .ok (vs.set i (.mapping es'))
  others : ∀ key, key ≠ "clips" → entryAt? raw' key = entryAt? raw key

section
variable {es es' : List (Scalar × Value)} {stop : Except Fault Float}

theorem endedPut (es : List (Scalar × Value)) (x : Float) :
    Ended (.ok x) es (putEntry es (.text "end") (.real x)) := by
  refine ⟨⟨.real x,?_,fun _ => rfl⟩,fun key apart => ?_⟩
  · unfold Entry.found
    rw [List.findSome?_cons,Entry.entryPut,if_pos rfl]
    rfl
  · rw [Entry.entryPut,if_neg (List.ne_of_not_mem_cons apart)]

theorem endingPut (ended : Ended stop es es')
    (raw : List (Scalar × Value)) (ws : List Value) (i : Nat) :
    Ending stop raw (ws.map Value.bare) i es
      (putEntry raw (.text "clips") (.list (ws.set i (.mapping es')))) := by
  refine ⟨⟨es',ended,?_⟩,fun key apart => ?_⟩
  · rw [Entry.entryPut,if_pos rfl]
    refine (Entry.itemsList _).trans ?_
    rw [List.map_set]
    rfl
  · rw [Entry.entryPut,if_neg apart]

theorem Ended.found (ended : Ended stop es es') {keys : List String}
    (apart : ∀ key ∈ keys, key ∉ ["end","endTime"]) : Entry.found es' keys = Entry.found es keys :=
  Entry.foundSame fun key mem => ended.others key (apart key mem)

theorem Ended.first (ended : Ended stop es es') {keys : List String}
    (apart : ∀ key ∈ keys, key ∉ ["end","endTime"]) :
    Entry.first keys (.mapping es') = Entry.first keys (.mapping es) := by
  rw [Entry.firstMapping,Entry.firstMapping,ended.found apart]

theorem trackEnded (ended : Ended stop es es') (place : String) :
    trackOf place (.mapping es') = trackOf place (.mapping es) := by
  unfold trackOf
  rw [ended.first (by decide)]

theorem startEnded (ended : Ended stop es es') (place : String) :
    startOf place (.mapping es') = startOf place (.mapping es) := by
  unfold startOf
  rw [ended.first (by decide)]

theorem sourceEnded (ended : Ended stop es es') (place track : String)
    (known : List (Scalar × Value)) :
    sourceOf place track known (.mapping es') = sourceOf place track known (.mapping es) := by
  unfold sourceOf
  rw [ended.first (by decide)]

theorem refEnded (ended : Ended stop es es') {keys : List String}
    (apart : ∀ key ∈ keys, key ∉ ["end","endTime"]) :
    refOf keys (.mapping es') = refOf keys (.mapping es) := by
  unfold refOf
  rw [ended.first apart]

section
variable {media : Media} {probe : Bool} {place track path : String} {start : Float} {n : Int}

theorem stopEnded (ended : Ended stop es es') {source : Option String} :
    stopOf media probe place track start source (.mapping es') = liftM stop := by
  obtain ⟨v,given,number⟩ := ended.stop
  unfold stopOf
  rw [Entry.firstMapping,liftedBind,given]
  exact congrArg liftM (number place)

/-- The end that is left out is the one that is put in, and may take an opening to find. -/
theorem stopSpared {P : Probe → Prop} (ended : Ended (endAfter start n) es es')
    (endless : Entry.found es ["end","endTime"] = none)
    (foreseen : Foreseen (media.reading path))
    (length : Allotted probe track (media.reading path) n)
    (file : ∀ p : Probe, p.path = path → P p) :
    Spared P (stopOf media probe place track start (some path) (.mapping es'))
      (stopOf media probe place track start (some path) (.mapping es)) := by
  obtain ⟨own,held,runs⟩ := lengthAllotted foreseen length
  refine ⟨endAfter start n,[],[],own,fun p mem => file p (held p mem),fun log => ⟨?_,?_⟩⟩
  · rw [stopEnded ended,liftedRun,List.append_nil,List.append_nil]
  · unfold stopOf
    rw [Entry.firstMapping,liftedBind,endless,List.nil_append,List.append_nil]
    refine (boundRun (runs log)).trans ?_
    unfold endAfter
    cases (Amount.whole n).toFloat? <;> rfl

end

end

section
variable {raw raw' : List (Scalar × Value)} {vs : List Value} {i : Nat}
  {es es' : List (Scalar × Value)} {track : String} {start : Float} {media : Media} {probe : Bool}
  {r : Reading} {n : Int}

theorem sourceNamed {place : String} {known : List (Scalar × Value)} {v : Value}
    {source : Option String} (played : track ∈ sourceKinds)
    (ok : sourceOf place track known v = .ok source) : ∃ path, source = some path := by
  unfold sourceOf at ok
  rw [if_neg (not_not.mpr played)] at ok
  obtain ⟨found,_,ok⟩ := bindOk ok
  obtain ⟨_,ok⟩ := guardOk ok
  split at ok
  · exact ⟨_,(Except.ok.inj ok).symm⟩
  · cases ok

theorem Endless.kindRead (omits : Endless raw vs i es track start) :
    trackOf (clipPlace i es) (.mapping es) = .ok track := by
  have names : ∀ kind ∈ sourceKinds, kind ∈ trackNames := by decide
  unfold trackOf
  rw [Entry.firstMapping,omits.kind]
  exact if_pos (names track omits.played)

theorem clipSpared (omits : Endless raw vs i es track start) (foreseen : Foreseen r)
    (opened : ∀ path, FileOf raw i es track path → media.reading path = r)
    (length : Allotted probe track r n) (ended : Ended (endAfter start n) es es')
    {known : List (Scalar × Value)} (read : paths (entryAt? raw "paths") = .ok known) :
    Spared (fun p => FileOf raw i es track p.path) (clip media probe known i (.mapping es'))
      (clip media probe known i (.mapping es)) := by
  unfold clip
  rw [Entry.hasMapping,Entry.hasMapping,Entry.underMapping,Entry.underMapping,
    ended.found (by decide),refEnded ended (by decide),refEnded ended (by decide)]
  refine .onward fun _ _ => .guard ?_
  rw [liftedBind,liftedBind]
  change Spared _ (liftM (trackOf (clipPlace i es) (.mapping es')) >>= _)
    (liftM (trackOf (clipPlace i es) (.mapping es)) >>= _)
  rw [trackEnded ended,omits.kindRead,liftedBind,liftedBind]
  change Spared _ (liftM (startOf (clipPlace i es) (.mapping es')) >>= _)
    (liftM (startOf (clipPlace i es) (.mapping es)) >>= _)
  rw [startEnded ended,omits.started,liftedBind,liftedBind]
  change Spared _ (liftM (sourceOf (clipPlace i es) track known (.mapping es')) >>= _)
    (liftM (sourceOf (clipPlace i es) track known (.mapping es)) >>= _)
  rw [sourceEnded ended]
  refine .onward fun source sourced => ?_
  obtain ⟨path,rfl⟩ := sourceNamed omits.played sourced
  have file : FileOf raw i es track path := ⟨known,read,sourced⟩
  obtain rfl := opened path file
  refine (stopSpared ended omits.endless foreseen length ?_).after fun stop => .onward fun overlay =>
    .onward fun effect => .lifted (.ok _)
  rintro p rfl
  exact file

/-- The whole project, with every other entry as it is. -/
theorem ofEntriesSpared (omits : Endless raw vs i es track start) (foreseen : Foreseen r)
    (opened : ∀ path, FileOf raw i es track path → media.reading path = r)
    (length : Allotted probe track r n) (ending : Ending (endAfter start n) raw vs i es raw') :
    Spared (fun p => FileOf raw i es track p.path) (ofEntries media probe raw')
      (ofEntries media probe raw) := by
  obtain ⟨es',ended,clips⟩ := ending.clips
  have last : lengthIn raw' = lengthIn raw := by
    unfold lengthIn
    rw [ending.others "duration" (by decide)]
  unfold ofEntries
  rw [ending.others "video" (by decide),ending.others "paths" (by decide),
    ending.others "texts" (by decide),ending.others "effects" (by decide),clips,omits.clips,last]
  refine .onward fun video _ => .onward fun size _ => .onward fun rate _ => .onward fun known read =>
    .onward fun texts _ => .onward fun tl _ => .onward fun effects _ => .onward fun tl _ => ?_
  rw [liftedBind,liftedBind]
  have here : Spared (fun p => FileOf raw i es track p.path)
      (clip media probe known (0 + i) (.mapping es'))
      (clip media probe known (0 + i) (.mapping es)) := by
    rw [Nat.zero_add]
    exact clipSpared omits foreseen opened length ended read
  exact (addClipsSpared omits.entry here tl).after fun tl => .onward fun _ => .onward fun length =>
    .lifted (.ok _)

/-- An end that is left out changes nothing but that its file may be opened. -/
theorem omittedEnd (probe : Bool) (omits : Endless raw vs i es track start) (foreseen : Foreseen r)
    (opened : ∀ path, FileOf raw i es track path → media.reading path = r) :
    ∃ n, Allotted probe track r n ∧ 1 ≤ n ∧ start < start + Float.ofInt n ∧
      ∀ raw', Ending (endAfter start n) raw vs i es raw' →
        Spared (fun p => FileOf raw i es track p.path) (build media probe (.mapping raw'))
          (build media probe (.mapping raw)) := by
  obtain ⟨n,length,some⟩ := allotted r probe omits.played
  exact ⟨n,length,some,secondsLater omits.least omits.near some,
    fun raw' ending => ofEntriesSpared omits foreseen opened length ending⟩

end

def film : List (Scalar × Value) :=
  [(.text "id",.text "a"),(.text "track",.text "video"),(.text "path",.text "a.mp4"),
    (.text "start",.whole 1)]

def showing (clip : List (Scalar × Value)) : List (Scalar × Value) :=
  [(.text "clips",.list [.mapping clip])]

def filmed : Media := [("a.mp4",.length (some (.real 7.9)))]

theorem filmFile {path : String} (file : FileOf (showing film) 0 film "video" path) :
    filmed.reading path = .length (some (.real 7.9)) := by
  obtain ⟨known,read,sourced⟩ := file
  cases read
  have own : sourceOf (clipPlace 0 film) "video" [] (.mapping film) = .ok (some "a.mp4") := by
    decide +kernel
  cases own.symm.trans sourced
  rfl

theorem filmAllotted {n : Int}
    (length : Allotted true "video" (.length (some (.real 7.9))) n) : n = 7 := by
  have seven : ⌊Reading.seconds (.length (some (.real 7.9)))⌋ = 7 :=
    (ratioFloor rfl).trans (by decide +kernel)
  cases length with
  | told => exact seven
  | usual unheard default =>
    obtain still | missing | short := unheard
    · exact absurd still (by decide)
    · cases missing
    · have least : (7 : ℚ) ≤ Reading.seconds (.length (some (.real 7.9))) := by
        exact_mod_cast Int.le_floor.mp seven.ge
      linarith

/-- Of seven seconds and nine tenths, seven seconds are allotted. -/
theorem filmEnds : Endless (showing film) [.mapping film] 0 film "video" 1 ∧
    Foreseen (.length (some (.real 7.9))) ∧
    (∀ path, FileOf (showing film) 0 film "video" path →
      filmed.reading path = .length (some (.real 7.9))) ∧
    ∃ project log log',
      (build filmed true (.mapping (showing (putEntry film (.text "end") (.real 8))))).run [] =
        (.ok project,log) ∧
      (build filmed true (.mapping (showing film))).run [] = (.ok project,log') := by
  have omits : Endless (showing film) [.mapping film] 0 film "video" 1 :=
    ⟨rfl,rfl,rfl,by decide,rfl,by decide,by decide,rfl⟩
  have foreseen : Foreseen (.length (some (.real 7.9))) := .real (by decide) rfl
  refine ⟨omits,foreseen,fun _ => filmFile,?_⟩
  obtain ⟨n,length,_,_,spared⟩ := omittedEnd true omits foreseen fun _ => filmFile
  obtain rfl := filmAllotted length
  have eight : endAfter 1 7 = .ok 8 := by decide +kernel
  rw [eight] at spared
  have ending := endingPut (endedPut film 8) (showing film) [.mapping film] 0
  obtain ⟨answer,_,_,_,_,both⟩ := spared _ ending
  obtain ⟨project,log,made⟩ := probeAnswered
    (build filmed true (.mapping (showing (putEntry film (.text "end") (.real 8))))) []
    (by decide +kernel)
  obtain ⟨explicit,omitted⟩ := both []
  have same : answer = .ok project := congrArg Prod.fst (explicit.symm.trans made)
  exact ⟨project,log,_,made,same ▸ omitted⟩

end Montage.Project
