import Montage.Proofs.Desk
import Montage.Proofs.Double.Text
import Montage.Proofs.Render.Parts

/-! How long segments are. Each picture is cut after the span of its clip, which is written to the
millisecond; a span that is positive and shorter than half of one is written as none. -/
namespace Montage

/-- The time after which the frames of a node are cut off, as its text says. -/
def Node.trim? (n : Node) : Option ℚ :=
  ((n.filters.find? (·.name == "trim")).bind (·.value? "duration")).bind Decimal.value?

/-- Half a millisecond lies between two doubles, of which 0.0005 is the later. -/
theorem halfMillisecond {x : Float} (finite : x.isFinite = true) :
    (ones : Int) < 2 * (place x * (10 ^ 3 : Nat)) ↔ 0.0005 ≤ x := by
  have nearest : place 0.0005 = rounded ones 2000 := by decide +kernel
  have above : (ones : Int) < 2 * (place 0.0005 * (10 ^ 3 : Nat)) := by decide +kernel
  rw [leIff]
  constructor
  · intro more
    refine ⟨rfl,finiteNumber finite,?_⟩
    calc place 0.0005 = rounded ones 2000 := nearest
      _ ≤ rounded (place x) 1 := roundedMono (by omega) Nat.one_pos (by omega)
      _ = place x := roundedExact (canonical x) finite
  · rintro ⟨_,_,le⟩
    omega

theorem Decimal.secondsValue {x : Float} (finite : x.isFinite = true) (least : 0 ≤ x) :
    ∃ v, Decimal.value? (Decimal.secondsText x) = some v ∧ 0 ≤ v ∧ (0 < v ↔ 0.0005 ≤ x) := by
  have above : 0 ≤ place x := ((leIff _ _).mp least).2.2
  have scale : (0 : ℚ) < 10 ^ 3 := by positivity
  refine ⟨_,Decimal.fixedValue finite (by omega),?_,?_⟩
  · exact div_nonneg (by exact_mod_cast Decimal.shownLeast above) scale.le
  · rw [div_pos_iff_of_pos_right scale,← halfMillisecond finite,← Decimal.shownPositive]
    exact Int.cast_pos

theorem Clip.Sound.spanFinite {c : Clip} (sound : c.Sound) (finite : c.stop.isFinite = true) :
    c.span.isFinite = true :=
  finiteBetween (leOfLess sound.spanPositive) (differenceLe finite sound.finite sound.start) rfl
    finite

namespace Picture

theorem segmentTrim (o : Options) (input i : Nat) (c : Clip) :
    (segment o input i c).trim? = Decimal.value? (Decimal.secondsText c.span) := by
  have trim : (segmentFilters c o).find? (·.name == "trim") =
      some (.make "trim" [] [("duration",Decimal.secondsText c.span)]) := by
    unfold segmentFilters
    split <;> rfl
  unfold Node.trim?
  change ((((segmentFilters c o).find? (·.name == "trim")).bind _).bind _) = _
  rw [trim,Option.bind_some,Filter.valueMake (by decide) (by simp)]
  rfl

end Picture

/-- The nodes that are made of clips, each beside its clip. -/
theorem madeFrom {R : Clip → Node → Prop} {inputs : List String} (make : Nat → Nat → Clip → Node)
    {cs : List Clip} {k : Nat} (each : ∀ c ∈ cs, ∀ i k, R c (make i k c)) :
    List.Forall₂ R cs
      ((cs.zipIdx k).map fun x => make (inputs.idxOf (x.1.source.getD "")) x.2 x.1) := by
  induction cs generalizing k with
  | nil => exact .nil
  | cons c cs ih =>
    obtain ⟨first,rest⟩ := List.forall_mem_cons.mp each
    exact .cons (first _ k) (ih rest)

namespace Timeline
variable {tl : Timeline} {o : Options} {p : Plan}

theorem compileSegments (ok : tl.compile o = .ok p) :
    ∃ inputs, p.graph.ofKind "normalize" = Picture.segments o inputs tl.visual := by
  obtain ⟨length,sources,picture,_,_,_,drawn,rfl⟩ := compileSource ok
  rcases pictureSource drawn with ⟨none,rfl⟩ | ⟨q,_,build,rfl⟩
  · refine ⟨[],(Sound.ofKinds length _ tl.audio (· == "normalize")).trans ?_⟩
    simp [none,Picture.segments]
  · obtain ⟨texts,effects,chain,built⟩ := Picture.buildSource build
    refine ⟨distinct sources,(ofKindSeen (by decide) (by decide)).trans ?_⟩
    exact (built.ofKinds (· == "normalize")).trans (by simp)

theorem compileTrimmed (spans : ∀ c ∈ tl.visual, c.span.isFinite = true ∧ 0 ≤ c.span)
    (ok : tl.compile o = .ok p) :
    List.Forall₂ (fun c n => ∃ v, n.trim? = some v ∧ 0 ≤ v ∧ (0 < v ↔ 0.0005 ≤ c.span)) tl.visual
      (p.graph.ofKind "normalize") := by
  obtain ⟨inputs,segments⟩ := compileSegments ok
  rw [segments]
  refine madeFrom (Picture.segment o) fun c mem input i => ?_
  rw [Picture.segmentTrim]
  exact Decimal.secondsValue (spans c mem).1 (spans c mem).2

end Timeline

namespace Desk
variable {as : List Act} {o : Options} {p : Plan}

/-- A picture is cut after no time at all when its clip lasts less than half a millisecond. -/
theorem runTrimmed (inside : ∀ a ∈ as, a.outside = false)
    (times : ∀ c ∈ (({} : Desk).run as).timeline.clips,
      c.start.isFinite = true ∧ c.stop.isFinite = true)
    (ok : (({} : Desk).run as).timeline.compile o = .ok p) :
    let visual := (({} : Desk).run as).timeline.visual
    List.Forall₂ (fun c n => ∃ v, n.trim? = some v ∧ 0 ≤ v ∧ (0 < v ↔ 0.0005 ≤ c.span)) visual
      (p.graph.ofKind "normalize") ∧
    ((∀ n ∈ p.graph.ofKind "normalize", ∃ v, n.trim? = some v ∧ 0 < v) ↔
      ∀ c ∈ visual, 0.0005 ≤ c.span) := by
  intro visual
  have checked := (Desk.runChecked inside).clips
  have spans : ∀ c ∈ visual, c.span.isFinite = true ∧ 0 ≤ c.span := fun c mem => by
    have stored := (ofKindsMem.mp mem).1
    have finite := times c stored
    have sound := c.soundOf (checked c stored) ⟨finiteNumber finite.1,finiteNumber finite.2⟩
    exact ⟨sound.spanFinite finite.2,leOfLess sound.spanPositive⟩
  have trimmed := Timeline.compileTrimmed spans ok
  refine ⟨trimmed,fun positive c mem => ?_,fun long n mem => ?_⟩
  · obtain ⟨n,stored,v,trim,_,long⟩ := pairedLeft trimmed mem
    obtain ⟨w,trim',some⟩ := positive n stored
    cases trim.symm.trans trim'
    exact long.mp some
  · obtain ⟨c,stored,v,trim,_,positive⟩ := pairedRight trimmed mem
    exact ⟨v,trim,positive.mpr (long c stored)⟩

theorem cuttingTrimmed : ∃ p, (({} : Desk).run cutting).timeline.compile {} = .ok p ∧
    (∀ c ∈ (({} : Desk).run cutting).timeline.visual, 0.0005 ≤ c.span) ∧
    p.graph.ofKind "normalize" ≠ [] ∧
    ∀ n ∈ p.graph.ofKind "normalize", ∃ v, n.trim? = some v ∧ 0 < v := by
  have long : ∀ c ∈ (({} : Desk).run cutting).timeline.visual, 0.0005 ≤ c.span := by
    decide +kernel
  have times : ∀ c ∈ (({} : Desk).run cutting).timeline.clips,
      c.start.isFinite = true ∧ c.stop.isFinite = true := by decide +kernel
  obtain ⟨p,ok,some⟩ := answered (x := (({} : Desk).run cutting).timeline.compile {})
    (fun p => p.graph.ofKind "normalize" != []) (by decide +kernel)
  exact ⟨p,ok,long,bne_iff_ne.mp some,(runTrimmed (by decide) times ok).2.mpr long⟩

/-- An image that would loop for ever is shown for four tenths of a millisecond. -/
def blinking : List Act :=
  [.command 0 (.addClip ⟨"a","image","image",0,0.0004,some "a.png",none,none⟩)]

theorem blinkingUntrimmed : ¬ ∀ (as : List Act) (o : Options) (p : Plan),
    (∀ a ∈ as, a.outside = false) →
      (∀ c ∈ (({} : Desk).run as).timeline.clips, c.start.isFinite = true ∧
        c.stop.isFinite = true) →
      (({} : Desk).run as).timeline.compile o = .ok p →
        ∀ n ∈ p.graph.ofKind "normalize", ∃ v, n.trim? = some v ∧ 0 < v := by
  intro positive
  obtain ⟨p,ok,none⟩ := answered (x := (({} : Desk).run blinking).timeline.compile {})
    (fun p => (p.graph.ofKind "normalize").map Node.trim? == [some 0]) (by decide +kernel)
  obtain ⟨n,node,trim⟩ := List.map_eq_singleton_iff.mp (beq_iff_eq.mp none)
  obtain ⟨v,trim',some⟩ := positive blinking {} p (by decide) (by decide +kernel) ok n
    (node ▸ List.mem_singleton_self n)
  cases trim.symm.trans trim'
  exact lt_irrefl _ some

end Desk
end Montage
