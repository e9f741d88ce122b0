import Montage.Proofs.Double.Value
import Montage.Proofs.Render.Inputs
import Montage.Proofs.Render.Trimmed
import Montage.Proofs.Timeline.Reconciled

/-! How long the sound is. A track is cut after the span of its clip or after the output, whichever
ends first; both times are rounded to the millisecond apart, and rounding keeps their order. -/
namespace Montage

/-- The value of the first flag of this name, where every flag has a value. -/
def flagValue? (flag : String) : List String → Option String
  | name :: value :: rest => if name = flag then some value else flagValue? flag rest
  | _ => none

theorem flagPast {flag : String} (other : String) (apart : other ≠ flag) (value : String → String)
    (xs ys : List String) :
    flagValue? flag (xs.flatMap (fun x => [other,value x]) ++ ys) = flagValue? flag ys := by
  induction xs with
  | nil => rfl
  | cons x xs ih => exact (if_neg apart).trans ih

/-- When the output ends, as the command line says. -/
noncomputable def Plan.cut? (p : Plan) (tool : String) : Option EReal :=
  (flagValue? "-t" ((p.command tool).drop 2)).bind Decimal.reading?

/-- When a track ends, as its text says. -/
noncomputable def Node.soundEnd? (n : Node) : Option EReal :=
  ((n.filters.find? (·.name == "atrim")).bind (·.args[1]?)).bind Decimal.reading?

theorem Plan.cutTold (p : Plan) (tool : String) (number : p.length.isNaN = false) :
    p.cut? tool = some (Decimal.told p.length) := by
  have value : flagValue? "-t" ((p.command tool).drop 2) = some (Decimal.secondsText p.length) := by
    unfold command
    simp only [List.append_assoc,List.cons_append,List.nil_append,List.drop_succ_cons,
      List.drop_zero]
    rw [flagPast "-i" (by decide) fun path => path]
    refine (if_neg (by decide)).trans ?_
    rw [flagPast "-map" (by decide) fun label => "[" ++ label ++ "]"]
    exact if_pos rfl
  unfold cut?
  rw [value]
  exact Decimal.readingTold number

theorem Sound.trackEnd (length : Float) (input i : Nat) (c : Clip)
    (number : (firstMin c.span length).isNaN = false) :
    (track length input i c).soundEnd? = some (Decimal.told (firstMin c.span length)) :=
  Decimal.readingTold number

namespace Timeline
variable {tl : Timeline} {o : Options} {p : Plan}

theorem plannedFinite (given : ∀ x, o.length = some x → x.isFinite = true) {length : Float}
    (ok : plannedLength tl o = .ok length) : length.isFinite = true := by
  unfold plannedLength at ok
  split at ok
  · rename_i x known
    exact Except.ok.inj ok ▸ given x known
  · exact lengthFinite ok

/-- Each track is cut no later than the output, and half a millisecond at most from where the clip
or the output ends. -/
theorem compileWithin (times : ∀ c ∈ tl.clips, c.start.isFinite = true ∧ c.stop.isFinite = true)
    (given : ∀ x, o.length = some x → x.isFinite = true) (ok : tl.compile o = .ok p) :
    ∃ t, (∀ tool, p.cut? tool = some t) ∧
      List.Forall₂ (fun c n => ∃ v, n.soundEnd? = some v ∧ v ≤ t ∧
        Decimal.Near v (min (extended c.span) (extended p.length))) tl.audio
        (p.graph.ofKind "audio") := by
  obtain ⟨length,sources,picture,_,known,_,drawn,rfl⟩ := compileSource ok
  have finite := plannedFinite given known
  have number := finiteNumber finite
  refine ⟨Decimal.told length,fun tool => Plan.cutTold _ tool number,?_⟩
  obtain ⟨_,tracks⟩ := assembledKinds drawn length
  rw [tracks]
  refine madeFrom (Sound.track length) fun c mem input i => ?_
  obtain ⟨start,stop⟩ := times c (ofKindsMem.mp mem).1
  have span : c.span.isNaN = false := (differencePlace stop start).1
  have lesser : (firstMin c.span length).isNaN = false := by
    unfold firstMin
    split <;> assumption
  have within := (notLtIff number lesser).mp (notAbove c.span length)
  refine ⟨_,Sound.trackEnd length input i c lesser,
    Decimal.toldRises finite within,?_⟩
  exact extendedMin span number ▸ Decimal.toldNear _

theorem sceneWithin :
    let tl := (({} : Desk).run scene).timeline
    (∀ c ∈ tl.clips, c.start.isFinite = true ∧ c.stop.isFinite = true) ∧
      (∀ x, ({} : Options).length = some x → x.isFinite = true) ∧
      ∃ p, tl.compile {} = .ok p ∧ tl.audio ≠ [] ∧ ∃ t, (∀ tool, p.cut? tool = some t) ∧
        List.Forall₂ (fun c n => ∃ v, n.soundEnd? = some v ∧ v ≤ t ∧
          Decimal.Near v (min (extended c.span) (extended p.length))) tl.audio
          (p.graph.ofKind "audio") := by
  intro tl
  have times : ∀ c ∈ tl.clips, c.start.isFinite = true ∧ c.stop.isFinite = true := by
    decide +kernel
  obtain ⟨p,ok⟩ := scenePlanned
  have given : ∀ x, ({} : Options).length = some x → x.isFinite = true :=
    fun x known => nomatch (known : none = some x)
  have heard : ⟨"b","audio","audio",1,4,some "b.mp3",none,none⟩ ∈ tl.audio :=
    ofKindsMem.mpr ⟨by decide +kernel,by decide⟩
  exact ⟨times,given,p,ok,List.ne_nil_of_mem heard,compileWithin times given ok⟩

end Timeline
end Montage
