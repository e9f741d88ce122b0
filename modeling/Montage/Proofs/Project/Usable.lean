import Montage.Proofs.Project.Built
import Montage.Proofs.Timeline.Tenths

/-! The numbers of a project. Its clips and its length are asked whether they are out of order, which
NaN never is and infinity need not be, and nothing is asked of the size of its picture. What is left
to ask decides whether all of its numbers can be used. -/
namespace Montage

theorem oneLeQuotient {a : Int} {b : Nat} (positive : 0 < b) : 1 ≤ a.tdiv b ↔ b ≤ a := by
  rcases lt_or_ge a 0 with less | least
  · have above := Int.tdiv_nonneg (a := -a) (b := b) (by omega) (by omega)
    rw [Int.neg_tdiv] at above
    omega
  · rw [Int.tdiv_eq_ediv_of_nonneg least,Int.le_ediv_iff_mul_le (by omega),Int.one_mul]

theorem oneLeWhole {x : Float} {n : Int} (ok : wholeTowardZero x = .ok n) : 1 ≤ n ↔ 1 ≤ x := by
  have finite := (wholeIff _ x).mp ⟨n,ok⟩
  obtain ⟨negative,m,e,read,positive,same⟩ := exactPlace finite
  have wide := onesPositive
  unfold wholeTowardZero wholeBy at ok
  rw [read] at ok
  cases Except.ok.inj ok
  have one : 1 ≤ x ↔ (ones : Int) ≤ place x := by
    rw [leIff,oneWhole.place,Int.one_mul]
    exact ⟨fun le => le.2.2,fun le => ⟨rfl,finiteNumber finite,le⟩⟩
  refine (oneLeQuotient positive).trans (Iff.trans ?_ one.symm)
  rw [← Int.mul_le_mul_right (a := (ones : Int)) (by omega),same,Int.mul_comm]
  exact Int.mul_le_mul_right (by omega)

namespace Clip

/-- A window of finite times, in order. -/
structure Lasting (c : Clip) : Prop where
  least : 0 ≤ c.start
  order : c.start < c.stop
  first : c.start.isFinite = true
  last : c.stop.isFinite = true

theorem lastingIff {c : Clip} (ok : c.check = .ok ()) :
    c.Lasting ↔ c.start.isNaN = false ∧ c.stop.isFinite = true := by
  constructor
  · exact fun lasting => ⟨finiteNumber lasting.first,lasting.last⟩
  · rintro ⟨number,finite⟩
    have sound := c.soundOf ok ⟨number,finiteNumber finite⟩
    exact ⟨sound.start,sound.window,finiteStart sound.start sound.window,finite⟩

end Clip

namespace Timeline
variable {tl : Timeline}

theorem usableLength (least : ∀ c ∈ tl.clips, 0 ≤ c.stop) (ends : tl.endsRound = true) :
    ∃ x, tl.length = .ok x ∧ x.isFinite = true ∧ 5 ≤ x := by
  unfold length lengthOf
  unfold endsRound at ends
  have positive : ∀ t ∈ tl.clips.map Clip.stop, 0 ≤ t := List.forall_mem_map.mpr least
  generalize tl.clips.map Clip.stop = stops at positive ends
  cases stops with
  | nil => exact ⟨150,rfl,rfl,by decide⟩
  | cons x xs =>
    have last := positive _ (greatestMem x xs)
    have tens := finiteOfShifted ends
    have low : 0 * 10 + 0.5 ≤ greatest x xs * 10 + 0.5 :=
      sumRises (productRises last rfl (finiteOfTenfold tens) rfl (by decide)) rfl tens rfl
    have finite := tenthFinite (leTrans (by decide) low) ends
    have five := leFirstMax (rfl : (5 : Float).isNaN = false) (tenth (tenths (greatest x xs)))
    refine ⟨_,bindTotal (roundTenthEq ends) rfl,?_,five⟩
    unfold firstMax
    split
    · exact finite
    · rfl

/-- An end can be rounded just when ten times it is finite, half a tenth added. -/
theorem usableIff (checked : ∀ c ∈ tl.clips, c.check = .ok ()) :
    ((∀ c ∈ tl.clips, c.Lasting) ∧ ∃ x, tl.length = .ok x ∧ x.isFinite = true ∧ 5 ≤ x) ↔
      ∀ c ∈ tl.clips, c.start.isNaN = false ∧ (c.stop * 10 + 0.5).isFinite = true := by
  have least (lasting : ∀ c ∈ tl.clips, c.Lasting) : ∀ c ∈ tl.clips, 0 ≤ c.stop := fun c mem =>
    leTrans (lasting c mem).least (leOfLess (lasting c mem).order)
  constructor
  · rintro ⟨lasting,x,length,_⟩ c mem
    have ends := lengthIff.mp ⟨x,length⟩
    exact ⟨finiteNumber (lasting c mem).first,(endsRoundEach (least lasting)).mp ends c mem⟩
  · intro numbers
    have lasting : ∀ c ∈ tl.clips, c.Lasting := fun c mem => (Clip.lastingIff (checked c mem)).mpr
      ⟨(numbers c mem).1,finiteOfTenfold (finiteOfShifted (numbers c mem).2)⟩
    exact ⟨lasting,usableLength (least lasting) ((endsRoundEach (least lasting)).mpr fun c mem =>
      (numbers c mem).2)⟩

end Timeline

namespace Project

structure Usable (p : Project) : Prop where
  width : 1 ≤ p.width
  height : 1 ≤ p.height
  rate : 1 ≤ p.rate
  length : ∀ x, p.length = some x → 0 < x ∧ x.isFinite = true
  clips : ∀ c ∈ p.timeline.clips, c.Lasting
  measured : ∃ x, p.timeline.length = .ok x ∧ x.isFinite = true ∧ 5 ≤ x

/-- If a list of two numbers or a pair of numbers, then of two that are one or more. -/
def Sizable (v : Value) : Prop :=
  ∀ a b, v = .list [a,b] ∨ v = .pair a b → ∀ w h, Entry.number place "video.resolution" a.bare = .ok w →
    Entry.number place "video.resolution" b.bare = .ok h → 1 ≤ w ∧ 1 ≤ h

/-- A size that is given leaves room for a picture, and a length that is given is finite. -/
structure Sane (raw : List (Scalar × Value)) : Prop where
  size : ∀ video v, Entry.entries (entryAt? raw "video") = .ok video →
    entryAt? video "resolution" = some v → Sizable v
  length : ∀ v x, entryAt? raw "duration" = some v →
    Entry.number place "duration" v = .ok x → x.isFinite = true

theorem resolutionSource {video : List (Scalar × Value)} {w h : Int}
    (ok : resolution video = .ok (w,h)) :
    (∀ v, entryAt? video "resolution" = some v → Sizable v) ↔ 1 ≤ w ∧ 1 ≤ h := by
  have usual : Sizable usualSize := by
    rintro a b (same | same) w h first second
    · cases same
    · cases same
      cases Except.ok.inj first
      cases Except.ok.inj second
      decide
  have given : (∀ v, entryAt? video "resolution" = some v → Sizable v) ↔
      Sizable ((entryAt? video "resolution").getD usualSize) := by
    cases entryAt? video "resolution" with
    | none => simpa using usual
    | some v => simp
  rw [given]
  unfold resolution at ok
  dsimp only at ok
  split at ok
  · rename_i a b two
    obtain ⟨x,first,ok⟩ := bindOk ok
    obtain ⟨y,second,ok⟩ := bindOk ok
    obtain ⟨m,wide,ok⟩ := bindOk ok
    obtain ⟨n,high,last⟩ := bindOk ok
    cases Except.ok.inj last
    rw [oneLeWhole (wholeOk.mp wide),oneLeWhole (wholeOk.mp high)]
    constructor
    · exact fun sizable => sizable a b (Value.twoIff.mp two) x y first second
    · rintro sizes a' b' again x' y' first' second'
      cases two.symm.trans (Value.twoIff.mpr again)
      cases first.symm.trans first'
      cases second.symm.trans second'
      exact sizes
  · cases ok

theorem rateSource {video : List (Scalar × Value)} {n : Int} (ok : rateOf video = .ok n) :
    1 ≤ n := by
  unfold rateOf at ok
  split at ok
  · obtain ⟨positive,last⟩ := checkedOk ok
    cases Except.ok.inj last
    omega
  · cases ok

theorem presentGiven {v : Value} (given : v ≠ .null) : Entry.present (some v) = some v := by
  unfold Entry.present
  split
  · rename_i null
    exact absurd (Option.some.inj null) given
  · rfl

theorem lengthSource {raw : List (Scalar × Value)} {length : Option Float}
    (ok : lengthIn raw = .ok length) :
    (∀ x, length = some x → ¬ x ≤ 0) ∧
      ((∀ v x, entryAt? raw "duration" = some v → Entry.number place "duration" v = .ok x →
        x.isFinite = true) ↔ ∀ x, length = some x → x.isFinite = true) := by
  unfold lengthIn at ok
  generalize entryAt? raw "duration" = given at ok
  cases given with
  | none =>
    cases Except.ok.inj ok
    simp
  | some v =>
    by_cases null : v = .null
    · subst null
      cases Except.ok.inj ok
      refine ⟨nofun,iff_of_true (fun w x same number => ?_) nofun⟩
      cases Option.some.inj same
      cases number
    · rw [presentGiven null] at ok
      obtain ⟨x,number,ok⟩ := bindOk ok
      obtain ⟨positive,last⟩ := guardOk ok
      cases Except.ok.inj last
      refine ⟨fun y same => Option.some.inj same ▸ positive,fun finite y same => ?_,
        fun finite w y same number' => ?_⟩
      · exact Option.some.inj same ▸ finite v x rfl number
      · cases Option.some.inj same
        cases number.symm.trans number'
        exact finite x rfl

variable {media : Media} {probe : Bool} {raw : List (Scalar × Value)} {log log' : List Probe}
  {project : Project}

theorem buildUsable (ok : (build media probe (.mapping raw)).run log = (.ok project,log')) :
    1 ≤ project.rate ∧ (∀ x, project.length = some x → ¬ x ≤ 0) ∧
    (∀ c ∈ project.timeline.clips, ¬ c.start < 0 ∧ ¬ c.stop ≤ c.start) ∧
    (project.Usable ↔ Sane raw ∧ ∀ c ∈ project.timeline.clips,
      c.start.isNaN = false ∧ (c.stop * 10 + 0.5).isFinite = true) := by
  obtain ⟨⟨video,read,size,rated⟩,measured,_⟩ := ofEntriesSource ok
  have checked := (buildKept ok).clips
  have rate := rateSource rated
  have sizes := resolutionSource size
  obtain ⟨positive,finite⟩ := lengthSource measured
  refine ⟨rate,positive,fun c mem => ?_,?_⟩
  · obtain ⟨_,_,above,order,_⟩ := c.checkSource (checked c mem)
    exact ⟨above,order⟩
  rw [← Timeline.usableIff checked]
  constructor
  · intro usable
    refine ⟨⟨fun video' v read' => ?_,finite.mpr fun x same => (usable.length x same).2⟩,
      usable.clips,usable.measured⟩
    cases read.symm.trans read'
    exact sizes.mpr ⟨usable.width,usable.height⟩ v
  · rintro ⟨sane,clips,length⟩
    obtain ⟨width,height⟩ := sizes.mp fun v => sane.size video v read
    refine ⟨width,height,rate,fun x same => ?_,clips,length⟩
    have number := finite.mp sane.length x same
    exact ⟨(notLeIff (finiteNumber number) rfl).mp (positive x same),number⟩

def flyer : List (Scalar × Value) :=
  [(.text "video",.mapping [(.text "resolution",.list [.whole 640,.whole 360])]),
    (.text "duration",.whole 12),
    (.text "clips",.list [.mapping [(.text "id",.text "a"),(.text "track",.text "video"),
      (.text "path",.text "a.mp4"),(.text "start",.whole 0),(.text "end",.whole 4)]])]

theorem flyerUsable : ∃ project log,
    (build [] false (.mapping flyer)).run [] = (.ok project,log) ∧ project.Usable := by
  have answer : (((build [] false (.mapping flyer)).run []).1.toOption.map fun p =>
      p.timeline.clips) = some [⟨"a","video","video",0,4,some "a.mp4",none,none⟩] := by
    decide +kernel
  obtain ⟨project,log,built⟩ := probeAnswered (build [] false (.mapping flyer)) []
    (by decide +kernel)
  rw [built] at answer
  have sane : Sane flyer := by
    constructor
    · intro video v read given a b same w h first second
      cases Except.ok.inj read
      cases Option.some.inj given
      rcases same with same | same
      · cases same
        cases Except.ok.inj first
        cases Except.ok.inj second
        decide
      · cases same
    · intro v x given number
      cases Option.some.inj given
      cases Except.ok.inj number
      rfl
  refine ⟨project,log,built,(buildUsable built).2.2.2.mpr ⟨sane,fun c mem => ?_⟩⟩
  have clips : project.timeline.clips = _ := Option.some.inj answer
  rw [clips,List.mem_singleton] at mem
  subst mem
  decide +kernel

/-- It is asked whether the length is zero or less, and NaN is not. -/
theorem endlessUnusable : ¬ ∀ (media : Media) (probe : Bool) (raw : List (Scalar × Value))
    (log log' : List Probe) (project : Project),
    (build media probe (.mapping raw)).run log = (.ok project,log') → project.Usable := by
  intro usable
  let raw : List (Scalar × Value) := [(.text "duration",.real (0 / 0))]
  have answer : (((build [] false (.mapping raw)).run []).1.toOption.map Project.length) =
      some (some (0 / 0)) := by decide +kernel
  obtain ⟨project,log,built⟩ := probeAnswered (build [] false (.mapping raw)) []
    (by decide +kernel)
  rw [built] at answer
  have positive := (usable [] false _ [] log project built).length _ (Option.some.inj answer)
  revert positive
  decide +kernel

end Project
end Montage
