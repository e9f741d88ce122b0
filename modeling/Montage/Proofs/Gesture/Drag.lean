import Montage.Proofs.Timeline.Length
import Montage.Proofs.Gesture.Held
import Montage.Proofs.Desk

/-! Dragging over several frames, in whole seconds. Each frame reads the clip's span, the edges of
the other clips and the length of the timeline again. The first two are as they were when the clip
was pressed. The length is not: it may have become less because the clip that ended last has moved,
and then the end of the drag has less room than it would have had without the frames between. -/
namespace Montage

/-- A whole number below `2 ^ 40`; zero may have either sign. -/
def WholeSecond (x : Float) : Prop := ∃ n : Nat, n < 2 ^ 40 ∧ (x == Float.ofNat n) = true

theorem WholeSecond.whole {x : Float} (second : WholeSecond x) :
    ∃ n : Int, IsWhole x n ∧ 0 ≤ n ∧ n < 2 ^ 40 := by
  obtain ⟨n,small,same⟩ := second
  obtain ⟨below,above⟩ := beqPlaces same
  have whole := ofNatWhole (n := n) (by omega)
  have places := le_antisymm ((leIff _ _).mp below).2.2 ((leIff _ _).mp above).2.2
  exact ⟨n,⟨(numberOfLe below).1,places.trans whole.place⟩,by omega,by omega⟩

theorem secondOf {n : Nat} (small : n < 2 ^ 40) : WholeSecond (Float.ofNat n) := by
  have number := (ofNatWhole (n := n) (by omega)).number
  exact ⟨n,small,Float.beq_iff_ne_nan_and_eq.mpr
    ⟨by simpa using number,by simpa using number,.inl rfl⟩⟩

/-- The window, at an earlier time if it would end after `room`. -/
def movedBack (room : Float) (w : Float × Float) : Float × Float :=
  if w.2 ≤ room then w else (room - (w.2 - w.1),room)

theorem movedBackSame {room : Float} {w : Float × Float} (number : room.isNaN = false) :
    movedBack room w = w ↔ w.2 ≤ room := by
  unfold movedBack
  split
  · exact iff_of_true rfl ‹_›
  · rename_i late
    refine iff_of_false (fun same => late ?_) late
    rw [← same]
    exact leSelf number

section
variable {target room room' span : Float} {t m m' n : Int}

theorem roomWhole (measured : IsWhole room m) (spanned : IsWhole span n) (positive : 0 < n)
    (enough : n ≤ m) (small : m < 2 ^ 40) : IsWhole (firstMax 0 (room - span)) (m - n) := by
  have rest := measured.difference spanned (by omega) (by omega) (by omega)
  have whole := zeroWhole.max rest
  rwa [Int.max_eq_right (by omega)] at whole

theorem landedWhole (aimed : IsWhole target t) (measured : IsWhole room m)
    (spanned : IsWhole span n) (positive : 0 < n) (enough : n ≤ m) (small : m < 2 ^ 40) :
    IsWhole (landedStart target room span) (min (max t 0) (m - n)) := by
  exact (aimed.max zeroWhole).min (roomWhole measured spanned positive enough small)

theorem roomExact (measured : IsWhole room m) (spanned : IsWhole span n) (positive : 0 < n)
    (enough : n ≤ m) (small : m < 2 ^ 40) : firstMax 0 (room - span) = room - span := by
  by_cases tight : m = n
  · subst tight
    have same := measured.same spanned (by omega)
    rw [same,differenceSelf (spanned.finite (by omega))]
    rfl
  · have whole := roomWhole measured spanned positive enough small
    exact whole.same (measured.difference spanned (by omega) (by omega) (by omega)) (by omega)

theorem landedBack (aimed : IsWhole target t) (measured : IsWhole room m)
    (measured' : IsWhole room' m') (spanned : IsWhole span n) (positive : 0 < n) (enough : n ≤ m')
    (less : m' ≤ m) (small : m < 2 ^ 40) :
    (landedStart target room' span,landedStart target room' span + span) =
      movedBack room' (landedStart target room span,landedStart target room span + span) := by
  have start := landedWhole aimed measured spanned positive (enough.trans less) small
  have start' := landedWhole aimed measured' spanned positive enough (by omega)
  have stop := start.sum spanned (by omega) (by omega) (by omega)
  have stop' := start'.sum spanned (by omega) (by omega) (by omega)
  have place := aimed.max zeroWhole
  have free := roomWhole measured spanned positive (enough.trans less) small
  have free' := roomWhole measured' spanned positive enough (by omega)
  unfold movedBack
  split
  · rename_i fits
    have inside := (stop.le measured').mp fits
    -- Either both starts are the target or both are cut off, and then at the same length.
    have same : landedStart target room' span = landedStart target room span := by
      by_cases near : max t 0 ≤ m' - n
      · unfold landedStart firstMin
        rw [if_neg (by rw [free'.lt place]; omega),if_neg (by rw [free.lt place]; omega)]
      · have lengths : m' = m := by omega
        subst lengths
        rw [measured.same measured' (by omega)]
    rw [same]
  · rename_i late
    have outside : m' < min (max t 0) (m - n) + n :=
      Int.not_le.mp (late ∘ (stop.le measured').mpr)
    have most : landedStart target room' span = room' - span := by
      rw [← roomExact measured' spanned positive enough (by omega)]
      unfold landedStart firstMin
      rw [if_pos (by rw [free'.lt place]; omega)]
    have width := stop.difference start (by omega) (by omega) (by omega)
    rw [add_sub_cancel_left] at width
    rw [show min (max t 0) (m' - n) + n = m' by omega] at stop'
    rw [stop'.same measured' (by omega),width.same spanned (by omega),most]

end

/-- The clips around one that is dragged; none of them, and at first not that one either, ends
after `limit`. -/
structure Among (xs ys : List Clip) (c : Clip) (span limit : Int) : Prop where
  apart : ∀ d ∈ xs ++ ys, d.id ≠ c.id
  seconds : ∀ d ∈ xs ++ ys, WholeSecond d.start ∧ WholeSecond d.stop
  sound : c.check = .ok ()
  spanned : IsWhole c.span span
  positive : 0 < span
  least : 5 ≤ limit
  small : limit < 2 ^ 40
  above : ∀ d ∈ xs ++ ys, ∀ k, IsWhole d.stop k → k ≤ limit

theorem edgesWhole {xs ys : List Clip} {c : Clip} {span limit : Int}
    (among : Among xs ys c span limit) : ∀ t ∈ edges (xs ++ ys), ∃ n, IsWhole t n := by
  intro t mem
  obtain ⟨d,other,edge⟩ := List.mem_flatMap.mp mem
  obtain ⟨first,last⟩ := among.seconds d other
  rcases List.mem_cons.mp edge with rfl | rest
  · obtain ⟨n,whole,_⟩ := first.whole
    exact ⟨n,whole⟩
  · obtain ⟨n,whole,_⟩ := last.whole
    exact ⟨n,List.mem_singleton.mp rest ▸ whole⟩

/-- The dragged clip, wherever it is, has its first span and ends no later than `limit`. -/
structure Stands (xs ys : List Clip) (c : Clip) (span limit : Int) (start stop : Float) (k : Int)
    (tl : Timeline) : Prop where
  clips : tl.clips = xs ++ { c with start, stop } :: ys
  start : IsWhole start k
  stop : IsWhole stop (k + span)
  least : 0 ≤ k
  most : k + span ≤ limit

namespace Stands
variable {xs ys : List Clip} {c : Clip} {span limit k : Int} {start stop : Float} {tl : Timeline}

theorem room (stands : Stands xs ys c span limit start stop k tl) (among : Among xs ys c span limit) :
    ∃ room m, Room (tl.clips.map Clip.stop) room m ∧ span ≤ m ∧ m ≤ limit := by
  have small := among.small
  have positive := among.positive
  have least := stands.least
  have most := stands.most
  have ends : ∀ t ∈ tl.clips.map Clip.stop, t = stop ∨ ∃ d ∈ xs ++ ys, d.stop = t := by
    intro t mem
    obtain ⟨d,stored,rfl⟩ := List.mem_map.mp mem
    rw [stands.clips,memBetween] at stored
    exact stored.imp (fun same => congrArg Clip.stop same) fun other => ⟨d,other,rfl⟩
  have whole : ∀ t ∈ tl.clips.map Clip.stop, ∃ n, IsWhole t n ∧ 0 ≤ n ∧ n < 2 ^ 48 := by
    intro t mem
    rcases ends t mem with rfl | ⟨d,other,rfl⟩
    · exact ⟨k + span,stands.stop,by omega,by omega⟩
    · obtain ⟨n,whole,positive,below⟩ := (among.seconds d other).2.whole
      exact ⟨n,whole,positive,by omega⟩
  obtain ⟨room,m,measured⟩ := roomExists (by simp [stands.clips]) whole
  refine ⟨room,m,measured,?_,?_⟩
  · have := measured.endLe (by simp [stands.clips]) stands.stop
    omega
  · rcases measured.reached with five | ⟨t,mem,reached⟩
    · exact five ▸ among.least
    rcases ends t mem with rfl | ⟨d,other,rfl⟩
    · exact (stands.stop.value reached) ▸ most
    · exact among.above d other m reached

theorem spanKept (stands : Stands xs ys c span limit start stop k tl)
    (among : Among xs ys c span limit) : { c with start, stop }.span = c.span := by
  have small := among.small
  have least := stands.least
  have most := stands.most
  have positive := among.positive
  have whole := stands.stop.difference stands.start (by omega) (by omega) (by omega)
  rw [add_sub_cancel_left] at whole
  exact whole.same among.spanned (by omega)

theorem landed (stands : Stands xs ys c span limit start stop k tl)
    (among : Among xs ys c span limit) {u threshold room : Float} {v m : Int}
    (aimed : IsWhole (snapTime u (edges (xs ++ ys)) threshold) v)
    (measured : Room (tl.clips.map Clip.stop) room m) (enough : span ≤ m) (less : m ≤ limit) :
    ∃ l c' tl' start' k', tl.proposeMove c.id u none threshold = .ok l ∧ l.apply tl = .ok (c',tl') ∧
      start' = landedStart (snapTime u (edges (xs ++ ys)) threshold) room c.span ∧
      Stands xs ys c span limit start' (start' + c.span) k' tl' := by
  have small := among.small
  have positive := among.positive
  have whole := landedWhole aimed measured.whole among.spanned positive enough (by omega)
  have stops := whole.sum among.spanned (by omega) (by omega) (by omega)
  have proposed : tl.proposeMove c.id u none threshold =
      .ok ⟨c.id,landedStart (snapTime u (edges (xs ++ ys)) threshold) room c.span,
        landedStart (snapTime u (edges (xs ++ ys)) threshold) room c.span + c.span⟩ := by
    have made := Timeline.proposedBetween stands.clips among.apart measured.measured u threshold
    rwa [stands.spanKept among] at made
  generalize eq : landedStart (snapTime u (edges (xs ++ ys)) threshold) room c.span = start' at *
  have sound : { c with start := start', stop := start' + c.span }.check = .ok () :=
    Clip.checkWindow among.sound (by rw [whole.lt zeroWhole]; omega) (by rw [stops.le whole]; omega)
  obtain ⟨tl',applied,clips⟩ := Timeline.windowBetween stands.clips among.apart sound
  exact ⟨_,_,tl',start',_,proposed,applied,rfl,clips,whole,stops,by omega,by omega⟩

theorem roomKept {tl' : Timeline} {start' stop' room room' : Float} {k' m m' : Int}
    (stands : Stands xs ys c span limit c.start c.stop k tl)
    (stands' : Stands xs ys c span limit start' stop' k' tl') (among : Among xs ys c span limit)
    (measured : Room (tl.clips.map Clip.stop) room m)
    (measured' : Room (tl'.clips.map Clip.stop) room' m')
    (spare : c.stop ≤ 5 ∨ ∃ d ∈ tl.clips, d.id ≠ c.id ∧ c.stop ≤ d.stop) : m ≤ m' := by
  have least := measured'.least
  have other : ∀ d ∈ xs ++ ys, ∀ n, IsWhole d.stop n → n ≤ m' := by
    intro d mem n whole
    have stored : d ∈ tl'.clips := stands'.clips ▸ memBetween.mpr (.inr mem)
    exact measured'.endLe (List.mem_map_of_mem stored) whole
  rcases measured.reached with five | ⟨t,mem,reached⟩
  · omega
  obtain ⟨d,stored,rfl⟩ := List.mem_map.mp mem
  -- Only where the dragged clip itself ended last could the length have fallen.
  rcases memBetween.mp (stands.clips ▸ stored) with rfl | apart
  · rcases spare with early | ⟨e,stored',differs,later⟩
    · have := (reached.le fiveWhole).mp early
      omega
    · have mem' := (memBetween.mp (stands.clips ▸ stored')).resolve_left
        fun same => differs (congrArg Clip.id same)
      obtain ⟨n,whole,_,_⟩ := (among.seconds e mem').2.whole
      exact ((reached.le whole).mp later).trans (other e mem' n whole)
  · exact other d apart m reached

end Stands

namespace Session

/-- The session that has pressed `c` at `p` and noted where the pointer is now. -/
def holding (x : Session) (c : Clip) (p : Float) (pending : Option Float) : Session :=
  ⟨x.threshold,.dragging c.id (p - c.start) (c.start,c.stop),pending⟩

/-- Where the pressed clip would begin when the pointer is at `t`, if there were room. -/
def aim (x : Session) (c : Clip) (others : List Clip) (p t : Float) : Float :=
  snapTime (t - (p - c.start)) (edges others) x.threshold

variable {x : Session} {xs ys : List Clip} {c : Clip} {span limit k : Int} {start stop : Float}
  {tl : Timeline} {p t : Float}

theorem aimWhole (among : Among xs ys c span limit) (origin : WholeSecond c.start)
    (pressed : WholeSecond p) (noted : WholeSecond t) : ∃ v, IsWhole (x.aim c (xs ++ ys) p t) v := by
  obtain ⟨a,wholeP,_,_⟩ := pressed.whole
  obtain ⟨b,wholeFirst,_,_⟩ := origin.whole
  obtain ⟨d,wholeT,_,_⟩ := noted.whole
  have grab := wholeP.difference wholeFirst (by omega) (by omega) (by omega)
  have aimed := wholeT.difference grab (by omega) (by omega) (by omega)
  unfold aim
  rcases snapTimeSource (t - (p - c.start)) x.threshold (edges (xs ++ ys)) with same | mem
  · exact ⟨_,same.symm ▸ aimed⟩
  · exact edgesWhole among _ mem

theorem frameHolding (stands : Stands xs ys c span limit start stop k tl)
    (among : Among xs ys c span limit) {room : Float} {v m : Int}
    (aimed : IsWhole (x.aim c (xs ++ ys) p t) v)
    (measured : Room (tl.clips.map Clip.stop) room m) (enough : span ≤ m) (less : m ≤ limit) :
    ∃ start' k', start' = landedStart (x.aim c (xs ++ ys) p t) room c.span ∧
      ((x.holding c p (some t)).frame tl).session = x.holding c p none ∧
      Stands xs ys c span limit start' (start' + c.span) k'
        ((x.holding c p (some t)).frame tl).timeline := by
  obtain ⟨l,c',tl',start',k',proposed,applied,eq,stands'⟩ :=
    stands.landed among aimed measured enough less
  have framed : (x.holding c p (some t)).frame tl = ⟨.ok (some l),x.holding c p none,tl'⟩ :=
    frameLanded (c.grabbedBusy p none) (congrArg (Except.map some) proposed) applied
  rw [framed]
  exact ⟨start',k',eq,rfl,stands'⟩

end Session

/-- What the pointer may do between pressing and releasing. -/
def Command.waits : Command → Prop
  | move t => WholeSecond t
  | frame => True
  | _ => False

def Timeline.window? (tl : Timeline) (id : String) : Option (Float × Float) :=
  (tl.clip? id).map fun c => (c.start,c.stop)

namespace Studio
variable {xs ys : List Clip} {c : Clip} {span limit : Int} {x : Session} {p q : Float} {s : Studio}

structure Holding (xs ys : List Clip) (c : Clip) (span limit : Int) (x : Session) (p : Float)
    (s : Studio) : Prop where
  stands : ∃ start stop k, Stands xs ys c span limit start stop k s.timeline
  session : ∃ pending, s.session = some (x.holding c p pending) ∧ ∀ t ∈ pending, WholeSecond t

theorem runHolding (among : Among xs ys c span limit) (origin : WholeSecond c.start)
    (pressed : WholeSecond p) {ws : List Command} (waits : ∀ w ∈ ws, w.waits)
    (holding : Holding xs ys c span limit x p s) :
    Holding xs ys c span limit x p (s.run ws) := by
  have hovers : ∀ w ∈ ws, w.hovers WholeSecond := fun w mem => by
    have waits := waits w mem
    cases w <;> exact waits
  have frames (tl : Timeline) (here : ∃ start stop k, Stands xs ys c span limit start stop k tl)
      (t : Float) (noted : WholeSecond t) : ∃ start stop k, Stands xs ys c span limit start stop k
        ((⟨x.threshold,c.grabbed p none,some t⟩ : Session).frame tl).timeline := by
    obtain ⟨start,stop,k,stands⟩ := here
    obtain ⟨room,m,measured,enough,less⟩ := stands.room among
    obtain ⟨v,aimed⟩ := Session.aimWhole (x := x) among origin pressed noted
    obtain ⟨start',k',_,_,stands'⟩ := Session.frameHolding stands among aimed measured enough less
    exact ⟨_,_,_,stands'⟩
  have held := runHeld frames hovers ⟨holding.stands,holding.session⟩
  exact ⟨held.timeline,held.session⟩

theorem releaseStep {pending : Option Float} (present : s.session = some (x.holding c p pending)) :
    (s.step (.release (some q))).2.timeline =
      ((x.holding c p (some q)).frame s.timeline).timeline :=
  congrArg (·.2.timeline) (releaseHeld (c.grabbedBusy p none) present q)

theorem pressStep {tl : Timeline} (idle : x.gesture = .idle) (found : tl.clip c.id = .ok c) :
    ((⟨tl,some x⟩ : Studio).step (.press c.id p none)).2 = ⟨tl,some (x.holding c p none)⟩ :=
  congrArg Prod.snd (pressStepGrabbed idle found p none)

theorem released {pending : Option Float} {start stop room : Float} {k m v : Int}
    (stands : Stands xs ys c span limit start stop k s.timeline)
    (among : Among xs ys c span limit) (present : s.session = some (x.holding c p pending))
    (aimed : IsWhole (x.aim c (xs ++ ys) p q) v)
    (measured : Room (s.timeline.clips.map Clip.stop) room m) (enough : span ≤ m)
    (less : m ≤ limit) :
    (s.step (.release (some q))).2.timeline.window? c.id =
      some (landedStart (x.aim c (xs ++ ys) p q) room c.span,
        landedStart (x.aim c (xs ++ ys) p q) room c.span + c.span) := by
  obtain ⟨start',k',eq,_,stands'⟩ :=
    Session.frameHolding stands among aimed measured enough less
  rw [releaseStep present]
  unfold Timeline.window?
  rw [Timeline.clipBetween (c := { c with start := start', stop := start' + c.span })
    stands'.clips among.apart,← eq]
  rfl

theorem amongOf {tl : Timeline} (kept : tl.Kept False) (mem : c ∈ tl.clips)
    (seconds : ∀ d ∈ tl.clips, WholeSecond d.start ∧ WholeSecond d.stop) :
    ∃ xs ys span room m k, Room (tl.clips.map Clip.stop) room m ∧ Among xs ys c span m ∧
      Stands xs ys c span m c.start c.stop k tl := by
  obtain ⟨xs,ys,clips,apart⟩ := Timeline.splitBetween kept.ids mem
  have others : ∀ d ∈ xs ++ ys, d ∈ tl.clips := fun d other => clips ▸ memBetween.mpr (.inr other)
  have whole : ∀ t ∈ tl.clips.map Clip.stop, ∃ n, IsWhole t n ∧ 0 ≤ n ∧ n < 2 ^ 40 := by
    intro t stored
    obtain ⟨d,mem,rfl⟩ := List.mem_map.mp stored
    exact (seconds d mem).2.whole
  obtain ⟨room,m,measured⟩ : ∃ room m, Room (tl.clips.map Clip.stop) room m := by
    refine roomExists (by simpa using List.ne_nil_of_mem mem) fun t mem => ?_
    obtain ⟨n,whole,positive,small⟩ := whole t mem
    exact ⟨n,whole,positive,by omega⟩
  have above : ∀ d ∈ tl.clips, ∀ n, IsWhole d.stop n → n ≤ m := fun d mem n whole =>
    measured.endLe (List.mem_map_of_mem mem) whole
  have small : m < 2 ^ 40 := by
    rcases measured.reached with five | ⟨t,mem,reached⟩
    · omega
    · obtain ⟨n,known,_,small⟩ := whole t mem
      exact (known.value reached) ▸ small
  obtain ⟨a,first,least,_⟩ := (seconds c mem).1.whole
  obtain ⟨b,last,_,_⟩ := (seconds c mem).2.whole
  have sound := kept.clips c mem
  have window : a < b := by
    have := Clip.checkOpen sound
    rw [last.le first] at this
    omega
  have spanned := last.difference first (by omega) (by omega) (by omega)
  refine ⟨xs,ys,b - a,room,m,a,measured,?_,clips,first,?_,least,?_⟩
  · exact ⟨apart,fun d mem => seconds d (others d mem),sound,spanned,by omega,measured.least,small,
      fun d mem => above d (others d mem)⟩
  · rwa [add_sub_cancel]
  · rw [add_sub_cancel]
    exact above c mem b last

/-- A clip pressed at `p`, and what is done before it is released. -/
def hold (s : Studio) (id : String) (p : Float) (ws : List Command) : Studio :=
  s.run (.press id p none :: ws)

def drag (s : Studio) (id : String) (p q : Float) (ws : List Command) : Studio :=
  ((s.hold id p ws).step (.release (some q))).2

/-- The frames between make no difference but for the length that the last of them left. -/
theorem dragSettled {as : List Act} {ws : List Command} (inside : ∀ a ∈ as, a.outside = false)
    (idle : x.gesture = .idle) (mem : c ∈ (({} : Desk).run as).timeline.clips)
    (seconds : ∀ d ∈ (({} : Desk).run as).timeline.clips, WholeSecond d.start ∧ WholeSecond d.stop)
    (pressed : WholeSecond p) (settled : WholeSecond q) (waits : ∀ w ∈ ws, w.waits) :
    let s : Studio := ⟨(({} : Desk).run as).timeline,some x⟩
    ∃ room w, (s.hold c.id p ws).timeline.length = .ok room ∧
      s.timeline.proposeMove c.id (q - (p - c.start)) none x.threshold = .ok ⟨c.id,w.1,w.2⟩ ∧
      (s.drag c.id p q []).timeline.window? c.id = some w ∧
      (s.drag c.id p q ws).timeline.window? c.id = some (movedBack room w) ∧
      (movedBack room w = w ↔ w.2 ≤ room) ∧
      ((c.stop ≤ 5 ∨ ∃ d ∈ s.timeline.clips, d.id ≠ c.id ∧ c.stop ≤ d.stop) → w.2 ≤ room) := by
  generalize tl' : (({} : Desk).run as).timeline = tl at *
  have kept : tl.Kept False := tl' ▸ Desk.runChecked inside
  obtain ⟨xs,ys,span,room,m,k,measured,among,stands⟩ := amongOf kept mem seconds
  have origin := (seconds c mem).1
  have small := among.small
  have positive := among.positive
  have pressing := pressStep (c := c) (p := p) idle (Timeline.clipOkBetween stands.clips among.apart)
  obtain ⟨v,aimed⟩ := Session.aimWhole (x := x) among origin pressed settled
  have enough : span ≤ m := by
    have := stands.least
    have := stands.most
    omega
  have direct := released (s := ⟨tl,some (x.holding c p none)⟩) stands among rfl aimed measured
    enough le_rfl
  obtain ⟨⟨_,_,_,stands'⟩,_,present,_⟩ := runHolding among origin pressed waits
    (s := ⟨tl,some (x.holding c p none)⟩) ⟨⟨_,_,_,stands⟩,none,rfl,by simp⟩
  obtain ⟨room',m',measured',enough',less⟩ := stands'.room among
  have waited := released stands' among present aimed measured' enough' less
  -- Both releases aim at the same start; they differ in the length alone.
  rw [landedBack aimed measured.whole measured'.whole among.spanned among.positive enough' less
    (by omega)] at waited
  have begun : (⟨tl,some x⟩ : Studio).hold c.id p [] = ⟨tl,some (x.holding c p none)⟩ := pressing
  have held : (⟨tl,some x⟩ : Studio).hold c.id p ws =
      (⟨tl,some (x.holding c p none)⟩ : Studio).run ws := congrArg (run · ws) pressing
  rw [← begun] at direct
  rw [← held] at waited measured'
  have proposed := Timeline.proposedBetween stands.clips among.apart measured.measured
    (q - (p - c.start)) x.threshold
  refine ⟨room',_,measured'.measured,proposed,direct,waited,
    movedBackSame measured'.whole.number,?_⟩
  intro spare
  have kept := stands.roomKept stands' among measured (held ▸ measured') spare
  have stops := (landedWhole aimed measured.whole among.spanned positive enough small).sum
    among.spanned (by omega) (by omega) (by omega)
  exact (stops.le measured'.whole).mpr (by omega)

def closing : Clip := ⟨"a","video","video",6,10,some "a.mp4",none,none⟩
def music : Clip := ⟨"b","audio","audio",0,12,some "b.mp3",none,none⟩

theorem closingSeconds : WholeSecond closing.start ∧ WholeSecond closing.stop :=
  ⟨secondOf (n := 6) (by decide),secondOf (n := 10) (by decide)⟩

def scored : List Act := [.command 0 (.addClip closing),.command 0 (.addClip music)]

/-- The music keeps the room while the clip is away at the beginning. -/
theorem scoredSettled :
    (∀ a ∈ scored, a.outside = false) ∧
      closing ∈ (({} : Desk).run scored).timeline.clips ∧
      (∀ d ∈ (({} : Desk).run scored).timeline.clips, WholeSecond d.start ∧ WholeSecond d.stop) ∧
      ((⟨(({} : Desk).run scored).timeline,some {}⟩ : Studio).drag "a" 6 7
        [.move 0,.frame,.move 3]).timeline.window? "a" = some (7,11) ∧
      ((⟨(({} : Desk).run scored).timeline,some {}⟩ : Studio).drag "a" 6 7 []).timeline.window? "a" =
        some (7,11) := by
  have inside : ∀ a ∈ scored, a.outside = false := by decide
  have clips : (({} : Desk).run scored).timeline.clips = [closing,music] := by decide +kernel
  have mem : closing ∈ (({} : Desk).run scored).timeline.clips := by simp [clips]
  have seconds : ∀ d ∈ (({} : Desk).run scored).timeline.clips,
      WholeSecond d.start ∧ WholeSecond d.stop := by
    rw [clips]
    simp only [List.mem_cons,List.not_mem_nil,or_false,forall_eq_or_imp,forall_eq]
    exact ⟨closingSeconds,secondOf (n := 0) (by decide),secondOf (n := 12) (by decide)⟩
  have waits : ∀ w ∈ [Command.move 0,.frame,.move 3], w.waits := by
    simp only [List.mem_cons,List.not_mem_nil,or_false,forall_eq_or_imp,forall_eq]
    exact ⟨secondOf (n := 0) (by decide),trivial,secondOf (n := 3) (by decide)⟩
  obtain ⟨room,w,_,_,direct,waited,same,spare⟩ := dragSettled (x := {}) inside rfl mem seconds
    (secondOf (n := 6) (by decide))
    (secondOf (n := 7) (by decide)) waits
  have fits := spare (.inr ⟨music,by simp [clips],by decide,by decide +kernel⟩)
  rw [same.mpr fits] at waited
  have at' : ((⟨(({} : Desk).run scored).timeline,some {}⟩ : Studio).drag "a" 6 7
      []).timeline.window? "a" = some (7,11) := by decide +kernel
  exact ⟨inside,mem,seconds,waited.trans (direct.symm.trans at'),at'⟩

/-- While the only clip is away at the beginning, the timeline is five seconds long. -/
theorem closingShortened : ¬ ∀ (as : List Act) (x : Session) (c : Clip) (p q : Float)
    (ws : List Command), (∀ a ∈ as, a.outside = false) → x.gesture = .idle →
      c ∈ (({} : Desk).run as).timeline.clips →
      (∀ d ∈ (({} : Desk).run as).timeline.clips, WholeSecond d.start ∧ WholeSecond d.stop) →
      WholeSecond p → WholeSecond q → (∀ w ∈ ws, w.waits) →
        ((⟨(({} : Desk).run as).timeline,some x⟩ : Studio).drag c.id p q ws).timeline.window? c.id =
          ((⟨(({} : Desk).run as).timeline,some x⟩ : Studio).drag c.id p q []).timeline.window?
            c.id := by
  intro same
  have clips : (({} : Desk).run [.command 0 (.addClip closing)]).timeline.clips = [closing] := by
    decide +kernel
  have waits : ∀ w ∈ [Command.move 0,.frame], w.waits := by
    simp only [List.mem_cons,List.not_mem_nil,or_false,forall_eq_or_imp,forall_eq]
    exact ⟨secondOf (n := 0) (by decide),trivial⟩
  have windows := same [.command 0 (.addClip closing)] {} closing 6 6 [.move 0,.frame] (by decide)
    rfl (by simp [clips]) (by simpa [clips] using closingSeconds) closingSeconds.1 closingSeconds.1
    waits
  revert windows
  decide +kernel

end Studio
end Montage
