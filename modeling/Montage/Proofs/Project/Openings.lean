import Montage.Proofs.Project.Orderly

/-! Openings. The files that a computation opens are noted after those that were opened before, and
neither they nor the answer depend on these. So two computations that answer alike can be compared
by what they open, and where one opens a file more than the other, whatever goes on from them in the
same way keeps the difference and adds none. -/
namespace Montage

/-- One answer and one list of openings, whatever was opened before. -/
def Noting (x : Probing α) : Prop := ∃ answer noted, ∀ log, x.run log = (answer,log ++ noted)

/-- Both answer alike and open the same files in the same order, except that `y` may open one more,
of which `P` holds. -/
def Spared (P : Probe → Prop) (x y : Probing α) : Prop :=
  ∃ answer front back, ∃ own : Option Probe, (∀ p ∈ own, P p) ∧ ∀ log,
    x.run log = (answer,log ++ (front ++ back)) ∧
    y.run log = (answer,log ++ (front ++ own.toList ++ back))

section
variable {α β : Type} {x y : Probing α} {f g : α → Probing β}

namespace Noting

theorem lifted (x : Except Fault α) : Noting (liftM x : Probing α) :=
  ⟨x,[],fun log => by rw [liftedRun,List.append_nil]⟩

theorem bind (first : Noting x) (rest : ∀ a, Noting (f a)) : Noting (x >>= f) := by
  obtain ⟨answer,noted,runs⟩ := first
  cases answer with
  | error e => exact ⟨.error e,noted,fun log => failedRun (runs log)⟩
  | ok a =>
    obtain ⟨answer,later,goes⟩ := rest a
    refine ⟨answer,noted ++ later,fun log => ?_⟩
    rw [boundRun (runs log),goes,List.append_assoc]

theorem onward {x : Except Fault α} (rest : ∀ a, Noting (f a)) :
    Noting ((liftM x : Probing α) >>= f) :=
  (lifted x).bind rest

theorem guard {p : Prop} [Decidable p] {fault : Fault} {k : PUnit → Probing β}
    (rest : Noting (k ⟨⟩)) :
    Noting (if p then (throw fault : Probing PUnit) >>= k else k ⟨⟩) := by
  split
  · exact lifted (.error fault)
  · exact rest

end Noting

namespace Spared
variable {P : Probe → Prop}

theorem same (noting : Noting x) : Spared P x x := by
  obtain ⟨answer,noted,runs⟩ := noting
  refine ⟨answer,noted,[],none,nofun,fun log => ?_⟩
  rw [runs,Option.toList_none,List.append_nil,List.append_nil]
  exact ⟨rfl,rfl⟩

theorem before (first : Noting x) (rest : ∀ a, Spared P (f a) (g a)) :
    Spared P (x >>= f) (x >>= g) := by
  obtain ⟨answer,noted,runs⟩ := first
  cases answer with
  | error e =>
    refine ⟨.error e,noted,[],none,nofun,fun log => ?_⟩
    rw [failedRun (runs log),failedRun (runs log),Option.toList_none,List.append_nil,
      List.append_nil]
    exact ⟨rfl,rfl⟩
  | ok a =>
    obtain ⟨answer,front,back,own,held,both⟩ := rest a
    refine ⟨answer,noted ++ front,back,own,held,fun log => ?_⟩
    rw [boundRun (runs log),boundRun (runs log),(both _).1,(both _).2]
    simp only [List.append_assoc,and_self]

theorem onward {x : Except Fault α} (rest : ∀ a, x = .ok a → Spared P (f a) (g a)) :
    Spared P ((liftM x : Probing α) >>= f) ((liftM x : Probing α) >>= g) := by
  cases x with
  | error e => exact same (Noting.lifted (.error e))
  | ok a => exact rest a rfl

theorem after (first : Spared P x y) (rest : ∀ a, Noting (f a)) :
    Spared P (x >>= f) (y >>= f) := by
  obtain ⟨answer,front,back,own,held,both⟩ := first
  cases answer with
  | error e =>
    exact ⟨.error e,front,back,own,held,fun log =>
      ⟨failedRun (both log).1,failedRun (both log).2⟩⟩
  | ok a =>
    obtain ⟨answer,noted,runs⟩ := rest a
    refine ⟨answer,front,back ++ noted,own,held,fun log => ?_⟩
    rw [boundRun (both log).1,boundRun (both log).2,runs,runs]
    simp only [List.append_assoc,and_self]

theorem guard {p : Prop} [Decidable p] {fault : Fault} {k l : PUnit → Probing β}
    (rest : Spared P (k ⟨⟩) (l ⟨⟩)) :
    Spared P (if p then (throw fault : Probing PUnit) >>= k else k ⟨⟩)
      (if p then (throw fault : Probing PUnit) >>= l else l ⟨⟩) := by
  split
  · exact same (Noting.lifted (.error fault))
  · exact rest

end Spared

end

namespace Project
variable {media : Media} {probe : Bool}

theorem lengthNoting (path track : String) : Noting (lengthOfFile media probe path track) := by
  unfold lengthOfFile probeLength
  split
  · split
    · exact .lifted (.ok 5)
    · exact Noting.bind ⟨.ok ⟨⟩,_,fun _ => rfl⟩ fun _ => .lifted _
  · exact .lifted _

theorem stopNoting (place track : String) (start : Float) (source : Option String) (entry : Value) :
    Noting (stopOf media probe place track start source entry) := by
  unfold stopOf
  refine .onward fun given => ?_
  split
  · exact .lifted _
  split
  · exact .lifted (.error _)
  · refine (lengthNoting _ _).bind fun n => ?_
    split
    · exact .lifted (.ok _)
    · exact .lifted (.error _)

theorem clipNoting (paths : List (Scalar × Value)) (i : Nat) (entry : Value) :
    Noting (clip media probe paths i entry) := by
  unfold clip
  exact .onward fun found => .guard (.onward fun id => .onward fun track => .onward fun start =>
    .onward fun source => (stopNoting _ _ _ _ _).bind fun stop => .onward fun overlay =>
    .onward fun effect => .lifted (.ok _))

theorem addClipsNoting (paths : List (Scalar × Value)) (entries : List Value) (tl : Timeline)
    (i : Nat) : Noting (addClips media probe paths tl i entries) := by
  induction entries generalizing tl i with
  | nil => exact .lifted (.ok tl)
  | cons entry rest ih =>
    exact (clipNoting paths i entry).bind fun c => .onward fun tl => ih tl (i + 1)

/-- Where the clips of one entry are spared an opening, those of all entries are. -/
theorem addClipsSpared {P : Probe → Prop} {paths : List (Scalar × Value)} {vs : List Value}
    {i j : Nat} {v v' : Value} (at' : vs[i]? = some v)
    (here : Spared P (clip media probe paths (j + i) v') (clip media probe paths (j + i) v))
    (tl : Timeline) :
    Spared P (addClips media probe paths tl j (vs.set i v'))
      (addClips media probe paths tl j vs) := by
  induction vs generalizing i j tl with
  | nil => cases at'
  | cons first vs ih =>
    cases i with
    | zero =>
      cases at'
      exact here.after fun c => .onward fun tl => addClipsNoting paths vs tl (j + 1)
    | succ i =>
      rw [show j + (i + 1) = j + 1 + i by omega] at here
      exact .before (clipNoting paths j first) fun c => .onward fun tl _ => ih at' here tl

end Project
end Montage
