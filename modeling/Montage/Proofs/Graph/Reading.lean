import Montage.Graph.Basic
import Montage.Proofs.Graph.Quoting
import Mathlib.Data.List.Basic

/-! Reading a graph back from its text. Nodes are cut at bare semicolons and filters at bare commas,
and labels are taken off both ends of a node. What was written is read back exactly where no filter
holds one of the two. -/
namespace Montage

/-- A node as its text shows it. -/
structure Shown where
  inputs : List String
  filters : List String
  outputs : List String
  deriving DecidableEq

def Node.shown (n : Node) : Shown := ⟨n.inputs,n.filters.map Filter.text,n.outputs⟩

/-- The labels at the front, and what follows them. A label that is begun is given. -/
def labelsFrom (opening closing : Char) : Option (List Mark) → List Mark →
    List (List Mark) × List Mark
  | none, [] => ([],[])
  | none, m :: ms =>
    if m = (opening,false) then labelsFrom opening closing (some []) ms else ([],m :: ms)
  | some label, [] => ([],(opening,false) :: label)
  | some label, m :: ms =>
    if m = (closing,false) then
      let (labels,rest) := labelsFrom opening closing none ms
      (label :: labels,rest)
    else labelsFrom opening closing (some (label ++ [m])) ms

def letters (ms : List Mark) : String := String.ofList (ms.map Prod.fst)

def Shown.ofMarks (ms : List Mark) : Shown :=
  let ahead := labelsFrom '[' ']' none ms
  let behind := labelsFrom ']' '[' none ahead.2.reverse
  ⟨ahead.1.map letters,(behind.2.reverse.splitOn (',',false)).map letters,
    (behind.1.map List.reverse).reverse.map letters⟩

/-- The nodes that a text shows. -/
def Shown.ofText (s : String) : List Shown :=
  ((marks s).splitOn (';',false)).map Shown.ofMarks

example : Shown.ofText "[0:v]fps=30,drawtext=text=a\\;b:enable='gt(t,1)'[v0];[v0]null[v1]" =
    [⟨["0:v"],["fps=30","drawtext=text=a\\;b:enable='gt(t,1)'"],["v0"]⟩,⟨["v0"],["null"],["v1"]⟩] := by
  decide +kernel

theorem markedLetters (inside : Bool) (cs : List Char) : (marked inside cs).map Prod.fst = cs := by
  induction inside, cs using marked.induct with
  | case1 inside => cases inside <;> rfl
  | case2 c cs ih => rw [marked,List.map_cons,ih]
  | case3 c cs ih => rw [marked,List.map_cons,List.map_cons,ih]
  | case4 c cs slash ih =>
    rw [marked,List.map_cons,ih]
    exact slash

theorem lettersMarks (s : String) : letters (marks s) = s := by
  rw [letters,marks,markedLetters,String.ofList_toList]

section
variable {α : Type} [BEq α] [LawfulBEq α] {x : α}

theorem cutOnce {xs : List α} : (xs.splitOn x).length = 1 ↔ x ∉ xs := by
  constructor
  · intro one mem
    obtain ⟨before,after,rfl⟩ := List.append_of_mem mem
    have first := List.length_pos_of_ne_nil (List.splitOn_ne_nil x before)
    have second := List.length_pos_of_ne_nil (List.splitOn_ne_nil x after)
    rw [List.splitOn_append_cons_self,List.length_append] at one
    omega
  · intro apart
    rw [List.splitOn_eq_singleton apart]
    rfl

theorem splitJoined {parts : List (List α)} (given : parts ≠ []) :
    ([x].intercalate parts).splitOn x = parts.flatMap (·.splitOn x) := by
  induction parts with
  | nil => exact absurd rfl given
  | cons xs parts ih =>
    cases parts with
    | nil => simp
    | cons ys parts =>
      rw [List.intercalate_cons_cons,List.append_assoc,List.singleton_append,
        List.splitOn_append_cons_self,ih (List.cons_ne_nil _ _),← List.flatMap_cons]

omit [LawfulBEq α] in
theorem piecesEnough (parts : List (List α)) :
    parts.length ≤ (parts.flatMap (·.splitOn x)).length := by
  induction parts with
  | nil => exact Nat.le_refl 0
  | cons xs parts ih =>
    have first := List.length_pos_of_ne_nil (List.splitOn_ne_nil x xs)
    rw [List.flatMap_cons,List.length_append,List.length_cons]
    omega

/-- Parts that were joined are as many when they are cut again, unless one of them holds the mark
that they are cut at. -/
theorem cutJoined {parts : List (List α)} (given : parts ≠ []) :
    (([x].intercalate parts).splitOn x).length = parts.length ↔ ∀ xs ∈ parts, x ∉ xs := by
  rw [splitJoined given]
  clear given
  induction parts with
  | nil => simp
  | cons xs parts ih =>
    have first := List.length_pos_of_ne_nil (List.splitOn_ne_nil x xs)
    have enough := piecesEnough (x := x) parts
    rw [List.forall_mem_cons,← ih,← cutOnce,List.flatMap_cons,List.length_append,List.length_cons]
    omega

end

theorem labelRead {opening closing : Char} {label : List Mark} (apart : (closing,false) ∉ label)
    (before rest : List Mark) :
    labelsFrom opening closing (some before) (label ++ (closing,false) :: rest) =
      ((before ++ label) :: (labelsFrom opening closing none rest).1,
        (labelsFrom opening closing none rest).2) := by
  induction label generalizing before with
  | nil => simp [labelsFrom]
  | cons m ms ih =>
    obtain ⟨here,later⟩ : (closing,false) ≠ m ∧ (closing,false) ∉ ms := by simpa using apart
    rw [List.cons_append,labelsFrom,if_neg here.symm,ih later,List.append_assoc]
    rfl

def wrapped (opening closing : Char) (label : List Mark) : List Mark :=
  (opening,false) :: (label ++ [(closing,false)])

theorem labelsRead {opening closing : Char} {labels : List (List Mark)}
    (apart : ∀ l ∈ labels, (closing,false) ∉ l) {rest : List Mark}
    (stop : rest.head? ≠ some (opening,false)) :
    labelsFrom opening closing none (labels.flatMap (wrapped opening closing) ++ rest) =
      (labels,rest) := by
  induction labels with
  | nil =>
    cases rest with
    | nil => rfl
    | cons m ms =>
      have other : m ≠ (opening,false) := fun same => stop (same ▸ rfl)
      simp [labelsFrom,other]
  | cons l ls ih =>
    obtain ⟨here,later⟩ := List.forall_mem_cons.mp apart
    have step : (l :: ls).flatMap (wrapped opening closing) ++ rest = (opening,false) ::
        (l ++ (closing,false) :: (ls.flatMap (wrapped opening closing) ++ rest)) := by
      simp [wrapped]
    rw [step,labelsFrom,if_pos rfl,labelRead here,ih later]
    rfl

theorem wrappedReversed (opening closing : Char) (labels : List (List Mark)) :
    (labels.flatMap (wrapped opening closing)).reverse =
      (labels.reverse.map List.reverse).flatMap (wrapped closing opening) := by
  induction labels with
  | nil => rfl
  | cons l ls ih => simp [ih,wrapped]

/-- The filters of a node neither begin nor end as labels do. -/
theorem ofMarksWritten {inputs outputs : List (List Mark)} {chain : List Mark}
    (inputs' : ∀ l ∈ inputs, (']',false) ∉ l) (outputs' : ∀ l ∈ outputs, ('[',false) ∉ l)
    (given : chain ≠ []) (front : chain.head? ≠ some ('[',false))
    (back : chain.getLast? ≠ some (']',false)) :
    Shown.ofMarks (inputs.flatMap (wrapped '[' ']') ++
        (chain ++ outputs.flatMap (wrapped '[' ']'))) =
      ⟨inputs.map letters,(chain.splitOn (',',false)).map letters,outputs.map letters⟩ := by
  have head : (chain ++ outputs.flatMap (wrapped '[' ']')).head? ≠ some ('[',false) := by
    rwa [List.head?_append_of_ne_nil _ given]
  have last : chain.reverse.head? ≠ some (']',false) := by
    rwa [List.head?_reverse]
  have reversed : ∀ l ∈ outputs.reverse.map List.reverse, ('[',false) ∉ l := by
    intro l mem
    obtain ⟨m,inside,rfl⟩ := List.mem_map.mp mem
    simpa using outputs' m (List.mem_reverse.mp inside)
  unfold Shown.ofMarks
  rw [labelsRead inputs' head]
  dsimp only
  -- The labels at the end are taken off backwards, where the two brackets have changed places.
  rw [List.reverse_append,wrappedReversed,labelsRead reversed last]
  simp

theorem memJoined {α : Type} {s x : α} (apart : x ≠ s) {parts : List (List α)} :
    x ∈ [s].intercalate parts ↔ ∃ xs ∈ parts, x ∈ xs := by
  induction parts with
  | nil => simp
  | cons xs parts ih =>
    cases parts with
    | nil => simp
    | cons ys parts =>
      rw [List.intercalate_cons_cons,List.mem_append,List.mem_append,ih,List.exists_mem_cons_iff]
      simp [apart]

/-- A list of marks that does not end as labels do. -/
def Tailed (ms : List Mark) : Prop := ms.getLast? ≠ some (']',false)

theorem Tailed.after {m : Mark} {ms : List Mark} (tailed : Tailed ms) (apart : m ≠ (']',false))
    (before : List Mark) : Tailed (before ++ m :: ms) := by
  unfold Tailed at tailed ⊢
  rw [List.getLast?_append,List.getLast?_cons]
  cases last : ms.getLast? with
  | none => simpa using apart
  | some d => simpa [last] using tailed

theorem tailedJoined {s : Mark} (apart : s ≠ (']',false)) {parts : List (List Mark)}
    (last : ∀ ms, parts.getLast? = some ms → Tailed ms) : Tailed ([s].intercalate parts) := by
  induction parts with
  | nil => simp [Tailed]
  | cons xs parts ih =>
    cases parts with
    | nil => simpa using last xs rfl
    | cons ys parts =>
      rw [List.intercalate_cons_cons,List.append_assoc]
      exact (ih last).after apart xs

theorem joinedReads {g : String} {c : Char} (one : g.toList = [c])
    (plain : c ≠ '\\' ∧ c ≠ '\'') {parts : List String} (closed : ∀ s ∈ parts, Closed s) :
    Reads (g.intercalate parts) ([(c,false)].intercalate (parts.map marks)) := by
  intro rest
  have alone : ∀ d ∈ [c], d ≠ '\\' ∧ d ≠ '\'' := List.forall_mem_singleton.mpr plain
  rw [String.toList_intercalate,one]
  induction parts with
  | nil => rfl
  | cons s parts ih =>
    obtain ⟨here,later⟩ := List.forall_mem_cons.mp closed
    cases parts with
    | nil => simpa using here rest
    | cons t parts =>
      simp only [List.map_cons,List.intercalate_cons_cons,List.append_assoc] at ih ⊢
      rw [here,markedPlain alone,ih later]
      rfl

/-- What filters and nodes are cut at. -/
theorem cutSeparator {c : Char} (known : c = ',' ∨ c = ';') : c ∈ separators := by
  rcases known with rfl | rfl <;> decide

namespace Filter

/-- A filter that is told apart from labels at both of its ends. -/
structure Framed (f : Filter) : Prop where
  word : Word f.name
  named : f.name ≠ ""
  args : ∀ a ∈ f.args, Closed a
  last : ∃ a, f.args.getLast? = some a ∧ Sealed a

variable {f : Filter}

theorem Framed.reads (framed : f.Framed) : Reads f.text (f.name.toList.map (·,false) ++
    ('=',false) :: [(':',false)].intercalate (f.args.map marks)) := by
  intro rest
  obtain ⟨a,last,_⟩ := framed.last
  have given : f.args.isEmpty = false := by
    cases none : f.args with
    | nil => simp [none] at last
    | cons => rfl
  have glue : Plain "=" := by decide
  rw [text,given,if_neg Bool.false_ne_true,String.toList_append,String.toList_append,
    List.append_assoc,List.append_assoc,markedPlain framed.word.plain,markedPlain glue,
    joinedReads (c := ':') rfl (by decide) framed.args]
  simp

theorem Framed.bare (framed : f.Framed) {c : Char} (known : c = ',' ∨ c = ';') :
    Bare c f.text ↔ ∃ a ∈ f.args, Bare c a := by
  have name : (c,false) ∉ f.name.toList.map (·,false) := by
    intro mem
    obtain ⟨d,mem,same⟩ := List.mem_map.mp mem
    cases same
    exact framed.word.apart (cutSeparator known) mem
  have equals : (c,false) ≠ ('=',false) := by rcases known with rfl | rfl <;> decide
  have colon : (c,false) ≠ (':',false) := by rcases known with rfl | rfl <;> decide
  unfold Bare
  rw [framed.reads.marks,List.mem_append,List.mem_cons,memJoined colon]
  simp [name,equals]

theorem Framed.front (framed : f.Framed) : ∃ c ms, marks f.text = (c,false) :: ms ∧ c ≠ '[' := by
  rw [framed.reads.marks]
  have named := framed.named
  have word := framed.word
  unfold Word at word
  cases letters : f.name.toList with
  | nil => exact absurd (String.toList_eq_nil_iff.mp letters) named
  | cons c cs =>
    rw [letters] at word
    refine ⟨c,_,rfl,fun same => ?_⟩
    exact word c List.mem_cons_self (same ▸ by decide)

theorem Framed.tailed (framed : f.Framed) : Tailed (marks f.text) := by
  rw [framed.reads.marks]
  refine (tailedJoined (by decide) fun ms last => ?_).after (by decide) _
  obtain ⟨a,final,sealed'⟩ := framed.last
  rw [List.getLast?_map,final] at last
  cases last
  intro bracket
  exact sealed'.guarded ']' (by decide) (List.mem_of_getLast? bracket)

end Filter

def Label (s : String) : Prop := ∀ c ∈ s.toList, c ∉ ['\\','\'',',',';','[',']']

instance (s : String) : Decidable (Label s) :=
  decidable_of_iff (s.toList.all fun c => c ∉ ['\\','\'',',',';','[',']']) (by simp [Label])

theorem Label.plain {s : String} (label : Label s) : Plain s := by
  intro c mem
  have apart := label c mem
  simp only [List.mem_cons,not_or] at apart
  exact ⟨apart.1,apart.2.1⟩

theorem Label.apart {s : String} (label : Label s) {c : Char} (known : c ∈ [',',';','[',']']) :
    (c,false) ∉ marks s := fun bare =>
  label c (label.plain.bare.mp bare) (List.mem_cons_of_mem _ (List.mem_cons_of_mem _ known))

theorem bracketedReads {labels : List String} (each : ∀ l ∈ labels, Label l) :
    Reads (bracketed labels) ((labels.map marks).flatMap (wrapped '[' ']')) := by
  intro rest
  have opening : Plain "[" := by decide
  have closing : Plain "]" := by decide
  induction labels with
  | nil => rfl
  | cons l ls ih =>
    obtain ⟨here,later⟩ := List.forall_mem_cons.mp each
    have step : (bracketed (l :: ls)).toList ++ rest =
        "[".toList ++ (l.toList ++ ("]".toList ++ ((bracketed ls).toList ++ rest))) := by
      simp [bracketed]
    rw [step,markedPlain opening,here.plain.reads.closed,markedPlain closing,ih later]
    simp [wrapped]

namespace Node

structure Framed (n : Node) : Prop where
  some : n.filters ≠ []
  filters : ∀ f ∈ n.filters, f.Framed
  inputs : ∀ l ∈ n.inputs, Label l
  outputs : ∀ l ∈ n.outputs, Label l

/-- The marks of the filters of a node. -/
def chain (n : Node) : List Mark := [(',',false)].intercalate (n.filters.map (marks ∘ Filter.text))

variable {n : Node}

theorem Framed.reads (framed : n.Framed) : Reads n.text
    ((n.inputs.map marks).flatMap (wrapped '[' ']') ++
      (n.chain ++ (n.outputs.map marks).flatMap (wrapped '[' ']'))) := by
  intro rest
  have closed : ∀ s ∈ n.filters.map Filter.text, Closed s :=
    List.forall_mem_map.mpr fun f mem => (framed.filters f mem).reads.closed
  rw [text,String.toList_append,String.toList_append,List.append_assoc,List.append_assoc,
    bracketedReads framed.inputs,joinedReads (c := ',') rfl (by decide) closed,
    bracketedReads framed.outputs,List.map_map]
  simp [chain]

theorem Framed.front (framed : n.Framed) : ∃ c ms, n.chain = (c,false) :: ms ∧ c ≠ '[' := by
  have some := framed.some
  have each := framed.filters
  unfold chain
  cases filters : n.filters with
  | nil => exact absurd filters some
  | cons f fs =>
    rw [filters] at each
    obtain ⟨c,ms,first,apart⟩ := (each f List.mem_cons_self).front
    cases fs with
    | nil => exact ⟨c,ms,by simp [first],apart⟩
    | cons g gs =>
      refine ⟨c,ms ++ (',',false) :: [(',',false)].intercalate
        ((g :: gs).map (marks ∘ Filter.text)),?_,apart⟩
      simp [List.intercalate_cons_cons,first]

theorem Framed.tailed (framed : n.Framed) : Tailed n.chain := by
  refine tailedJoined (by decide) fun ms last => ?_
  obtain ⟨f,mem,rfl⟩ := List.mem_map.mp (List.mem_of_getLast? last)
  exact (framed.filters f mem).tailed

theorem Framed.read (framed : n.Framed) : Shown.ofMarks (marks n.text) =
    ⟨n.inputs,(n.chain.splitOn (',',false)).map letters,n.outputs⟩ := by
  obtain ⟨c,ms,first,apart⟩ := framed.front
  have back : ∀ (labels : List String), (labels.map marks).map letters = labels := by
    intro labels
    rw [List.map_map]
    exact List.map_id'' lettersMarks labels
  rw [framed.reads.marks,ofMarksWritten _ _ (by simp [first]) (by simpa [first] using apart)
    framed.tailed,back,back]
  · exact List.forall_mem_map.mpr fun l mem => (framed.inputs l mem).apart (by decide)
  · exact List.forall_mem_map.mpr fun l mem => (framed.outputs l mem).apart (by decide)

theorem Framed.bare (framed : n.Framed) :
    Bare ';' n.text ↔ ∃ f ∈ n.filters, Bare ';' f.text := by
  have labels {ls : List String} (each : ∀ l ∈ ls, Label l) :
      (';',false) ∉ (ls.map marks).flatMap (wrapped '[' ']') := by
    intro mem
    obtain ⟨ms,label,mem⟩ := List.mem_flatMap.mp mem
    obtain ⟨l,inside,rfl⟩ := List.mem_map.mp label
    have apart := (each l inside).apart (c := ';') (by decide)
    simp [wrapped,apart] at mem
  have chained : (';',false) ∈ n.chain ↔ ∃ f ∈ n.filters, Bare ';' f.text := by
    unfold chain
    rw [memJoined (by decide)]
    simp [Bare]
  unfold Bare
  rw [framed.reads.marks,List.mem_append,List.mem_append,chained]
  simp [labels framed.inputs,labels framed.outputs,Bare]

/-- The filters of a node are told apart where none of them holds a bare comma. -/
theorem Framed.readIff (framed : n.Framed) :
    Shown.ofMarks (marks n.text) = n.shown ↔ ∀ f ∈ n.filters, ¬ Bare ',' f.text := by
  have given : n.filters.map (marks ∘ Filter.text) ≠ [] := by simpa using framed.some
  have apart : (∀ ms ∈ n.filters.map (marks ∘ Filter.text), (',',false) ∉ ms) ↔
      ∀ f ∈ n.filters, ¬ Bare ',' f.text := by
    rw [List.forall_mem_map]
    rfl
  rw [framed.read,← apart]
  constructor
  · intro same
    have filters := congrArg (List.length ∘ Shown.filters) same
    refine (cutJoined given).mp ?_
    simpa [shown,chain] using filters
  · intro clear
    unfold shown chain
    rw [List.splitOn_intercalate _ clear given,List.map_map]
    refine congrArg (Shown.mk n.inputs · n.outputs) (List.map_congr_left fun f _ => ?_)
    exact lettersMarks f.text

end Node

namespace Graph
variable {g : Graph}

theorem marksEq (framed : ∀ n ∈ g.nodes, n.Framed) :
    marks g.text = [(';',false)].intercalate (g.nodes.map (marks ∘ Node.text)) := by
  have closed : ∀ s ∈ g.nodes.map Node.text, Closed s :=
    List.forall_mem_map.mpr fun n mem => (framed n mem).reads.closed
  have reads := joinedReads (g := ";") (c := ';') rfl (by decide) closed
  rw [List.map_map] at reads
  exact reads.marks

/-- A graph is read back just where no filter holds a bare comma or semicolon. -/
theorem readIff (given : g.nodes ≠ []) (framed : ∀ n ∈ g.nodes, n.Framed) :
    Shown.ofText g.text = g.nodes.map Node.shown ↔
      ∀ n ∈ g.nodes, ∀ f ∈ n.filters, ¬ Bare ',' f.text ∧ ¬ Bare ';' f.text := by
  have some : g.nodes.map (marks ∘ Node.text) ≠ [] := by simpa using given
  have whole : (∀ ms ∈ g.nodes.map (marks ∘ Node.text), (';',false) ∉ ms) ↔
      ∀ n ∈ g.nodes, ∀ f ∈ n.filters, ¬ Bare ';' f.text := by
    rw [List.forall_mem_map]
    refine forall₂_congr fun n mem => ?_
    exact (framed n mem).bare.not.trans (by simp)
  have nodes (clear : ∀ ms ∈ g.nodes.map (marks ∘ Node.text), (';',false) ∉ ms) :
      Shown.ofText g.text = g.nodes.map Node.shown ↔
        ∀ n ∈ g.nodes, ∀ f ∈ n.filters, ¬ Bare ',' f.text := by
    unfold Shown.ofText
    rw [marksEq framed,List.splitOn_intercalate _ clear some,List.map_map,List.map_inj_left]
    exact forall₂_congr fun n mem => (framed n mem).readIff
  constructor
  · intro same
    -- A bare semicolon shows in the number of nodes alone, whatever the pieces look like.
    have clear : ∀ ms ∈ g.nodes.map (marks ∘ Node.text), (';',false) ∉ ms := by
      refine (cutJoined some).mp ?_
      have count := congrArg List.length same
      unfold Shown.ofText at count
      rw [marksEq framed] at count
      simpa using count
    exact fun n mem f inside => ⟨(nodes clear).mp same n mem f inside,whole.mp clear n mem f inside⟩
  · intro clear
    have semicolons := whole.mpr fun n mem f inside => (clear n mem f inside).2
    exact (nodes semicolons).mpr fun n mem f inside => (clear n mem f inside).1

end Graph

end Montage
