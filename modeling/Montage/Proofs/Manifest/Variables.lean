import Mathlib.Data.List.TakeWhile
import Montage.Manifest.Variables
import Montage.Proofs.Answer

/-! Where variables stand in a text, and what is left of them. A token begins with its only dollar
sign, so no two of them overlap, and the text between them is carried over as it is. -/
namespace Montage.Variables

/-- How a variable is written. -/
def token (name : List Char) : List Char := '$' :: '\x7b' :: (name ++ ['\x7d'])

structure Name (cs : List Char) : Prop where
  given : cs ≠ []
  word : ∀ c ∈ cs, isWord c = true

/-- A variable stands in the text after `before`. -/
structure Stands (cs before name after : List Char) : Prop where
  named : Name name
  place : cs = before ++ (token name ++ after)

def Begins (cs : List Char) : Prop := ∃ name after, Stands cs [] name after

/-- No variable stands in the text. -/
def Clear (cs : List Char) : Prop := ∀ before name after, ¬ Stands cs before name after

/-- No variable stands across the place where the two texts meet. -/
def Parted (a b : List Char) : Prop := ∀ before name after, Stands (a ++ b) before name after →
  (before ++ token name).length ≤ a.length ∨ a.length ≤ before.length

def Unknown (paths : List (Scalar × Value)) (name : List Char) : Prop :=
  ∀ e ∈ paths, e.1 ≠ .text (String.ofList name)

/-- Between variables a text is kept, and for each of them there is the text of its value. -/
inductive Filled (paths : List (Scalar × Value)) : List Char → List Char → Prop where
  | clear {gap : List Char} (clear : Clear gap) : Filled paths gap gap
  | named {gap name cs out : List Char} {v : Value} (clear : Clear gap) (valid : Name name)
      (known : entryAt? paths (String.ofList name) = some v) (rest : Filled paths cs out) :
      Filled paths (gap ++ (token name ++ cs)) (gap ++ (v.display.toList ++ out))

theorem entryNone {paths : List (Scalar × Value)} {key : String} :
    entryAt? paths key = none ↔ ∀ e ∈ paths, e.1 ≠ .text key := by
  induction paths with
  | nil => simp [entryAt?]
  | cons e paths ih =>
    obtain ⟨k,v⟩ := e
    rw [entryAt?,List.forall_mem_cons,← ih]
    by_cases same : k = .text key <;> simp [same]

theorem nameIff {cs name rest : List Char} :
    name? cs = some (name,rest) ↔ Name name ∧ cs = name ++ '\x7d' :: rest := by
  constructor
  · intro found
    unfold name? at found
    dsimp only at found
    split at found
    · rename_i c cs' before after
      cases found
      have whole := List.takeWhile_append_dropWhile (p := isWord) (l := cs)
      rw [after] at whole
      refine ⟨⟨?_,fun d mem => List.mem_takeWhile_imp mem⟩,whole.symm⟩
      rw [before]
      exact List.cons_ne_nil _ _
    · cases found
  · rintro ⟨⟨given,word⟩,rfl⟩
    have closing : isWord '\x7d' = false := by decide
    have front : (name ++ '\x7d' :: rest).takeWhile isWord = name := by
      simp [List.takeWhile_append_of_pos word,closing]
    have back : (name ++ '\x7d' :: rest).dropWhile isWord = '\x7d' :: rest := by
      simp [List.dropWhile_append_of_pos word,closing]
    unfold name?
    dsimp only
    rw [front,back]
    cases name with
    | nil => exact absurd rfl given
    | cons => rfl

theorem tokenAppend (name after : List Char) :
    token name ++ after = '$' :: '\x7b' :: (name ++ '\x7d' :: after) := by
  simp [token]

theorem beginsIff {cs : List Char} :
    Begins cs ↔ ∃ name rest, name? (cs.drop 2) = some (name,rest) ∧ cs = token name ++ rest := by
  refine exists_congr fun name => exists_congr fun rest => ?_
  constructor
  · rintro ⟨named,rfl⟩
    exact ⟨nameIff.mpr ⟨named,by simp [token]⟩,rfl⟩
  · rintro ⟨found,place⟩
    exact ⟨(nameIff.mp found).1,place⟩

theorem piecesToken {name : List Char} (named : Name name) (cs : List Char) :
    pieces (token name ++ cs) = .variable name :: pieces cs := by
  have read : name? (name ++ '\x7d' :: cs) = some (name,cs) := nameIff.mpr ⟨named,rfl⟩
  rw [tokenAppend,pieces]
  split
  · rename_i found
    cases read.symm.trans found
    rfl
  · rename_i none
    cases read.symm.trans none

theorem piecesPlain {c : Char} {cs : List Char} (begins : ¬ Begins (c :: cs)) :
    pieces (c :: cs) = .plain c :: pieces cs := by
  by_cases opens : ∃ rest, c = '$' ∧ cs = '\x7b' :: rest
  · obtain ⟨rest,rfl,rfl⟩ := opens
    rw [pieces]
    split
    · rename_i name after found
      obtain ⟨named,place⟩ := nameIff.mp found
      exact absurd ⟨name,after,named,by rw [place,List.nil_append,tokenAppend]⟩ begins
    · rfl
  · rw [pieces]
    exact fun rest dollar brace => opens ⟨rest,dollar,brace⟩

/-- A text cut into pieces: from the left, a variable as soon as one begins. -/
inductive Cut : List Char → List Piece → Prop where
  | done : Cut [] []
  | named {name cs : List Char} {ps : List Piece} (valid : Name name) (rest : Cut cs ps) :
      Cut (token name ++ cs) (.variable name :: ps)
  | plain {c : Char} {cs : List Char} {ps : List Piece} (begins : ¬ Begins (c :: cs))
      (rest : Cut cs ps) : Cut (c :: cs) (.plain c :: ps)

theorem cutPieces (cs : List Char) : Cut cs (pieces cs) := by
  induction cs using pieces.induct with
  | case1 =>
    rw [pieces]
    exact .done
  | case2 cs name rest found ih =>
    obtain ⟨named,rfl⟩ := nameIff.mp found
    rw [← tokenAppend,piecesToken named]
    exact .named named ih
  | case3 cs none ih =>
    have begins : ¬ Begins ('$' :: '\x7b' :: cs) := fun begins => by
      obtain ⟨name,rest,found,_⟩ := beginsIff.mp begins
      cases none.symm.trans found
    rw [piecesPlain begins]
    exact .plain begins ih
  | case4 c cs other ih =>
    have begins : ¬ Begins (c :: cs) := fun ⟨name,rest,_,place⟩ => by
      rw [List.nil_append,tokenAppend] at place
      obtain ⟨dollar,brace⟩ := List.cons.inj place
      exact other _ dollar brace
    rw [piecesPlain begins]
    exact .plain begins ih

section
variable {a b cs : List Char} {ps qs : List Piece}

theorem Cut.pieces (cut : Cut cs ps) : pieces cs = ps := by
  induction cut with
  | done => rw [Variables.pieces]
  | named valid rest ih => rw [piecesToken valid,ih]
  | plain begins rest ih => rw [piecesPlain begins,ih]

theorem Stands.after {before name after : List Char} (stands : Stands cs before name after)
    (front : List Char) : Stands (front ++ cs) (front ++ before) name after :=
  ⟨stands.named,by rw [stands.place,List.append_assoc]⟩

theorem Parted.rest {front : List Char} (parted : Parted (front ++ a) b) : Parted a b := by
  intro before name after stands
  have moved := stands.after front
  rw [← List.append_assoc] at moved
  have either := parted _ _ _ moved
  simp only [List.length_append] at either ⊢
  omega

theorem Begins.within (begins : Begins (a ++ b)) (some : a ≠ []) (parted : Parted a b) :
    Begins a := by
  obtain ⟨name,after,stands⟩ := begins
  have long : (token name).length ≤ a.length := by
    rcases parted _ _ _ stands with inside | behind
    · exact inside
    · exact absurd (List.eq_nil_of_length_eq_zero (Nat.le_zero.mp behind)) some
  have front : token name <+: a ++ b := ⟨after,stands.place.symm⟩
  obtain ⟨rest,place⟩ := List.prefix_of_prefix_length_le front (List.prefix_append a b) long
  exact ⟨name,rest,stands.named,place.symm⟩

theorem Cut.append (first : Cut a ps) (second : Cut b qs) (parted : Parted a b) :
    Cut (a ++ b) (ps ++ qs) := by
  induction first with
  | done => exact second
  | @named name cs ps valid rest ih =>
    rw [List.append_assoc]
    exact .named valid (ih parted.rest)
  | @plain c cs ps begins rest ih =>
    have later : Parted cs b := Parted.rest (show Parted ([c] ++ cs) b from parted)
    refine .plain (fun begins' => begins ?_) (ih later)
    exact Begins.within begins' (List.cons_ne_nil _ _) parted

end

theorem pastApart {α : Type} {x : α} {xs ys zs ws : List α} (apart : x ∉ xs)
    (same : xs ++ ys = zs ++ x :: ws) : ∃ more, zs = xs ++ more ∧ ys = more ++ x :: ws := by
  induction xs generalizing zs with
  | nil => exact ⟨zs,rfl,same⟩
  | cons y xs ih =>
    obtain ⟨here,later⟩ : x ≠ y ∧ x ∉ xs := by simpa using apart
    cases zs with
    | nil => exact absurd (List.cons.inj same).1.symm here
    | cons z zs =>
      obtain ⟨rfl,tails⟩ := List.cons.inj same
      obtain ⟨more,rfl,rest⟩ := ih later tails
      exact ⟨more,rfl,rest⟩

/-- A token begins with its only dollar sign. -/
theorem dollarApart {name : List Char} (named : Name name) :
    '$' ∉ '\x7b' :: (name ++ ['\x7d']) := by
  have plain : isWord '$' = false := by decide
  have none : '$' ∉ name := fun mem => by
    have word := named.word '$' mem
    rw [plain] at word
    cases word
  simp [none]

section
variable {cs before name after : List Char}

theorem partedDollar (a rest : List Char) : Parted a ('$' :: rest) := by
  intro before name after stands
  by_contra neither
  simp only [List.length_append,not_or,not_le] at neither
  have front : before <+: a ++ '$' :: rest := ⟨_,stands.place.symm⟩
  obtain ⟨more,rfl⟩ := List.prefix_of_prefix_length_le front (List.prefix_append a _)
    neither.2.le
  have place := stands.place
  rw [List.append_assoc] at place
  have place := List.append_cancel_left place
  cases more with
  | nil => simp at neither
  | cons c more =>
    obtain ⟨rfl,same⟩ := List.cons.inj place
    obtain ⟨long,rfl,_⟩ := pastApart (dollarApart stands.named) same.symm
    simp only [token,List.length_append,List.length_cons] at neither
    omega

theorem standsToken {other : List Char} (named : Name other)
    (stands : Stands (token other ++ cs) before name after) :
    (before = [] ∧ name = other ∧ after = cs) ∨
      ∃ more, before = token other ++ more ∧ Stands cs more name after := by
  have place := stands.place
  cases before with
  | nil =>
    rw [List.nil_append,tokenAppend,tokenAppend] at place
    have first : name? (other ++ '\x7d' :: cs) = some (other,cs) := nameIff.mpr ⟨named,rfl⟩
    rw [(List.cons.inj (List.cons.inj place).2).2,nameIff.mpr ⟨stands.named,rfl⟩] at first
    cases first
    exact .inl ⟨rfl,rfl,rfl⟩
  | cons c before =>
    obtain ⟨rfl,same⟩ := List.cons.inj place
    obtain ⟨more,rfl,rest⟩ := pastApart (dollarApart named) same
    exact .inr ⟨more,rfl,stands.named,rest⟩

end

def written : Piece → List Char
  | .plain c => [c]
  | .variable name => token name

section
variable {cs before name after : List Char} {ps qs rs : List Piece}

theorem Cut.stands (cut : Cut cs ps) (stands : Stands cs before name after) :
    ∃ qs rs, ps = qs ++ .variable name :: rs ∧ qs.flatMap written = before := by
  induction cut generalizing before with
  | done =>
    exact absurd stands.place.symm (by simp [token])
  | @named other cs ps valid rest ih =>
    rcases standsToken valid stands with ⟨rfl,rfl,rfl⟩ | ⟨more,rfl,later⟩
    · exact ⟨[],ps,rfl,rfl⟩
    · obtain ⟨qs,rs,rfl,rfl⟩ := ih later
      exact ⟨.variable other :: qs,rs,rfl,rfl⟩
  | @plain c cs ps begins rest ih =>
    cases before with
    | nil => exact absurd ⟨name,after,stands⟩ begins
    | cons d before =>
      obtain ⟨rfl,place⟩ := List.cons.inj stands.place
      obtain ⟨qs,rs,rfl,rfl⟩ := ih ⟨stands.named,place⟩
      exact ⟨.plain c :: qs,rs,rfl,rfl⟩

theorem Cut.variable (cut : Cut cs ps) (place : ps = qs ++ .variable name :: rs) :
    ∃ after, Stands cs (qs.flatMap written) name after := by
  induction cut generalizing qs with
  | done => simp at place
  | @named other cs ps valid rest ih =>
    cases qs with
    | nil =>
      cases place
      exact ⟨cs,valid,rfl⟩
    | cons q qs =>
      obtain ⟨rfl,rest⟩ := List.cons.inj place
      obtain ⟨after,stands⟩ := ih rest
      exact ⟨after,stands.after (token other)⟩
  | @plain c cs ps begins rest ih =>
    cases qs with
    | nil => cases place
    | cons q qs =>
      obtain ⟨rfl,rest⟩ := List.cons.inj place
      obtain ⟨after,stands⟩ := ih rest
      exact ⟨after,stands.after [c]⟩

end

section
variable {paths : List (Scalar × Value)} {ps qs : List Piece} {cs out : List Char}

theorem unknownIff {name : List Char} :
    entryAt? paths (String.ofList name) = none ↔ Unknown paths name := entryNone

theorem fillAllCons {p : Piece} : fillAll paths (p :: ps) = .ok out ↔
    ∃ here more, fill paths p = .ok here ∧ fillAll paths ps = .ok more ∧ here ++ more = out := by
  constructor
  · intro filled
    obtain ⟨here,first,filled⟩ := bindOk filled
    obtain ⟨more,later,last⟩ := bindOk filled
    exact ⟨here,more,first,later,Except.ok.inj last⟩
  · rintro ⟨here,more,first,later,rfl⟩
    exact bindTotal first (bindTotal later rfl)

theorem fillAllAppend {first second : List Char} (front : fillAll paths ps = .ok first)
    (back : fillAll paths qs = .ok second) : fillAll paths (ps ++ qs) = .ok (first ++ second) := by
  induction ps generalizing first with
  | nil =>
    cases front
    exact back
  | cons p ps ih =>
    obtain ⟨here,more,filled,later,rfl⟩ := fillAllCons.mp front
    rw [List.append_assoc]
    exact fillAllCons.mpr ⟨here,_,filled,ih later,rfl⟩

theorem fillAllPlain (paths : List (Scalar × Value)) (gap : List Char) :
    fillAll paths (gap.map .plain) = .ok gap := by
  induction gap with
  | nil => rfl
  | cons c gap ih => exact fillAllCons.mpr ⟨[c],gap,rfl,ih,rfl⟩

theorem fillKnown {name : List Char} (filled : fill paths (.variable name) = .ok out) :
    ∃ v, entryAt? paths (String.ofList name) = some v ∧ out = v.display.toList := by
  cases found : entryAt? paths (String.ofList name) with
  | none =>
    rw [fill,found] at filled
    cases filled
  | some v =>
    rw [fill,found] at filled
    cases filled
    exact ⟨v,rfl,rfl⟩

theorem fillUnknown {p : Piece} {key : String} (failed : fill paths p = .error key) :
    ∃ name, p = .variable name ∧ key = String.ofList name ∧ Unknown paths name := by
  rcases p with c | name
  · cases failed
  cases found : entryAt? paths (String.ofList name) with
  | none =>
    rw [fill,found] at failed
    cases failed
    exact ⟨name,rfl,rfl,unknownIff.mp found⟩
  | some v =>
    rw [fill,found] at failed
    cases failed

theorem knownOf {name : List Char} (filled : fill paths (.variable name) = .ok out) :
    ¬ Unknown paths name := by
  obtain ⟨v,known,_⟩ := fillKnown filled
  rw [← unknownIff,known]
  exact Option.some_ne_none v

theorem fillAllKnown (filled : fillAll paths ps = .ok out) {name : List Char}
    (mem : .variable name ∈ ps) : ¬ Unknown paths name := by
  induction ps generalizing out with
  | nil => cases mem
  | cons p ps ih =>
    obtain ⟨here,more,first,later,_⟩ := fillAllCons.mp filled
    rcases List.mem_cons.mp mem with rfl | mem
    · exact knownOf first
    · exact ih later mem

/-- The first variable that is unknown is told. -/
theorem fillAllError {key : String} (failed : fillAll paths ps = .error key) :
    ∃ qs name rs, ps = qs ++ .variable name :: rs ∧ key = String.ofList name ∧
      Unknown paths name ∧ ∀ other, .variable other ∈ qs → ¬ Unknown paths other := by
  induction ps with
  | nil => cases failed
  | cons p ps ih =>
    rcases bindError failed with first | ⟨here,first,failed⟩
    · obtain ⟨name,rfl,named,unknown⟩ := fillUnknown first
      exact ⟨[],name,ps,rfl,named,unknown,fun _ mem => by cases mem⟩
    rcases bindError failed with later | ⟨rest,_,last⟩
    · obtain ⟨qs,name,rs,rfl,named,unknown,before⟩ := ih later
      refine ⟨p :: qs,name,rs,rfl,named,unknown,fun other mem => ?_⟩
      rcases List.mem_cons.mp mem with rfl | mem
      · exact knownOf first
      · exact before other mem
    · cases last

theorem clearNil : Clear [] := fun before name after stands =>
  absurd stands.place.symm (by simp [token])

theorem Begins.more {front : List Char} (begins : Begins front) (rest : List Char) :
    Begins (front ++ rest) := by
  obtain ⟨name,after,named,rfl⟩ := begins
  exact ⟨name,after ++ rest,named,by simp⟩

theorem clearCons {c : Char} {gap : List Char} (clear : Clear gap) (begins : ¬ Begins (c :: gap)) :
    Clear (c :: gap) := by
  intro before name after stands
  cases before with
  | nil => exact begins ⟨name,after,stands⟩
  | cons d before =>
    obtain ⟨rfl,place⟩ := List.cons.inj stands.place
    exact clear before name after ⟨stands.named,place⟩

theorem filledCons {c : Char} (begins : ¬ Begins (c :: cs)) (filled : Filled paths cs out) :
    Filled paths (c :: cs) (c :: out) := by
  cases filled with
  | clear clear => exact .clear (clearCons clear begins)
  | named clear valid known rest =>
    exact .named (clearCons clear fun begun => begins (begun.more _)) valid known rest

theorem clearCut {gap : List Char} (clear : Clear gap) : Cut gap (gap.map .plain) := by
  induction gap with
  | nil => exact .done
  | cons c gap ih =>
    refine .plain (fun ⟨name,after,stands⟩ => clear [] name after stands) (ih ?_)
    exact fun before name after stands => clear (c :: before) name after (stands.after [c])

/-- What a text becomes, said by its pieces. -/
theorem filledIff : Filled paths cs out ↔ ∃ ps, Cut cs ps ∧ fillAll paths ps = .ok out := by
  constructor
  · intro filled
    induction filled with
    | clear clear => exact ⟨_,clearCut clear,fillAllPlain paths _⟩
    | @named gap name cs out v clear valid known rest ih =>
      obtain ⟨ps,cut,filled⟩ := ih
      have here : fill paths (.variable name) = .ok v.display.toList := by
        rw [fill,known]
      refine ⟨_,(clearCut clear).append (.named valid cut) (partedDollar gap _),?_⟩
      exact fillAllAppend (fillAllPlain paths gap) (fillAllCons.mpr ⟨_,_,here,filled,rfl⟩)
  · rintro ⟨ps,cut,filled⟩
    induction cut generalizing out with
    | done =>
      cases filled
      exact .clear clearNil
    | @named name cs ps valid rest ih =>
      obtain ⟨here,more,first,later,rfl⟩ := fillAllCons.mp filled
      obtain ⟨v,known,rfl⟩ := fillKnown first
      exact .named clearNil valid known (ih later)
    | @plain c cs ps begins rest ih =>
      obtain ⟨here,more,first,later,rfl⟩ := fillAllCons.mp filled
      cases Except.ok.inj first
      exact filledCons begins (ih later)

end

/-- The leftmost variable of a text that is unknown. -/
def FirstUnknown (paths : List (Scalar × Value)) (cs name : List Char) : Prop :=
  ∃ before after, Stands cs before name after ∧ Unknown paths name ∧
    ∀ before' name' after', Stands cs before' name' after' → Unknown paths name' →
      before.length ≤ before'.length

section
variable {paths : List (Scalar × Value)} {ps : List Piece} {cs : List Char}

theorem firstUnknown (cut : Cut cs ps) {key : String} (failed : fillAll paths ps = .error key) :
    FirstUnknown paths cs key.toList := by
  obtain ⟨qs,name,rs,place,rfl,unknown,earlier⟩ := fillAllError failed
  obtain ⟨after,stands⟩ := cut.variable place
  rw [String.toList_ofList]
  refine ⟨_,after,stands,unknown,fun before' name' after' stands' unknown' => ?_⟩
  obtain ⟨qs',rs',place',rfl⟩ := cut.stands stands'
  have longer (more : List Piece) :
      (qs.flatMap written).length ≤ ((qs ++ more).flatMap written).length := by
    rw [List.flatMap_append,List.length_append]
    exact Nat.le_add_right _ _
  rcases List.append_eq_append_iff.mp (place.symm.trans place') with
    ⟨more,rfl,_⟩ | ⟨more,before,tail⟩
  · exact longer more
  · cases more with
    | nil => rw [before,List.append_nil]
    | cons p more =>
      obtain ⟨rfl,_⟩ := List.cons.inj tail
      exact absurd unknown' (earlier name' (by simp [before]))

theorem resolveIff {text out : String} : resolve text paths = .ok out ↔
    Filled paths text.toList out.toList := by
  rw [filledIff]
  constructor
  · intro ok
    obtain ⟨cs,filled,rfl⟩ := mapOk ok
    exact ⟨_,cutPieces _,by rwa [String.toList_ofList]⟩
  · rintro ⟨ps,cut,filled⟩
    unfold resolve
    rw [cut.pieces,filled]
    exact congrArg _ (String.ofList_toList)

theorem resolveError {text name : String} (failed : resolve text paths = .error name) :
    FirstUnknown paths text.toList name.toList := by
  refine firstUnknown (cutPieces _) ?_
  unfold resolve at failed
  rcases answerCases (fillAll paths (pieces text.toList)) with ⟨cs,filled⟩ | ⟨key,bad⟩
  · rw [filled] at failed
    cases failed
  · rw [bad] at failed
    cases failed
    exact bad

theorem resolveKnown {text out : String} (ok : resolve text paths = .ok out)
    {before name after : List Char} (stands : Stands text.toList before name after) :
    ¬ Unknown paths name := by
  obtain ⟨ps,cut,filled⟩ := filledIff.mp (resolveIff.mp ok)
  obtain ⟨qs,rs,rfl,_⟩ := cut.stands stands
  exact fillAllKnown filled (by simp)

theorem resolveAppend {a b first second : String} (front : resolve a paths = .ok first)
    (back : resolve b paths = .ok second) (parted : Parted a.toList b.toList) :
    resolve (a ++ b) paths = .ok (first ++ second) := by
  obtain ⟨ps,cut,filled⟩ := filledIff.mp (resolveIff.mp front)
  obtain ⟨qs,cut',filled'⟩ := filledIff.mp (resolveIff.mp back)
  refine resolveIff.mpr (filledIff.mpr ⟨ps ++ qs,?_⟩)
  rw [String.toList_append,String.toList_append]
  exact ⟨cut.append cut' parted,fillAllAppend filled filled'⟩

theorem failedIff {text : String} : (∃ name, resolve text paths = .error name) ↔
    ∃ before name after, Stands text.toList before name after ∧ Unknown paths name := by
  constructor
  · rintro ⟨name,failed⟩
    obtain ⟨before,after,stands,unknown,_⟩ := resolveError failed
    exact ⟨before,_,after,stands,unknown⟩
  · rintro ⟨before,name,after,stands,unknown⟩
    rcases answerCases (resolve text paths) with ⟨out,ok⟩ | failed
    · exact absurd unknown (resolveKnown ok stands)
    · exact failed

theorem unknownTold (name : String) : (Misuse.pathVariable name).message =
    "Unknown path variable: " ++ String.ofList (token name.toList) := by
  have shown : String.ofList (token name.toList) = "$\x7b" ++ (name ++ "\x7d") :=
    String.toList_injective (by simp [token])
  have front : "Unknown path variable: $\x7b" = "Unknown path variable: " ++ "$\x7b" := by decide
  change "Unknown path variable: $\x7b" ++ name ++ "\x7d" = _
  rw [shown,front,String.append_assoc,String.append_assoc]

/-- Variables are filled in once, from the left; what is put in is not read again. -/
theorem resolveOnce (text : String) (paths : List (Scalar × Value)) :
    ((∃ name, resolve text paths = .error name) ↔
      ∃ before name after, Stands text.toList before name after ∧ Unknown paths name) ∧
    (∀ name, resolve text paths = .error name → FirstUnknown paths text.toList name.toList ∧
      (Misuse.pathVariable name).message =
        "Unknown path variable: " ++ String.ofList (token name.toList)) ∧
    (∀ out, resolve text paths = .ok out ↔ Filled paths text.toList out.toList) ∧
    ∀ a b first second, text = a ++ b → Parted a.toList b.toList →
      resolve a paths = .ok first → resolve b paths = .ok second →
      resolve text paths = .ok (first ++ second) := by
  refine ⟨failedIff,fun name failed => ⟨resolveError failed,unknownTold name⟩,
    fun _ => resolveIff,fun a b first second joined parted front back => ?_⟩
  rw [joined]
  exact resolveAppend front back parted

end

def folders : List (Scalar × Value) :=
  [(.text "dir",.text "C:\\$\x7bname\x7d"),(.text "name",.text "x")]

/-- The value of the first variable looks like the second one. -/
theorem foldersResolved :
    resolve "$\x7bdir\x7d/$\x7bname\x7d" folders = .ok "C:\\$\x7bname\x7d/x" ∧
    FirstUnknown folders "$$\x7bname\x7d$\x7bend\x7d$\x7bpart\x7d".toList "end".toList :=
  ⟨(resolveOnce _ folders).2.2.2 "$\x7bdir\x7d/" "$\x7bname\x7d" "C:\\$\x7bname\x7d/" "x"
      (by decide) (partedDollar _ _) (by decide +kernel) (by decide +kernel),
    ((resolveOnce "$$\x7bname\x7d$\x7bend\x7d$\x7bpart\x7d" folders).2.1 "end"
      (by decide +kernel)).1⟩

end Montage.Variables
