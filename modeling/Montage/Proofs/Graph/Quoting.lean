import Montage.Proofs.Graph.Filter
import Montage.Render.Effects

/-! Protected characters. A backslash protects the character after it, and quotes protect what
stands between them; in there a backslash is a character like any other. What is not protected is
bare, and a separator counts only where it is bare. -/
namespace Montage

/-- A character of a text, and whether it is protected there. -/
abbrev Mark := Char × Bool

/-- The characters of a text that goes on inside quotes, or outside of them. -/
def marked : Bool → List Char → List Mark
  | _, [] => []
  | true, c :: cs => (c,true) :: marked (c != '\'') cs
  | false, '\\' :: c :: cs => ('\\',true) :: (c,true) :: marked false cs
  | false, c :: cs => (c,c == '\'') :: marked (c == '\'') cs

def marks (s : String) : List Mark := marked false s.toList

def Bare (c : Char) (s : String) : Prop := (c,false) ∈ marks s

/-- What follows the text is read as if nothing stood before it. -/
def Closed (s : String) : Prop :=
  ∀ rest, marked false (s.toList ++ rest) = marks s ++ marked false rest

/-- The text is read as these marks, whatever follows it. -/
def Reads (s : String) (ms : List Mark) : Prop :=
  ∀ rest, marked false (s.toList ++ rest) = ms ++ marked false rest

/-- What stands between arguments, filters and nodes, and around labels. -/
def separators : List Char := [':',',',';','[',']']

def special : List Char := '\\' :: '\'' :: separators

/-- Nothing in the text protects anything. -/
def Plain (s : String) : Prop := ∀ c ∈ s.toList, c ≠ '\\' ∧ c ≠ '\''

/-- A text that needs no protection. -/
def Word (s : String) : Prop := ∀ c ∈ s.toList, c ∉ special

instance (s : String) : Decidable (Plain s) :=
  decidable_of_iff (s.toList.all fun c => c ≠ '\\' ∧ c ≠ '\'') (by simp [Plain])

instance (s : String) : Decidable (Word s) :=
  decidable_of_iff (s.toList.all fun c => c ∉ special) (by simp [Word])

structure Sealed (s : String) : Prop where
  closed : Closed s
  guarded : ∀ c ∈ separators, ¬ Bare c s

theorem markedPlain {cs : List Char} (plain : ∀ c ∈ cs, c ≠ '\\' ∧ c ≠ '\'') (rest : List Char) :
    marked false (cs ++ rest) = cs.map (·,false) ++ marked false rest := by
  induction cs with
  | nil => rfl
  | cons c cs ih =>
    obtain ⟨⟨slash,quote⟩,later⟩ := List.forall_mem_cons.mp plain
    rw [List.cons_append,marked,beq_false_of_ne quote,ih later]
    · rfl
    · exact fun _ _ same _ => slash same

theorem markedInside {cs : List Char} (quotes : '\'' ∉ cs) (rest : List Char) :
    marked true (cs ++ '\'' :: rest) = cs.map (·,true) ++ ('\'',true) :: marked false rest := by
  induction cs with
  | nil => rfl
  | cons c cs ih =>
    obtain ⟨here,later⟩ : '\'' ≠ c ∧ '\'' ∉ cs := by simpa using quotes
    have stays : (c != '\'') = true := by simpa using here.symm
    rw [List.cons_append,marked,stays,ih later]
    rfl

/-- An escaped character, with the backslash before it. -/
def escapedMarks (c : Char) : List Mark :=
  if c = '\\' ∨ c = ':' ∨ c = '\'' then [('\\',true),(c,true)] else [(c,false)]

theorem markedEscaped (cs rest : List Char) :
    marked false (cs.flatMap escapeChar ++ rest) =
      cs.flatMap escapedMarks ++ marked false rest := by
  induction cs with
  | nil => rfl
  | cons c cs ih =>
    rw [List.flatMap_cons,List.flatMap_cons,List.append_assoc,List.append_assoc]
    by_cases special : c = '\\' ∨ c = ':' ∨ c = '\''
    · rw [escapeChar,escapedMarks,if_pos special,if_pos special,List.cons_append,List.cons_append,
        List.nil_append,marked,ih]
      rfl
    · have plain : ∀ d ∈ [c], d ≠ '\\' ∧ d ≠ '\'' := by
        simp only [List.mem_singleton,forall_eq]
        tauto
      rw [escapeChar,escapedMarks,if_neg special,if_neg special,markedPlain plain,ih]
      rfl

section
variable {a b s : String} {c : Char} {ms : List Mark}

theorem Reads.marks (reads : Reads s ms) : marks s = ms := by
  have whole := reads []
  rw [List.append_nil] at whole
  exact whole.trans (List.append_nil _)

theorem Reads.closed (reads : Reads s ms) : Closed s := by
  intro rest
  rw [reads,reads.marks]

theorem Closed.marks (closed : Closed a) (b : String) : marks (a ++ b) = marks a ++ marks b := by
  unfold Montage.marks
  rw [String.toList_append,closed]
  rfl

theorem Closed.append (first : Closed a) (second : Closed b) : Closed (a ++ b) := by
  intro rest
  rw [first.marks,String.toList_append,List.append_assoc,first,second,List.append_assoc]

theorem Closed.bare (closed : Closed a) : Bare c (a ++ b) ↔ Bare c a ∨ Bare c b := by
  unfold Bare
  rw [closed.marks,List.mem_append]

theorem Plain.reads (plain : Plain s) : Reads s (s.toList.map (·,false)) := markedPlain plain

theorem Plain.bare (plain : Plain s) : Bare c s ↔ c ∈ s.toList := by
  unfold Bare
  rw [plain.reads.marks]
  simp

theorem Word.plain (word : Word s) : Plain s := by
  intro c mem
  have apart := word c mem
  simp only [special,List.mem_cons,not_or] at apart
  exact ⟨apart.1,apart.2.1⟩

theorem Word.apart (word : Word s) (sep : c ∈ separators) : c ∉ s.toList := fun mem =>
  word c mem (List.mem_cons_of_mem _ (List.mem_cons_of_mem _ sep))

theorem Word.sealed (word : Word s) : Sealed s :=
  ⟨word.plain.reads.closed,fun _ sep bare => word.apart sep (word.plain.bare.mp bare)⟩

theorem Word.append (first : Word a) (second : Word b) : Word (a ++ b) := by
  unfold Word
  rw [String.toList_append]
  exact List.forall_mem_append.mpr ⟨first,second⟩

theorem Sealed.append (first : Sealed a) (second : Sealed b) : Sealed (a ++ b) := by
  refine ⟨first.closed.append second.closed,fun c sep bare => ?_⟩
  rcases first.closed.bare.mp bare with here | later
  · exact first.guarded c sep here
  · exact second.guarded c sep later

theorem sealedQuoted (quotes : '\'' ∉ s.toList) : Sealed (inQuotes s) := by
  have letters : (inQuotes s).toList = '\'' :: (s.toList ++ ['\'']) := by
    unfold inQuotes
    simp [String.toList_append]
  have reads : Reads (inQuotes s) (('\'',true) :: (s.toList.map (·,true) ++ [('\'',true)])) := by
    intro rest
    rw [letters,List.cons_append,List.append_assoc,List.singleton_append,marked]
    · rw [List.cons_append,List.append_assoc]
      exact congrArg _ (markedInside quotes rest)
    · exact fun _ _ same _ => absurd same (by decide)
  refine ⟨reads.closed,fun c _ bare => ?_⟩
  unfold Bare at bare
  rw [reads.marks] at bare
  simp at bare

theorem escapedReads (s : String) : Reads (escapeValue s) (s.toList.flatMap escapedMarks) := by
  intro rest
  rw [escapeValue,String.toList_ofList]
  exact markedEscaped s.toList rest

/-- Escaping leaves most separators bare. -/
theorem bareEscaped (apart : c ∉ ['\\',':','\'']) : Bare c (escapeValue s) ↔ c ∈ s.toList := by
  unfold Bare
  rw [(escapedReads s).marks,List.mem_flatMap]
  constructor
  · rintro ⟨d,mem,mark⟩
    unfold escapedMarks at mark
    split at mark
    · simp at mark
    · cases List.mem_singleton.mp mark
      exact mem
  · intro mem
    have plain : ¬ (c = '\\' ∨ c = ':' ∨ c = '\'') := by simpa using apart
    refine ⟨c,mem,?_⟩
    rw [escapedMarks,if_neg plain]
    exact List.mem_singleton_self _

theorem colonEscaped (s : String) : ¬ Bare ':' (escapeValue s) := by
  unfold Bare
  rw [(escapedReads s).marks,List.mem_flatMap]
  rintro ⟨d,_,mark⟩
  unfold escapedMarks at mark
  split at mark
  · simp at mark
  · rename_i plain
    cases List.mem_singleton.mp mark
    simp at plain

end

end Montage
