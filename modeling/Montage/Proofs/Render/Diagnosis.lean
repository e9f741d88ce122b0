import Montage.Proofs.Text.Blank
import Montage.Proofs.Text.Capital
import Montage.Render.Diagnosis

/-! The lines that are shown of a renderer's messages. Each was trimmed and has no break in it, so
the text that shows them has just these lines, and showing that text again changes nothing. -/
namespace Montage.Diagnosis

/-- Some marker stands in the line, whatever its case. -/
def Telling (line : List Char) : Prop := ∃ m ∈ markers, m.toList <:+: inSmall line

theorem isTellingIff (line : List Char) : isTelling line = true ↔ Telling line := by
  have ascii : ∀ m ∈ markers, Ascii m.toList := by decide
  unfold isTelling Telling
  rw [List.any_eq_true]
  refine exists_congr fun m => and_congr_right fun known => ?_
  exact (holdsIff m.toList (lower line)).trans (lowerPart (ascii m known) line)

theorem Telling.given {line : List Char} (telling : Telling line) : line ≠ [] := by
  rintro rfl
  obtain ⟨m,known,inside⟩ := telling
  have worded : ∀ m ∈ markers, m ≠ "" := by decide
  exact worded m known (String.toList_eq_nil_iff.mp (List.infix_nil.mp inside))

instance (line : List Char) : Decidable (Telling line) := decidable_of_iff _ (isTellingIff line)

/-- All lines of a text, without the blanks at their ends. -/
def stripped (s : String) : List (List Char) := (lines s.toList).map trim

/-- A line that is found again as it is. -/
structure Clean (line : List Char) : Prop where
  given : line ≠ []
  unbroken : Unbroken line
  trimmed : Trimmed line

theorem trimmedLinesClean (cs : List Char) : ∀ l ∈ trimmedLines cs, Clean l := by
  intro l mem
  obtain ⟨mem,given⟩ := List.mem_filter.mp mem
  obtain ⟨whole,line,rfl⟩ := List.mem_map.mp mem
  exact ⟨by simpa using given,(linesUnbroken cs whole line).inside (trimInside whole),
    trimmedTrim whole⟩

theorem linesClean {ls : List (List Char)} (clean : ∀ l ∈ ls, Clean l) :
    lines (['\n'].intercalate ls) = ls :=
  linesJoined fun l mem => ⟨(clean l mem).given,(clean l mem).unbroken⟩

theorem trimmedLinesJoined {ls : List (List Char)} (clean : ∀ l ∈ ls, Clean l) :
    trimmedLines (['\n'].intercalate ls) = ls := by
  have same : ls.map trim = ls.map id := List.map_congr_left fun l mem => (clean l mem).trimmed.trim
  rw [List.map_id] at same
  unfold trimmedLines
  rw [linesClean clean,same]
  exact List.filter_eq_self.mpr fun l mem => by simpa using (clean l mem).given

/-- The lines that are shown, never none. -/
def shown (cs : List Char) : List (List Char) :=
  let all := trimmedLines cs
  match all.filter isTelling with
  | [] => [all.getLast?.getD "no diagnostic output".toList]
  | hits => hits

theorem charsEq (cs : List Char) : chars cs = ['\n'].intercalate (shown cs) := by
  unfold chars shown
  dsimp only
  cases (trimmedLines cs).filter isTelling with
  | nil => exact List.intercalate_singleton.symm
  | cons => rfl

/-- Either every line that is shown is telling, or a single one is shown that is not. -/
theorem shownCases (cs : List Char) :
    ((∃ l ∈ trimmedLines cs, Telling l) ∧ shown cs = (trimmedLines cs).filter isTelling) ∨
    ((∀ l ∈ trimmedLines cs, ¬ Telling l) ∧
      shown cs = [(trimmedLines cs).getLast?.getD "no diagnostic output".toList]) := by
  unfold shown
  dsimp only
  cases hits : (trimmedLines cs).filter isTelling with
  | nil =>
    refine .inr ⟨fun l mem telling => ?_,rfl⟩
    exact List.filter_eq_nil_iff.mp hits l mem ((isTellingIff l).mpr telling)
  | cons l ls =>
    have mem : l ∈ (trimmedLines cs).filter isTelling := hits ▸ List.mem_cons_self
    obtain ⟨stored,telling⟩ := List.mem_filter.mp mem
    exact .inl ⟨⟨l,stored,(isTellingIff l).mp telling⟩,rfl⟩

theorem shownClean (cs : List Char) : ∀ l ∈ shown cs, Clean l := by
  have clean := trimmedLinesClean cs
  rcases shownCases cs with ⟨_,same⟩ | ⟨_,same⟩
  · rw [same]
    exact fun l mem => clean l (List.mem_of_mem_filter mem)
  · rw [same]
    refine List.forall_mem_singleton.mpr ?_
    cases last : (trimmedLines cs).getLast? with
    | none =>
      exact ⟨by decide,by decide,⟨fun _ => rfl,fun _ => rfl⟩⟩
    | some l => exact clean l (List.mem_of_getLast? last)

theorem shownSome (cs : List Char) : shown cs ≠ [] := by
  rcases shownCases cs with ⟨⟨l,stored,telling⟩,same⟩ | ⟨_,same⟩
  · rw [same]
    exact List.ne_nil_of_mem (List.mem_filter.mpr ⟨stored,(isTellingIff l).mpr telling⟩)
  · rw [same]
    exact List.cons_ne_nil _ _

theorem shownAlike (cs : List Char) :
    (∀ l ∈ shown cs, Telling l) ∨ ∃ l, shown cs = [l] ∧ ¬ Telling l := by
  rcases shownCases cs with ⟨_,same⟩ | ⟨none,same⟩
  · refine .inl fun l mem => (isTellingIff l).mp ?_
    exact List.of_mem_filter (same ▸ mem)
  · refine .inr ⟨_,same,?_⟩
    cases last : (trimmedLines cs).getLast? with
    | none => exact (by decide : ¬ Telling "no diagnostic output".toList)
    | some l => exact none l (List.mem_of_getLast? last)

/-- What is shown of a text is shown again of the text that shows it. -/
theorem shownAgain (cs : List Char) : shown (chars cs) = shown cs := by
  have found : trimmedLines (chars cs) = shown cs := by
    rw [charsEq,trimmedLinesJoined (shownClean cs)]
  have again := shownCases (chars cs)
  rw [found] at again
  rcases again with ⟨⟨l,mem,telling⟩,same⟩ | ⟨none,same⟩
  · rw [same]
    refine List.filter_eq_self.mpr fun m mem' => (isTellingIff m).mpr ?_
    rcases shownAlike cs with each | ⟨k,alone,silent⟩
    · exact each m mem'
    · rw [alone] at mem
      exact absurd (List.mem_singleton.mp mem ▸ telling) silent
  · rw [same]
    rcases shownAlike cs with each | ⟨k,alone,_⟩
    · obtain ⟨m,mem⟩ := List.exists_mem_of_ne_nil _ (shownSome cs)
      exact absurd (each m mem) (none m mem)
    · rw [alone]
      rfl

theorem trimmedLinesEq (s : String) :
    trimmedLines s.toList = (stripped s).filter (· ≠ []) := by
  refine List.filter_congr fun l _ => ?_
  cases l <;> rfl

theorem tellingIff (s : String) :
    (∃ l ∈ trimmedLines s.toList, Telling l) ↔ ∃ l ∈ stripped s, Telling l := by
  rw [trimmedLinesEq]
  refine exists_congr fun l => and_congr_left fun telling => ?_
  rw [List.mem_filter,decide_eq_true_iff]
  exact and_iff_left telling.given

theorem textLines (s : String) : lines (text s).toList = shown s.toList := by
  rw [text,String.toList_ofList,charsEq,linesClean (shownClean _)]

/-- Every line that tells of an error is shown, as often as it stands there and in its place; where
there is none, the last line is shown that is not blank. -/
theorem textTelling (s : String) :
    text s ≠ "" ∧
    ((∃ l ∈ stripped s, Telling l) →
      lines (text s).toList = (stripped s).filter fun l => l ≠ [] ∧ Telling l) ∧
    ((¬ ∃ l ∈ stripped s, Telling l) →
      text s = match ((stripped s).filter (· ≠ [])).getLast? with
        | some l => String.ofList l
        | none => "no diagnostic output") ∧
    text (text s) = text s := by
  have either := shownCases s.toList
  rw [tellingIff] at either
  refine ⟨fun empty => ?_,fun some => ?_,fun none => ?_,?_⟩
  · have nothing := textLines s
    rw [empty] at nothing
    exact shownSome _ nothing.symm
  · rcases either with ⟨_,same⟩ | ⟨none,_⟩
    · rw [textLines,same,trimmedLinesEq,List.filter_filter]
      refine List.filter_congr fun l _ => ?_
      rw [Bool.decide_and,Bool.and_comm]
      exact congrArg _ (Bool.eq_iff_iff.mpr ((isTellingIff l).trans decide_eq_true_iff.symm))
    · exact absurd ((tellingIff s).mpr some) fun ⟨l,mem,telling⟩ => none l mem telling
  · rcases either with ⟨some,_⟩ | ⟨_,same⟩
    · exact absurd some none
    · rw [text,charsEq,same,List.intercalate_singleton,trimmedLinesEq]
      cases ((stripped s).filter (· ≠ [])).getLast? <;> rfl
  · unfold text
    rw [String.toList_ofList,charsEq (chars s.toList),shownAgain,← charsEq]

def complaints : String :=
  "frame= 1\r\n  Error: a.mp4\u2028\u2028Conversion FAILED \nframe= 2\n"

theorem complaintsTelling : (∃ l ∈ stripped complaints, Telling l) ∧
    (lines (text complaints).toList = (stripped complaints).filter fun l => l ≠ [] ∧ Telling l) ∧
    text complaints = "Error: a.mp4\nConversion FAILED" :=
  have some : ∃ l ∈ stripped complaints, Telling l := by decide +kernel
  ⟨some,(textTelling complaints).2.1 some,by decide +kernel⟩

end Montage.Diagnosis
