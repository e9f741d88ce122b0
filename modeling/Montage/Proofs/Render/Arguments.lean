import Montage.Proofs.Render.Readable
import Montage.Proofs.Render.SideFiles

/-! The arguments of filters, read back. Each argument is closed, so no quote is open where a colon
divides two of them, and a colon of its own is quoted or escaped. The paths of files are the only
free text among them. -/
namespace Montage

namespace Filter

/-- The arguments in the text of a filter: what follows its name and an equals sign, cut at every
bare colon. -/
def argsShown (name text : String) : Option (List String) :=
  (after? (name.toList ++ ['=']) text.toList).map fun rest =>
    ((marked false rest).splitOn (':',false)).map letters

/-- A filter whose arguments can be told apart between colons. -/
structure Separable (f : Filter) : Prop where
  given : f.args ≠ []
  closed : ∀ a ∈ f.args, Closed a
  colons : ∀ a ∈ f.args, ¬ Bare ':' a

variable {f : Filter}

theorem Guarded.separable (guarded : f.Guarded) : f.Separable :=
  ⟨guarded.some,fun a mem => (guarded.args a mem).closed,
    fun a mem => (guarded.args a mem).guarded ':' (by decide)⟩

theorem Separable.shown (separable : f.Separable) : argsShown f.name f.text = some f.args := by
  have filled : f.args.isEmpty = false := by simpa using separable.given
  have reads := joinedReads (g := ":") (c := ':') rfl (by decide) separable.closed
  have spelled : f.text.toList = (f.name.toList ++ ['=']) ++ (":".intercalate f.args).toList := by
    rw [text,filled,if_neg Bool.false_ne_true,String.toList_append,String.toList_append]
    rfl
  have apart : ∀ ms ∈ f.args.map marks, (':',false) ∉ ms :=
    List.forall_mem_map.mpr separable.colons
  have written : f.args.map marks ≠ [] := by simpa using separable.given
  have back : (f.args.map marks).map letters = f.args := by
    rw [List.map_map]
    exact List.map_id'' lettersMarks f.args
  have cut : (marks (":".intercalate f.args)).splitOn (':',false) = f.args.map marks := by
    rw [reads.marks,List.splitOn_intercalate _ apart written]
  unfold argsShown
  rw [spelled,afterAppend,Option.map_some]
  exact congrArg _ ((congrArg _ cut).trans back)

end Filter

namespace Picture

theorem pathColon {key : String} (word : Word key) (s : String) :
    ¬ Bare ':' (named key (escapeValue s)) := by
  have front := (word.append (by decide : Word "=")).sealed
  unfold named
  rw [front.closed.bare,not_or]
  exact ⟨front.guarded ':' (by decide),colonEscaped s⟩

theorem fontColon (font : Option String) : ∀ a ∈ fontArgs font, ¬ Bare ':' a := by
  unfold fontArgs
  split
  · exact List.forall_mem_nil _
  · exact List.forall_mem_singleton.mpr (pathColon (by decide) _)

theorem drawTextSeparable {t : Overlay} {c : Clip} {path : String} {font : Option String}
    {f : Filter} (ok : drawText t c path font = .ok f) : f.Separable := by
  obtain ⟨others,_,closed,rfl⟩ := drawTextArgs ok
  refine ⟨List.cons_ne_nil _ _,?_,?_⟩
  · refine List.forall_mem_cons.mpr ⟨pathClosed (by decide) path,?_⟩
    exact List.forall_mem_append.mpr ⟨fontClosed font,fun a mem => (closed a mem).closed⟩
  · refine List.forall_mem_cons.mpr ⟨pathColon (by decide) path,?_⟩
    exact List.forall_mem_append.mpr
      ⟨fontColon font,fun a mem => (closed a mem).guarded ':' (by decide)⟩

end Picture

namespace Timeline
variable {tl : Timeline} {o : Options} {p : Plan}

theorem compileSeparable (ok : tl.compile o = .ok p) :
    ∀ n ∈ p.graph.nodes, ∀ f ∈ n.filters, f.Separable := by
  intro n mem f inside
  by_cases text : n.kind = "text"
  · have stored : n ∈ p.graph.ofKind "text" := List.mem_filter.mpr ⟨mem,beq_iff_eq.mpr text⟩
    rcases compileTexts ok with ⟨_,none,_⟩ | ⟨_,drawn,_⟩
    · rw [none] at stored
      cases stored
    · obtain ⟨x,_,made⟩ := pairedRight drawn stored
      obtain ⟨g,shown,rfl⟩ := Picture.textNodeSource made
      cases List.mem_singleton.mp inside
      exact Picture.drawTextSeparable shown
  · exact ((compileWritten ok n mem).guarded text f inside).separable

/-- Escaping can be undone and leaves no colon or quote bare, and the arguments of every filter of a
plan are found in its text as they are. -/
theorem argumentsSurvive :
    (∀ s, unescaped (escapeValue s) = s ∧
      ∀ before c after, (escapeValue s).toList = before ++ c :: after → c = ':' ∨ c = '\'' →
        escapesNext before.reverse = true) ∧
    ∀ (tl : Timeline) (o : Options) (p : Plan), tl.compile o = .ok p →
      ∀ n ∈ p.graph.nodes, ∀ f ∈ n.filters, Filter.argsShown f.name f.text = some f.args := by
  refine ⟨fun s => ⟨unescapedEscaped s,fun before c after place special => ?_⟩,
    fun tl o p ok n mem f inside => (compileSeparable ok n mem f inside).shown⟩
  rw [escapeValue,String.toList_ofList] at place
  have escaped : escapesNext (before.reverse ++ []) = true := escapedBefore special rfl place
  rwa [List.append_nil] at escaped

theorem quaintSurvives : ∃ p, (sung [verse]).compile quaint = .ok p ∧
    p.graph.ofKind "text" ≠ [] ∧
    ∀ n ∈ p.graph.nodes, ∀ f ∈ n.filters, Filter.argsShown f.name f.text = some f.args := by
  obtain ⟨p,ok,drawn⟩ := answered (x := (sung [verse]).compile quaint)
    (fun p => (p.graph.ofKind "text").length == 1) (by decide +kernel)
  refine ⟨p,ok,fun none => ?_,argumentsSurvive.2 _ _ p ok⟩
  rw [none] at drawn
  cases drawn

end Timeline
end Montage
