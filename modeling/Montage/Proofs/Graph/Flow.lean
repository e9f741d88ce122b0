import Montage.Proofs.Answer
import Montage.Proofs.Graph.Label
import Mathlib.Data.List.Nodup

/-! How labels flow through a list of nodes. Each node takes what it reads from the labels that are
still unread and adds its outputs. A list that flows is accepted node by node, and nothing is lost
on the way: what was produced has either been read once or is still unread. -/
namespace Montage

def Node.after (n : Node) (unread : List String) : List String :=
  unread.filter (!n.reads.contains ·) ++ n.outputs

inductive Flow : List String → List Node → List String → Prop where
  | nil (unread : List String) : Flow unread [] unread
  | node {unread : List String} {n : Node} {ns : List Node} {last : List String}
      (filters : n.filters ≠ []) (reads : n.reads ⊆ unread) (once : n.reads.Nodup)
      (next : Flow (n.after unread) ns last) : Flow unread (n :: ns) last

namespace Graph
variable {g g' : Graph} {n : Node}

theorem inputsOk (kind : String) {labels : List String} :
    g.checkInputs kind labels = .ok () ↔
      ∀ l ∈ labels.filter (!isStream ·), l ∈ g.produced ∧ l ∉ g.consumed := by
  induction labels with
  | nil => simp [checkInputs]
  | cons l ls ih =>
    unfold checkInputs
    by_cases stream : isStream l = true
    · rw [if_pos stream,ih]
      simp [stream]
    rw [if_neg stream]
    by_cases produced : l ∈ g.produced
    · by_cases consumed : l ∈ g.consumed
      · simp [produced,consumed,stream]
      · simp [produced,consumed,stream,ih]
    · simp [produced,stream]

theorem outputsOk {all labels : List String} :
    g.checkOutputs all labels = .ok () ↔
      ∀ l ∈ labels, isStream l = false ∧ l ∉ g.produced ∧ all.count l ≤ 1 := by
  induction labels with
  | nil => simp [checkOutputs]
  | cons l ls ih =>
    unfold checkOutputs
    by_cases stream : isStream l = true
    · simp [stream]
    rw [if_neg stream]
    by_cases taken : g.produced.contains l = true ∨ 1 < all.count l
    · rw [if_pos taken]
      simp only [List.contains_iff_mem] at taken
      refine ⟨nofun,fun all => ?_⟩
      have := all l List.mem_cons_self
      rcases taken with old | many
      · exact absurd old this.2.1
      · omega
    · rw [if_neg taken,ih]
      simp only [List.contains_iff_mem,not_or] at taken
      simp only [List.mem_cons,forall_eq_or_imp]
      exact ⟨fun rest => ⟨⟨by simpa using stream,taken.1,by omega⟩,rest⟩,fun all => all.2⟩

theorem addOk : g.add n = .ok g' ↔ g' = ⟨g.nodes ++ [n]⟩ ∧ n.filters ≠ [] ∧
    (∀ l ∈ n.reads, l ∈ g.produced ∧ l ∉ g.consumed) ∧
    (∀ l ∈ n.outputs, isStream l = false ∧ l ∉ g.produced) ∧ n.outputs.Nodup := by
  have outputs : g.checkOutputs n.outputs n.outputs = .ok () ↔
      (∀ l ∈ n.outputs, isStream l = false ∧ l ∉ g.produced) ∧ n.outputs.Nodup := by
    rw [outputsOk,List.nodup_iff_count_le_one]
    constructor
    · intro all
      refine ⟨fun l mem => ⟨(all l mem).1,(all l mem).2.1⟩,fun l => ?_⟩
      by_cases mem : l ∈ n.outputs
      · exact (all l mem).2.2
      · rw [List.count_eq_zero_of_not_mem mem]
        omega
    · exact fun all l mem => ⟨(all.1 l mem).1,(all.1 l mem).2,all.2 l⟩
  constructor
  · intro ok
    unfold add at ok
    obtain ⟨filters,ok⟩ := guardOk ok
    obtain ⟨_,inputs,ok⟩ := bindOk ok
    obtain ⟨_,fresh,last⟩ := bindOk ok
    exact ⟨(Except.ok.inj last).symm,by simpa using filters,(inputsOk _).mp inputs,outputs.mp fresh⟩
  · rintro ⟨rfl,filters,inputs,fresh⟩
    have passed := (inputsOk n.kind).mpr inputs
    have named := outputs.mpr fresh
    unfold add
    rw [if_neg (by simpa using filters)]
    simp only [passed,named]
    rfl

theorem memUnconsumed {l : String} : l ∈ g.unconsumed ↔ l ∈ g.produced ∧ l ∉ g.consumed := by
  simp [unconsumed]

theorem producedAppend (g : Graph) (ns : List Node) :
    (⟨g.nodes ++ ns⟩ : Graph).produced = g.produced ++ ns.flatMap Node.outputs := by
  simp [produced]

theorem consumedAppend (g : Graph) (ns : List Node) :
    (⟨g.nodes ++ ns⟩ : Graph).consumed = g.consumed ++ ns.flatMap Node.reads := by
  simp [consumed]

/-- Outputs are unread at first, since nothing reads a label before it is produced. -/
theorem unconsumedAdd (read : g.consumed ⊆ g.produced) (reads : n.reads ⊆ g.unconsumed)
    (fresh : ∀ l ∈ n.outputs, l ∉ g.produced) :
    (⟨g.nodes ++ [n]⟩ : Graph).unconsumed = n.after g.unconsumed := by
  have new : n.outputs.filter (!(g.consumed ++ n.reads).contains ·) = n.outputs := by
    rw [List.filter_eq_self]
    intro l mem
    have absent := fresh l mem
    have unread : l ∉ g.consumed ++ n.reads := by
      intro mem
      rcases List.mem_append.mp mem with old | here
      · exact absent (read old)
      · exact absent (memUnconsumed.mp (reads here)).1
    simpa using unread
  unfold unconsumed Node.after
  rw [producedAppend,consumedAppend,List.flatMap_singleton,List.flatMap_singleton,
    List.filter_append,new,List.filter_filter]
  congr 1
  refine List.filter_congr fun l _ => ?_
  rw [List.contains_append,Bool.not_or,Bool.and_comm]

end Graph

namespace Flow
variable {unread middle last : List String} {ns ms : List Node}

theorem append (first : Flow unread ns middle) (second : Flow middle ms last) :
    Flow unread (ns ++ ms) last := by
  induction first with
  | nil unread => exact second
  | node filters reads once next ih => exact .node filters reads once (ih second)

theorem one {n : Node} (filters : n.filters ≠ []) (reads : n.reads ⊆ unread)
    (once : n.reads.Nodup) : Flow unread [n] (n.after unread) :=
  .node filters reads once (.nil _)

theorem freshAfter {n : Node} {rest : List String}
    (fresh : (unread ++ (n.outputs ++ rest)).Nodup) : (n.after unread ++ rest).Nodup := by
  refine fresh.sublist ?_
  rw [← List.append_assoc]
  exact (List.filter_sublist.append (List.Sublist.refl _)).append (List.Sublist.refl _)

theorem takenOut {n : Node} (reads : n.reads ⊆ unread) (once : n.reads.Nodup)
    (distinct : unread.Nodup) :
    unread.Perm (n.reads ++ unread.filter (!n.reads.contains ·)) := by
  refine (List.perm_ext_iff_of_nodup distinct ?_).mpr ?_
  · refine List.nodup_append.mpr ⟨once,distinct.filter _,?_⟩
    rintro l read m rest rfl
    have := (List.mem_filter.mp rest).2
    simp [read] at this
  · intro l
    simp only [List.mem_append,List.mem_filter]
    constructor
    · intro mem
      by_cases read : l ∈ n.reads
      · exact .inl read
      · exact .inr ⟨mem,by simpa using read⟩
    · rintro (read | rest)
      · exact reads read
      · exact rest.1

theorem conserved (flow : Flow unread ns last)
    (fresh : (unread ++ ns.flatMap Node.outputs).Nodup) :
    (unread ++ ns.flatMap Node.outputs).Perm (ns.flatMap Node.reads ++ last) := by
  induction flow with
  | nil unread => simp
  | @node unread n ns last filters reads once next ih =>
    rw [List.flatMap_cons] at fresh ⊢
    have rest := ih (freshAfter fresh)
    have taken := takenOut reads once (List.nodup_append.mp fresh).1
    rw [List.flatMap_cons,List.append_assoc]
    calc (unread ++ (n.outputs ++ ns.flatMap Node.outputs)).Perm
          (n.reads ++ unread.filter (!n.reads.contains ·) ++
            (n.outputs ++ ns.flatMap Node.outputs)) := taken.append_right _
      _ = n.reads ++ (n.after unread ++ ns.flatMap Node.outputs) := by simp [Node.after]
      _ |>.Perm (n.reads ++ (ns.flatMap Node.reads ++ last)) := rest.append_left _

theorem earlier {before after : List Node} {n : Node} (flow : Flow unread ns last)
    (split : ns = before ++ n :: after) :
    n.reads ⊆ unread ++ before.flatMap Node.outputs := by
  induction flow generalizing before with
  | nil unread => simp at split
  | @node unread m ns last filters reads once next ih =>
    cases before with
    | nil =>
      cases split
      simpa using reads
    | cons b before =>
      obtain ⟨rfl,tail⟩ := List.cons.inj split
      refine List.Subset.trans (ih tail) ?_
      intro l mem
      simp only [Node.after,List.mem_append,List.mem_filter,List.flatMap_cons] at mem ⊢
      tauto

theorem accepted {g : Graph} (flow : Flow unread ns last) (start : unread = g.unconsumed)
    (read : g.consumed ⊆ g.produced)
    (fresh : (g.produced ++ ns.flatMap Node.outputs).Nodup)
    (plain : ∀ l ∈ ns.flatMap Node.outputs, isStream l = false) :
    g.addAll ns = .ok ⟨g.nodes ++ ns⟩ ∧ (⟨g.nodes ++ ns⟩ : Graph).unconsumed = last := by
  induction flow generalizing g with
  | nil unread => exact ⟨by simp [Graph.addAll],by simpa using start.symm⟩
  | @node unread n ns last filters reads once next ih =>
    subst start
    rw [List.flatMap_cons] at fresh plain
    have new : ∀ l ∈ n.outputs, l ∉ g.produced := fun l mem old =>
      (List.nodup_append.mp fresh).2.2 l old l (List.mem_append_left _ mem) rfl
    have added : g.add n = .ok ⟨g.nodes ++ [n]⟩ := Graph.addOk.mpr ⟨rfl,filters,
      fun l mem => Graph.memUnconsumed.mp (reads mem),
      fun l mem => ⟨plain l (List.mem_append_left _ mem),new l mem⟩,
      (List.nodup_append.mp (List.nodup_append.mp fresh).2.1).1⟩
    have reads' : (⟨g.nodes ++ [n]⟩ : Graph).consumed ⊆ (⟨g.nodes ++ [n]⟩ : Graph).produced := by
      rw [Graph.consumedAppend,Graph.producedAppend]
      intro l mem
      rcases List.mem_append.mp mem with old | here
      · exact List.mem_append_left _ (read old)
      · rw [List.flatMap_singleton] at here
        exact List.mem_append_left _ (Graph.memUnconsumed.mp (reads here)).1
    have rest := ih (g := ⟨g.nodes ++ [n]⟩) (Graph.unconsumedAdd read reads new).symm reads'
      (by rw [Graph.producedAppend,List.flatMap_singleton,List.append_assoc]; exact fresh)
      (fun l mem => plain l (List.mem_append_right _ mem))
    rw [List.append_assoc,List.singleton_append] at rest
    refine ⟨?_,rest.2⟩
    rw [Graph.addAll,added]
    exact rest.1

end Flow
end Montage
