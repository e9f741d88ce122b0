import Montage.Proofs.Graph.Flow
import Montage.Render.Plan

/-! Chains of nodes. Texts and effects are strung on one thread: each node reads the output of the
one before it and nothing else. Segments and tracks read streams only and may stand in any number
beside each other; a join or a mix then takes all of them at once. -/
namespace Montage

inductive Chained : String → List Node → String → Prop where
  | nil (label : String) : Chained label [] label
  | node {label next last : String} {n : Node} {ns : List Node} (inputs : n.inputs = [label])
      (outputs : n.outputs = [next]) (rest : Chained next ns last) : Chained label (n :: ns) last

theorem Chained.append {a b c : String} {ns ms : List Node} (first : Chained a ns b)
    (second : Chained b ms c) : Chained a (ns ++ ms) c := by
  induction first with
  | nil label => exact second
  | node inputs outputs rest ih => exact .node inputs outputs (ih second)

theorem readsOne {n : Node} {label : String} (inputs : n.inputs = [label])
    (plain : isStream label = false) : n.reads = [label] := by
  simp [Node.reads,inputs,plain]

theorem readsStream {n : Node} {label : String} (inputs : n.inputs = [label])
    (stream : isStream label = true) : n.reads = [] := by
  simp [Node.reads,inputs,stream]

theorem Chained.flow {label last : String} {ns : List Node} (chained : Chained label ns last)
    (start : isStream label = false) (plain : ∀ l ∈ ns.flatMap Node.outputs, isStream l = false)
    (filters : ∀ n ∈ ns, n.filters ≠ []) : Flow [label] ns [last] := by
  induction chained with
  | nil label => exact .nil _
  | @node label next last n ns inputs outputs rest ih =>
    have reads := readsOne inputs start
    rw [List.flatMap_cons] at plain
    refine .node (filters n List.mem_cons_self) (by simp [reads]) (by simp [reads]) ?_
    have after : n.after [label] = [next] := by simp [Node.after,reads,outputs]
    rw [after]
    exact ih (plain next (by simp [outputs])) (fun l mem => plain l (List.mem_append_right _ mem))
      fun m mem => filters m (List.mem_cons_of_mem _ mem)

open Picture in
theorem linkedFrom {s base : String} {items : List α} {k : Nat} {ns : List Node}
    (each : List.Forall₂ (fun (x : α × Nat) n => n.inputs = [link s base x.2] ∧
      n.outputs = [s ++ toString x.2]) (items.zipIdx k) ns) :
    Chained (link s base k) ns (link s base (k + items.length)) ∧
      ns.flatMap Node.outputs = (List.range' k items.length).map fun i => s ++ toString i := by
  induction items generalizing k ns with
  | nil =>
    cases each
    exact ⟨.nil _,rfl⟩
  | cons x xs ih =>
    cases each with
    | cons here rest =>
      obtain ⟨chained,outputs⟩ := ih rest
      have count : k + (x :: xs).length = k + 1 + xs.length := by
        simp only [List.length_cons]
        omega
      rw [count]
      refine ⟨.node here.1 here.2 chained,?_⟩
      rw [List.flatMap_cons,here.2,outputs,List.length_cons,List.range'_succ]
      rfl

open Picture in
theorem linkedAll {s base : String} {items : List α} {ns : List Node}
    (each : List.Forall₂ (fun (x : α × Nat) n => n.inputs = [link s base x.2] ∧
      n.outputs = [s ++ toString x.2]) items.zipIdx ns) :
    Chained base ns (link s base items.length) ∧
      ns.flatMap Node.outputs = numbered s items.length := by
  have ⟨chained,outputs⟩ := linkedFrom each
  rw [Nat.zero_add] at chained
  exact ⟨chained,by rw [outputs,numbered,List.range_eq_range']⟩

theorem Flow.streams (unread : List String) {ns : List Node}
    (each : ∀ n ∈ ns, n.filters ≠ [] ∧ n.reads = []) :
    Flow unread ns (unread ++ ns.flatMap Node.outputs) := by
  induction ns generalizing unread with
  | nil =>
    rw [List.flatMap_nil,List.append_nil]
    exact .nil _
  | cons n ns ih =>
    obtain ⟨filters,reads⟩ := each n List.mem_cons_self
    have after : n.after unread = unread ++ n.outputs := by simp [Node.after,reads]
    refine .node filters (by simp [reads]) (by simp [reads]) ?_
    rw [after,List.flatMap_cons,← List.append_assoc]
    exact ih _ fun m mem => each m (List.mem_cons_of_mem _ mem)

theorem Flow.gather (others : List String) {taken : List String} {n : Node} (filters : n.filters ≠ [])
    (reads : n.reads = taken) (distinct : taken.Nodup) (apart : ∀ l ∈ others, l ∉ taken) :
    Flow (others ++ taken) [n] (others ++ n.outputs) := by
  have after : n.after (others ++ taken) = others ++ n.outputs := by
    have kept : others.filter (!taken.contains ·) = others :=
      List.filter_eq_self.mpr fun l mem => by simpa using apart l mem
    have gone : taken.filter (!taken.contains ·) = [] :=
      List.filter_eq_nil_iff.mpr fun l mem => by simpa using mem
    rw [Node.after,reads,List.filter_append,kept,gone,List.append_nil]
  rw [← after]
  exact Flow.one filters (reads ▸ List.subset_append_right _ _) (reads ▸ distinct)

theorem readsNumbered {n : Node} {s : String} {count : Nat}
    (letters : ∀ c ∈ s.toList, (!isDigit c) = true) (some : s.toList ≠ [])
    (inputs : n.inputs = numbered s count) : n.reads = numbered s count := by
  unfold Node.reads
  rw [inputs]
  refine List.filter_eq_self.mpr fun l mem => ?_
  have plain := noStream (s := l) (by rw [numberedStem letters count l mem]; exact some)
  simp [plain]

end Montage
