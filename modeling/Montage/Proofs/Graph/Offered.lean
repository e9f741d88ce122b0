import Montage.Proofs.Graph.Flow

/-! Nodes offered to a graph one after the other, with labels of any kind. The refused ones leave no
trace. Between the others every label goes one way, from the node that makes it to a later one that
reads it, and no two nodes read the same. Within one node's inputs a label may be listed twice: the
check looks at the nodes before it, and so a label is read twice just where a node does that. -/
namespace Montage.Graph

/-- Adding as it goes on: the graph as it is when a check fails is the graph that stays. -/
def offer (n : Node) : ExceptT Fault (StateM Graph) Node := do
  let g ← get
  if n.filters.isEmpty then throw (.miswired (.noFilters n.kind))
  liftM (g.checkInputs n.kind n.inputs)
  liftM (g.checkOutputs n.outputs n.outputs)
  set (⟨g.nodes ++ [n]⟩ : Graph)
  return n

/-- What becomes of the offer, and the graph afterwards. -/
def offered (g : Graph) (n : Node) : Except Fault Node × Graph := (offer n).run.run g

/-- The graph after some offers, whatever became of each. -/
def offerAll (g : Graph) : List Node → Graph
  | [] => g
  | n :: ns => (g.offered n).2.offerAll ns

variable {g g' : Graph} {n : Node} {l : String}

theorem offeredEq (g : Graph) (n : Node) : g.offered n = match g.add n with
    | .error f => (.error f,g)
    | .ok g' => (.ok n,g') := by
  have checks : g.offered n = ExceptT.run (do
      if n.filters.isEmpty then throw (.miswired (.noFilters n.kind))
      liftM (g.checkInputs n.kind n.inputs)
      liftM (g.checkOutputs n.outputs n.outputs)
      set (⟨g.nodes ++ [n]⟩ : Graph)
      return n : ExceptT Fault (StateM Graph) Node) g := rfl
  rw [checks,add]
  by_cases bare : n.filters.isEmpty = true
  · rw [if_pos bare,if_pos bare]
    rfl
  rw [if_neg bare,if_neg bare]
  cases g.checkInputs n.kind n.inputs with
  | error f => rfl
  | ok u =>
    cases g.checkOutputs n.outputs n.outputs with
    | error f => rfl
    | ok u => rfl

/-- The graphs that offers lead to. -/
inductive Grown : Graph → Prop where
  | empty : Grown {}
  | added {g g' : Graph} {n : Node} (grown : Grown g) (ok : g.add n = .ok g') : Grown g'

theorem offeredGrown (grown : g.Grown) (n : Node) : (g.offered n).2.Grown := by
  rw [offeredEq]
  cases ok : g.add n with
  | error f => exact grown
  | ok g' => exact .added grown ok

theorem offerAllGrown (grown : g.Grown) (ns : List Node) : (g.offerAll ns).Grown := by
  induction ns generalizing g with
  | nil => exact grown
  | cons n ns ih => exact ih (offeredGrown grown n)

theorem producedAdd (g : Graph) (n : Node) :
    (⟨g.nodes ++ [n]⟩ : Graph).produced = g.produced ++ n.outputs := by
  simp [producedAppend]

theorem consumedAdd (g : Graph) (n : Node) :
    (⟨g.nodes ++ [n]⟩ : Graph).consumed = g.consumed ++ n.reads := by
  simp [consumedAppend]

theorem mayRead : n.reads ⊆ g.unconsumed ↔ ∀ l ∈ n.reads, l ∈ g.produced ∧ l ∉ g.consumed :=
  forall₂_congr fun _ _ => memUnconsumed

namespace Grown

theorem read (grown : g.Grown) : g.consumed ⊆ g.produced := by
  induction grown with
  | empty => exact List.nil_subset _
  | @added g g' n grown ok ih =>
    obtain ⟨rfl,_,reads,_⟩ := addOk.mp ok
    rw [consumedAdd,producedAdd]
    exact List.append_subset.mpr ⟨List.subset_append_of_subset_left _ ih,
      fun l mem => List.mem_append_left _ (reads l mem).1⟩

theorem distinct (grown : g.Grown) : g.produced.Nodup := by
  induction grown with
  | empty => exact List.nodup_nil
  | @added g g' n grown ok ih =>
    obtain ⟨rfl,_,_,fresh,once⟩ := addOk.mp ok
    rw [producedAdd]
    exact List.nodup_append'.mpr ⟨ih,once,fun l old new => (fresh l new).2 old⟩

theorem plain (grown : g.Grown) : ∀ l ∈ g.produced, isStream l = false := by
  induction grown with
  | empty => simp [produced]
  | @added g g' n grown ok ih =>
    obtain ⟨rfl,_,_,fresh,_⟩ := addOk.mp ok
    rw [producedAdd]
    exact List.forall_mem_append.mpr ⟨ih,fun l mem => (fresh l mem).1⟩

theorem earlier (grown : g.Grown) {before after : List Node} (split : g.nodes = before ++ n :: after) :
    n.reads ⊆ before.flatMap Node.outputs := by
  induction grown generalizing after with
  | empty => simp at split
  | @added g g' m grown ok ih =>
    obtain ⟨rfl,_,reads,_⟩ := addOk.mp ok
    rcases List.eq_nil_or_concat after with rfl | ⟨after,last,rfl⟩
    · obtain ⟨rfl,same⟩ := List.append_inj' split rfl
      cases same
      exact fun l mem => (reads l mem).1
    · rw [List.concat_eq_append,← List.cons_append,← List.append_assoc] at split
      exact ih (List.append_inj' split rfl).1

/-- What a node reads was unread until then. -/
theorem apart (grown : g.Grown) : g.nodes.Pairwise fun m n => m.reads.Disjoint n.reads := by
  induction grown with
  | empty => exact .nil
  | @added g g' n grown ok ih =>
    obtain ⟨rfl,_,reads,_⟩ := addOk.mp ok
    refine List.pairwise_append.mpr ⟨ih,List.pairwise_singleton _ _,?_⟩
    intro m mem k last l here there
    cases List.mem_singleton.mp last
    exact (reads l there).2 (List.mem_flatMap.mpr ⟨m,mem,here⟩)

theorem countConsumed (grown : g.Grown) (l : String) :
    g.consumed.count l ≤ 1 ↔ ∀ n ∈ g.nodes, n.reads.count l ≤ 1 := by
  induction grown with
  | empty => simp [consumed]
  | @added g g' n grown ok ih =>
    obtain ⟨rfl,_,reads,_⟩ := addOk.mp ok
    rw [consumedAdd,List.count_append]
    simp only [List.forall_mem_append,List.forall_mem_singleton,← ih]
    by_cases read : l ∈ n.reads
    · have unread := List.count_eq_zero_of_not_mem (reads l read).2
      omega
    · have other := List.count_eq_zero_of_not_mem read
      omega

end Grown

theorem countSlots (g : Graph) (plain : isStream l = false) :
    (g.nodes.flatMap Node.inputs).count l = g.consumed.count l := by
  have all : g.consumed = (g.nodes.flatMap Node.inputs).filter (!isStream ·) := by
    rw [List.filter_flatMap]
    rfl
  rw [all,List.count_filter (by simp [plain])]

theorem countReads (n : Node) (plain : isStream l = false) :
    n.inputs.count l = n.reads.count l := by
  rw [Node.reads,List.count_filter (by simp [plain])]

/-- The discipline of labels. -/
structure Wired (g : Graph) : Prop where
  distinct : g.produced.Nodup
  plain : ∀ l ∈ g.produced, isStream l = false
  earlier : ∀ before n after, g.nodes = before ++ n :: after →
    n.reads ⊆ before.flatMap Node.outputs
  apart : g.nodes.Pairwise fun m n => m.reads.Disjoint n.reads

/-- What an offer to this graph comes to. -/
structure Takes (g : Graph) (n : Node) : Prop where
  accepted : (∃ m, (g.offered n).1 = .ok m) ↔ n.filters ≠ [] ∧ n.reads ⊆ g.unconsumed ∧
    n.outputs.Nodup ∧ ∀ l ∈ n.outputs, l ∉ g.produced ∧ isStream l = false
  refused : ∀ f, (g.offered n).1 = .error f → (g.offered n).2 = g
  stored : ∀ m, (g.offered n).1 = .ok m → m = n ∧ (g.offered n).2.nodes = g.nodes ++ [n]
  unread : ∀ m, (g.offered n).1 = .ok m →
    (g.offered n).2.unconsumed = g.unconsumed.filter (!n.reads.contains ·) ++ n.outputs

theorem Grown.wired (grown : g.Grown) : g.Wired :=
  ⟨grown.distinct,grown.plain,fun _ _ _ => grown.earlier,grown.apart⟩

theorem addIff : (∃ g', g.add n = .ok g') ↔ n.filters ≠ [] ∧ n.reads ⊆ g.unconsumed ∧
    n.outputs.Nodup ∧ ∀ l ∈ n.outputs, l ∉ g.produced ∧ isStream l = false := by
  rw [mayRead]
  constructor
  · rintro ⟨g',ok⟩
    obtain ⟨_,filters,reads,fresh,once⟩ := addOk.mp ok
    exact ⟨filters,reads,once,fun l mem => (fresh l mem).symm⟩
  · rintro ⟨filters,reads,once,fresh⟩
    exact ⟨_,addOk.mpr ⟨rfl,filters,reads,fun l mem => (fresh l mem).symm,once⟩⟩

theorem Grown.takes (grown : g.Grown) (n : Node) : g.Takes n := by
  cases ok : g.add n with
  | error f =>
    have answer : g.offered n = (.error f,g) := by rw [offeredEq,ok]
    refine ⟨?_,?_,?_,?_⟩
    · rw [← addIff,ok,answer]
      simp
    · simp [answer]
    · simp [answer]
    · simp [answer]
  | ok g' =>
    have answer : g.offered n = (.ok n,g') := by rw [offeredEq,ok]
    obtain ⟨rfl,_,reads,fresh,_⟩ := addOk.mp ok
    refine ⟨?_,?_,?_,?_⟩
    · rw [← addIff,ok,answer]
      simp
    · simp [answer]
    · simp [answer]
    · intro m _
      rw [answer]
      exact unconsumedAdd grown.read (mayRead.mpr reads) fun l mem => (fresh l mem).2

theorem offerAllWired (ns : List Node) : (({} : Graph).offerAll ns).Wired ∧
    ∀ n, (({} : Graph).offerAll ns).Takes n := by
  have grown := offerAllGrown .empty ns
  exact ⟨grown.wired,grown.takes⟩

def slots (g : Graph) : List String := g.nodes.flatMap Node.inputs

/-- Every node that was accepted reads the label once at most, then so does the graph. -/
theorem slotsOnce (ns : List Node) (plain : isStream l = false) :
    (({} : Graph).offerAll ns).slots.count l ≤ 1 ↔
      ∀ n ∈ (({} : Graph).offerAll ns).nodes, n.inputs.count l ≤ 1 := by
  rw [slots,countSlots _ plain,(offerAllGrown .empty ns).countConsumed l]
  simp only [countReads _ plain]

def stitching : List Node :=
  [⟨"normalize",["0:v"],[⟨"null",[]⟩],["v0"]⟩,
   ⟨"normalize",["0:v"],[⟨"null",[]⟩],["v1"]⟩,
   ⟨"concat",["v0","v1"],[⟨"concat",["n=2"]⟩],["outv"]⟩,
   ⟨"text",["v0"],[⟨"null",[]⟩],["txt0"]⟩,
   ⟨"text",["outv"],[⟨"null",[]⟩],["txt0"]⟩]

/-- The fourth node is refused, as the third has read its label. -/
theorem stitchingOnce : isStream "v0" = false ∧
    (({} : Graph).offerAll stitching).nodes.length = 4 ∧
    (({} : Graph).offerAll stitching).slots.count "v0" ≤ 1 :=
  ⟨by decide,by decide +kernel,(slotsOnce stitching (by decide)).mpr (by decide +kernel)⟩

/-- One node takes a label twice, and nothing is refused. -/
theorem doublingTwice : ¬ ∀ (ns : List Node) (l : String), isStream l = false →
    (({} : Graph).offerAll ns).slots.count l ≤ 1 := by
  intro once
  have twice := once [⟨"normalize",["0:v"],[⟨"null",[]⟩],["v0"]⟩,
    ⟨"concat",["v0","v0"],[⟨"concat",["n=2"]⟩],["outv"]⟩] "v0" (by decide)
  revert twice
  decide +kernel

end Montage.Graph
