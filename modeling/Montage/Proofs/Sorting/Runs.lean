import Montage.Sorting.Runs
import Mathlib.Data.List.Basic

/-! Sorting by runs loses nothing, whatever the comparison says: cutting, filling up and merging
only move items about. Nothing is claimed about the order in which they come out. -/
namespace Montage.Sorting

variable (lt : α → α → Bool)

namespace Merging

def items (m : Merging α) : List α := m.left ++ m.right ++ m.done

theorem takeLeftItems (n : Nat) (m : Merging α) : (m.takeLeft n).items.Perm m.items := by
  unfold takeLeft items
  calc (m.left.drop n ++ m.right ++ ((m.left.take n).reverse ++ m.done)).Perm
        (m.left.drop n ++ m.right ++ (m.left.take n ++ m.done)) :=
      ((List.reverse_perm _).append_right _).append_left _
    _ |>.Perm (m.left.take n ++ (m.left.drop n ++ m.right) ++ m.done) := by
      rw [← List.append_assoc]
      exact List.perm_append_comm.append_right _
    _ = m.left ++ m.right ++ m.done := by
      rw [← List.append_assoc,List.take_append_drop]

theorem takeRightItems (n : Nat) (m : Merging α) : (m.takeRight n).items.Perm m.items := by
  unfold takeRight items
  simp only [List.append_assoc]
  refine List.Perm.append_left _ ?_
  calc (m.right.drop n ++ ((m.right.take n).reverse ++ m.done)).Perm
        (m.right.drop n ++ (m.right.take n ++ m.done)) :=
      ((List.reverse_perm _).append_right _).append_left _
    _ |>.Perm (m.right.take n ++ m.right.drop n ++ m.done) := by
      rw [← List.append_assoc]
      exact List.perm_append_comm.append_right _
    _ = m.right ++ m.done := by rw [List.take_append_drop]

theorem outcomeItems (front : Bool) (m : Merging α) : (m.outcome front).Perm m.items := by
  unfold outcome items
  split
  · calc (m.done.reverse ++ m.right ++ m.left).Perm (m.left ++ (m.done.reverse ++ m.right)) :=
        List.perm_append_comm
      _ |>.Perm (m.left ++ (m.right ++ m.done)) :=
        (((List.reverse_perm _).append_right _).trans List.perm_append_comm).append_left _
      _ = m.left ++ m.right ++ m.done := by rw [List.append_assoc]
  · exact (((List.reverse_perm _).append (List.reverse_perm _)).trans
      List.perm_append_comm).append_right _

theorem andThenItems (front : Bool) {next : Merging α → Merging α}
    (keeps : ∀ m, (next m).items.Perm m.items) (m : Merging α) :
    (m.andThen front next).items.Perm m.items := by
  unfold andThen
  split
  · exact .refl _
  · exact keeps m

theorem takeSinglyItems (front : Bool) (eager fuel : Nat) (wasLeft : Bool) (count : Nat)
    (m : Merging α) : (takeSingly lt front eager fuel wasLeft count m).items.Perm m.items := by
  induction fuel generalizing wasLeft count m with
  | zero => exact .refl _
  | succ fuel ih =>
    have step : (if m.yieldsLeft lt front then m.takeLeft 1 else m.takeRight 1).items.Perm
        m.items := by
      split
      · exact takeLeftItems 1 m
      · exact takeRightItems 1 m
    unfold takeSingly
    dsimp only
    generalize (if m.yieldsLeft lt front then m.takeLeft 1 else m.takeRight 1) = m' at step ⊢
    generalize (if m.yieldsLeft lt front = wasLeft then count + 1 else 1) = count'
    split
    · exact step
    · exact (ih _ _ _).trans step

theorem takeStretchesItems (front : Bool) (fuel eager : Nat) (m : Merging α) :
    (takeStretches lt front fuel eager m).1.items.Perm m.items := by
  induction fuel generalizing eager m with
  | zero => exact .refl _
  | succ fuel ih =>
    have left (a : Nat) (m : Merging α) :
        ((m.takeLeft a).andThen front (takeRight 1)).items.Perm m.items :=
      (andThenItems front (takeRightItems 1) _).trans (takeLeftItems a m)
    have right (b : Nat) (m : Merging α) :
        ((m.takeRight b).andThen front (takeLeft 1)).items.Perm m.items :=
      (andThenItems front (takeLeftItems 1) _).trans (takeRightItems b m)
    unfold takeStretches
    dsimp only
    split
    · exact left _ m
    · split
      · exact (right _ _).trans (left _ m)
      · split
        · exact (ih _ _).trans ((right _ _).trans (left _ m))
        · exact (right _ _).trans (left _ m)

theorem finishItems (front : Bool) (fuel eager : Nat) (m : Merging α) :
    (finish lt front fuel eager m).1.items.Perm m.items := by
  induction fuel generalizing eager m with
  | zero => exact .refl _
  | succ fuel ih =>
    unfold finish
    dsimp only
    split
    · exact .refl _
    · split
      · exact takeSinglyItems lt front _ _ _ _ m
      · exact (ih _ _).trans ((takeStretchesItems lt front _ _ _).trans
          (takeSinglyItems lt front _ _ _ _ m))

end Merging

theorem mergePerm (eager : Nat) (left right : List α) :
    (merge lt eager left right).1.Perm (left ++ right) := by
  unfold merge
  split
  · rename_i last first rest _
    dsimp only
    split
    · exact .refl _
    split
    · exact .refl _
    generalize before : countFromFront (fun a => !lt first a) left.toArray = i
    generalize behind : countFromBack (fun b => lt b last) (first :: rest).toArray = j
    have start : (if (left.drop i).length ≤ j
        then Merging.takeRight 1 ⟨left.drop i,(first :: rest).take j,[]⟩
        else Merging.takeLeft 1 ⟨(left.drop i).reverse,((first :: rest).take j).reverse,[]⟩
        : Merging α).items.Perm (left.drop i ++ (first :: rest).take j) := by
      split
      · refine (Merging.takeRightItems 1 _).trans ?_
        simp [Merging.items]
      · refine (Merging.takeLeftItems 1 _).trans ?_
        simpa [Merging.items] using (List.reverse_perm _).append (List.reverse_perm _)
    generalize (if (left.drop i).length ≤ j
        then Merging.takeRight 1 ⟨left.drop i,(first :: rest).take j,[]⟩
        else Merging.takeLeft 1 ⟨(left.drop i).reverse,((first :: rest).take j).reverse,[]⟩
        : Merging α) = m at start
    have inner := (Merging.outcomeItems (decide ((left.drop i).length ≤ j)) _).trans
      ((Merging.finishItems lt (decide ((left.drop i).length ≤ j))
        (left.length + (first :: rest).length) eager m).trans start)
    calc (left.take i ++ _ ++ (first :: rest).drop j).Perm
          (left.take i ++ (left.drop i ++ (first :: rest).take j) ++ (first :: rest).drop j) :=
        (inner.append_left _).append_right _
      _ = left.take i ++ left.drop i ++ ((first :: rest).take j ++ (first :: rest).drop j) := by
        simp only [List.append_assoc]
      _ = left ++ first :: rest := by rw [List.take_append_drop,List.take_append_drop]
  · exact .refl _

theorem firstRunPerm (falling : Bool) (x : α) (run ys : List α) :
    ((firstRun lt falling x run ys).1 ++ (firstRun lt falling x run ys).2).Perm
      (x :: run ++ ys) := by
  induction ys generalizing x run with
  | nil =>
    unfold firstRun
    split
    · exact .refl _
    · exact (List.reverse_perm _).append_right _
  | cons y ys ih =>
    unfold firstRun
    split
    · refine (ih y (x :: run)).trans ?_
      exact List.perm_middle.symm
    · dsimp only
      split
      · exact .refl _
      · exact (List.reverse_perm _).append_right _

theorem firstRunLength (falling : Bool) (x : α) (run ys : List α) :
    run.length < (firstRun lt falling x run ys).1.length := by
  induction ys generalizing x run with
  | nil =>
    unfold firstRun
    split <;> simp
  | cons y ys ih =>
    unfold firstRun
    split
    · exact Nat.lt_of_succ_lt (ih y (x :: run))
    · dsimp only
      split <;> simp

theorem insertPerm (run : List α) (item : α) : (insert lt run item).Perm (item :: run) := by
  unfold insert
  dsimp only
  generalize boundary (fun x => !lt item x) run.toArray 0 run.length = i
  calc (run.take i ++ item :: run.drop i).Perm (item :: (run.take i ++ run.drop i)) :=
        List.perm_middle
    _ = item :: run := by rw [List.take_append_drop]

theorem insertAllPerm (run new : List α) : (new.foldl (insert lt) run).Perm (run ++ new) := by
  induction new generalizing run with
  | nil => simp
  | cons x xs ih =>
    calc ((x :: xs).foldl (insert lt) run).Perm (insert lt run x ++ xs) := ih _
      _ |>.Perm (x :: run ++ xs) := (insertPerm lt run x).append_right _
      _ |>.Perm (run ++ x :: xs) := List.perm_middle.symm

theorem nextRunPerm (least : Nat) (xs : List α) :
    ((nextRun lt least xs).1 ++ (nextRun lt least xs).2).Perm xs := by
  unfold nextRun
  split
  · rename_i x y ys
    dsimp only
    have cut := firstRunPerm lt (lt y x) y [x] ys
    generalize (firstRun lt (lt y x) y [x] ys).1 = run at cut ⊢
    generalize (firstRun lt (lt y x) y [x] ys).2 = rest at cut ⊢
    calc ((rest.take (least - run.length)).foldl (insert lt) run ++
          rest.drop (least - run.length)).Perm
          (run ++ rest.take (least - run.length) ++ rest.drop (least - run.length)) :=
        (insertAllPerm lt run _).append_right _
      _ = run ++ rest := by rw [List.append_assoc,List.take_append_drop]
      _ |>.Perm (y :: [x] ++ ys) := cut
      _ |>.Perm (x :: y :: ys) := List.Perm.swap _ _ _
  · simp

theorem nextRunShorter (least : Nat) {xs : List α} (some : xs ≠ []) :
    (nextRun lt least xs).2.length < xs.length := by
  have lengths := (nextRunPerm lt least xs).length_eq
  rw [List.length_append] at lengths
  suffices 0 < (nextRun lt least xs).1.length by omega
  unfold nextRun
  split
  · rename_i x y ys
    dsimp only
    have first := firstRunLength lt (lt y x) y [x] ys
    rw [(insertAllPerm lt _ _).length_eq,List.length_append]
    simp only [List.length_singleton] at first
    omega
  · exact List.length_pos_iff.mpr some

def itemsOf (runs : List (Pending α)) : List α := runs.flatMap Pending.items

theorem joinItems (eager : Nat) (left right : Pending α) :
    (join lt eager left right).1.items.Perm (left.items ++ right.items) :=
  mergePerm lt eager left.items right.items

theorem collapseItems (limit fuel : Nat) (runs : List (Pending α)) (eager : Nat) :
    (itemsOf (collapse lt limit fuel runs eager).1).Perm (itemsOf runs) := by
  fun_induction collapse lt limit fuel runs eager with
  | case1 fuel right left more eager deeper joined eager' made ih =>
    have swapped := (joinItems lt eager left right).trans List.perm_append_comm
    rw [made] at swapped
    refine ih.trans ?_
    simpa [itemsOf] using swapped.append_right (more.flatMap Pending.items)
  | case2 => exact .refl _
  | case3 => exact .refl _

theorem settleItems (n length : Nat) (runs : List (Pending α)) (eager : Nat) :
    (itemsOf (settle lt n length runs eager).1).Perm (itemsOf runs) := by
  unfold settle
  split
  · exact .refl _
  · rename_i last _
    dsimp only
    have kept (limit : Nat) := collapseItems lt limit (last :: ‹List (Pending α)›).length
      (last :: ‹List (Pending α)›) eager
    split
    · rename_i top more eager' made
      have same := kept (depth n (n + 1) (2 * last.start + last.items.length)
        (2 * last.start + last.items.length + last.items.length + length))
      rw [made] at same
      exact same
    · exact kept _

theorem runsItems (n least fuel : Nat) (xs : List α) (pending : List (Pending α)) (eager : Nat)
    (enough : xs.length ≤ fuel) :
    (itemsOf (runs lt n least fuel xs pending eager).1).Perm (xs ++ itemsOf pending) := by
  induction fuel generalizing xs pending eager with
  | zero =>
    have none : xs = [] := List.length_eq_zero_iff.mp (by omega)
    subst none
    exact .refl _
  | succ fuel ih =>
    cases xs with
    | nil => exact .refl _
    | cons x xs =>
      have shorter := nextRunShorter lt least (List.cons_ne_nil x xs)
      have cut := nextRunPerm lt least (x :: xs)
      unfold runs
      dsimp only
      have rest := ih (nextRun lt least (x :: xs)).2
        (⟨(nextRun lt least (x :: xs)).1,n - (x :: xs).length,0⟩ ::
          (settle lt n (nextRun lt least (x :: xs)).1.length pending eager).1)
        (settle lt n (nextRun lt least (x :: xs)).1.length pending eager).2
        (by simp only [List.length_cons] at shorter enough; omega)
      refine rest.trans ?_
      have settled := settleItems lt n (nextRun lt least (x :: xs)).1.length pending eager
      unfold itemsOf at settled ⊢
      rw [List.flatMap_cons,← List.append_assoc]
      exact (List.perm_append_comm.trans cut).append settled

theorem mergeAllItems (fuel : Nat) (runs : List (Pending α)) (eager : Nat) :
    (mergeAll lt fuel runs eager).Perm (itemsOf runs) := by
  fun_induction mergeAll lt fuel runs eager with
  | case1 => exact .refl _
  | case2 => simp [itemsOf]
  | case3 runs => exact (List.reverse_perm _).flatMap_right _
  | case4 fuel right middle eager joined eager' made ih =>
    have swapped := (joinItems lt eager middle right).trans List.perm_append_comm
    rw [made] at swapped
    refine ih.trans ?_
    simpa [itemsOf] using swapped
  | case5 fuel right middle left more eager shorter joined eager' made ih =>
    have swapped := (joinItems lt eager left middle).trans List.perm_append_comm
    rw [made] at swapped
    refine ih.trans ?_
    simpa [itemsOf] using (swapped.append_right (more.flatMap Pending.items)).append_left right.items
  | case6 fuel right middle left more eager shorter joined eager' made ih =>
    have swapped := (joinItems lt eager middle right).trans List.perm_append_comm
    rw [made] at swapped
    refine ih.trans ?_
    simpa [itemsOf] using swapped.append_right (left.items ++ more.flatMap Pending.items)

theorem byRunsPerm (xs : List α) : (byRuns lt xs).Perm xs := by
  unfold byRuns
  dsimp only
  refine (mergeAllItems lt _ _ _).trans ?_
  simpa [itemsOf] using runsItems lt xs.length (leastRun xs.length false) xs.length xs []
    Merging.longStretch (Nat.le_refl _)

end Montage.Sorting
