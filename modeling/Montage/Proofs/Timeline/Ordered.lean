import Montage.Proofs.Double.Number
import Montage.Proofs.Sorting.Runs
import Montage.Timeline.Basic

/-! Sorting by a time. Whatever the times are, nothing is lost; where they are numbers, the result
rises and items of equal time stay in the order they came in. There is one such order only, so that
the result does not tell in which order items of different times came in. -/
namespace Montage
open Float.Model

/-- `ys` are the items of `xs` by rising key, with ties in the order of `xs`. -/
structure StableOrder (key : α → Float) (xs ys : List α) : Prop where
  perm : ys.Perm xs
  rising : ys.Pairwise fun x y => key x ≤ key y
  ties : ∀ t : Float, ys.filter (fun x => key x == t) = xs.filter (fun x => key x == t)

variable {key : α → Float} {xs : List α}

theorem orderedByPerm (key : α → Float) (xs : List α) : (orderedBy key xs).Perm xs := by
  unfold orderedBy
  split
  · exact Sorting.byRunsPerm _ xs
  · exact List.mergeSort_perm xs _

def placedBefore (key : α → Float) (x y : α) : Bool := decide (place (key x) ≤ place (key y))

theorem orderedBySorted (numbers : ∀ x ∈ xs, (key x).isNaN = false) :
    orderedBy key xs = xs.mergeSort (placedBefore key) := by
  have none : ¬ (xs.any fun x => (key x).isNaN) = true := by
    intro some
    obtain ⟨x,mem,nan⟩ := List.any_eq_true.mp some
    rw [numbers x mem] at nan
    cases nan
  have agree : ∀ x ∈ xs, ∀ y ∈ xs, mayPrecede key x y = placedBefore key x y := by
    intro x hx y hy
    have order := notLtIff (numbers y hy) (numbers x hx)
    rw [leIff] at order
    unfold mayPrecede placedBefore
    rw [← decide_not]
    refine decide_eq_decide.mpr ?_
    rw [order]
    exact ⟨fun h => h.2.2,fun h => ⟨numbers x hx,numbers y hy,h⟩⟩
  have same := List.map_mergeSort (f := id) (l := xs) (r := mayPrecede key)
    (s := placedBefore key) (fun x hx y hy => agree x hx y hy)
  unfold orderedBy
  rw [if_neg none]
  simpa using same

theorem orderedByStable (numbers : ∀ x ∈ xs, (key x).isNaN = false) :
    StableOrder key xs (orderedBy key xs) := by
  have trans : ∀ x y z : α, placedBefore key x y = true → placedBefore key y z = true →
      placedBefore key x z = true := by
    simp only [placedBefore,decide_eq_true_eq]
    exact fun x y z first second => first.trans second
  have total : ∀ x y : α, (placedBefore key x y || placedBefore key y x) = true := by
    simp only [placedBefore,Bool.or_eq_true,decide_eq_true_eq]
    exact fun x y => le_total _ _
  have perm := orderedByPerm key xs
  have sorted := orderedBySorted numbers
  refine ⟨perm,?_,?_⟩
  · have rising := List.pairwise_mergeSort trans total xs
    rw [← sorted] at rising
    refine rising.imp_of_mem fun {x y} hx hy before => ?_
    exact (leIff _ _).mpr ⟨numbers x (perm.subset hx),numbers y (perm.subset hy),
      by simpa [placedBefore] using before⟩
  · intro t
    have equal : (xs.filter fun x => key x == t).Pairwise fun x y => placedBefore key x y := by
      refine List.pairwise_of_forall_mem_list fun x hx y hy => ?_
      have left := beqPlaces (List.mem_filter.mp hx).2
      have right := beqPlaces (List.mem_filter.mp hy).2
      have order := (leIff _ _).mp (leTrans left.1 right.2)
      simpa [placedBefore] using order.2.2
    have inside := List.sublist_mergeSort trans total equal List.filter_sublist
    rw [← sorted] at inside
    have again := inside.filter fun x => key x == t
    rw [List.filter_filter] at again
    simp only [Bool.and_self] at again
    exact (again.eq_of_length (perm.filter _).length_eq.symm).symm

/-- The first items agree: neither key is above the other, and ties stand in one order. -/
theorem risingSame {ys zs : List α} (numbers : ∀ x ∈ ys, (key x).isNaN = false)
    (numbers' : ∀ x ∈ zs, (key x).isNaN = false) (rising : ys.Pairwise fun x y => key x ≤ key y)
    (rising' : zs.Pairwise fun x y => key x ≤ key y)
    (ties : ∀ t : Float, ys.filter (fun x => key x == t) = zs.filter (fun x => key x == t)) :
    ys = zs := by
  have inside {us vs : List α} {x : α} (number : (key x).isNaN = false) (mem : x ∈ us)
      (same : us.filter (fun y => key y == key x) = vs.filter (fun y => key y == key x)) :
      x ∈ vs := by
    have listed : x ∈ us.filter (fun y => key y == key x) :=
      List.mem_filter.mpr ⟨mem,beqSelf number⟩
    rw [same] at listed
    exact (List.mem_filter.mp listed).1
  induction ys generalizing zs with
  | nil =>
    cases zs with
    | nil => rfl
    | cons z zs =>
      have number := numbers' z List.mem_cons_self
      exact absurd (inside number List.mem_cons_self (ties (key z)).symm) List.not_mem_nil
  | cons y ys ih =>
    have number := numbers y List.mem_cons_self
    have there := inside number List.mem_cons_self (ties (key y))
    cases zs with
    | nil => exact absurd there List.not_mem_nil
    | cons z zs =>
      have number' := numbers' z List.mem_cons_self
      have here := inside number' List.mem_cons_self (ties (key z)).symm
      obtain ⟨least,rest⟩ := List.pairwise_cons.mp rising
      obtain ⟨least',rest'⟩ := List.pairwise_cons.mp rising'
      have below : key y ≤ key z := by
        rcases List.mem_cons.mp here with rfl | later
        · exact leSelf number
        · exact least z later
      have above : key z ≤ key y := by
        rcases List.mem_cons.mp there with rfl | later
        · exact leSelf number
        · exact least' y later
      have first := ties (key y)
      rw [List.filter_cons,List.filter_cons,if_pos (beqSelf number),
        if_pos (beqOfLe above below)] at first
      obtain ⟨rfl,_⟩ := List.cons.inj first
      refine congrArg (y :: ·) (ih (fun x mem => numbers x (List.mem_cons_of_mem _ mem))
        (fun x mem => numbers' x (List.mem_cons_of_mem _ mem)) rest rest' fun t => ?_)
      have tied := ties t
      rw [List.filter_cons,List.filter_cons] at tied
      by_cases same : (key y == t) = true
      · rw [if_pos same,if_pos same] at tied
        exact (List.cons.inj tied).2
      · rwa [if_neg same,if_neg same] at tied

theorem orderedBySame {xs' : List α} (numbers : ∀ x ∈ xs, (key x).isNaN = false)
    (perm : xs'.Perm xs)
    (ties : ∀ t : Float, xs'.filter (fun x => key x == t) = xs.filter (fun x => key x == t)) :
    orderedBy key xs' = orderedBy key xs := by
  have numbers' : ∀ x ∈ xs', (key x).isNaN = false := fun x mem => numbers x (perm.subset mem)
  have first := orderedByStable numbers'
  have second := orderedByStable numbers
  refine risingSame (fun x mem => numbers' x (first.perm.subset mem))
    (fun x mem => numbers x (second.perm.subset mem)) first.rising second.rising fun t => ?_
  rw [first.ties t,second.ties t,ties t]

end Montage
