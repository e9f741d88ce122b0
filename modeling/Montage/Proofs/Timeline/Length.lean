import Montage.Proofs.Double.Whole

/-! The length of a timeline. It is at least five seconds and, where all ends are whole seconds, it
is the last of them or five. It does not depend on the order of the clips. -/
namespace Montage

theorem greatestMem (x : Float) (xs : List Float) : greatest x xs ∈ x :: xs := by
  unfold greatest
  induction xs generalizing x with
  | nil => exact List.mem_cons_self
  | cons y ys ih =>
    rcases List.mem_cons.mp (ih (firstMax x y)) with here | later
    · rw [List.foldl_cons,here]
      unfold firstMax
      split <;> simp
    · exact List.mem_cons_of_mem _ (List.mem_cons_of_mem _ later)

theorem leGreatest {x : Float} {xs : List Float} (numbers : ∀ y ∈ x :: xs, y.isNaN = false) :
    ∀ y ∈ x :: xs, y ≤ greatest x xs := by
  unfold greatest
  induction xs generalizing x with
  | nil => simpa using leSelf (numbers x List.mem_cons_self)
  | cons y ys ih =>
    obtain ⟨hx,numbers⟩ := List.forall_mem_cons.mp numbers
    obtain ⟨hy,rest⟩ := List.forall_mem_cons.mp numbers
    have above := ih (List.forall_mem_cons.mpr ⟨firstMaxNumber hx y,rest⟩)
    have first := above _ List.mem_cons_self
    intro z mem
    rcases List.mem_cons.mp mem with rfl | mem
    · exact leTrans (leFirstMax hx y) first
    rcases List.mem_cons.mp mem with rfl | mem
    · exact leTrans (leFirstMaxRight hx hy) first
    · exact above z (List.mem_cons_of_mem _ mem)

/-- The length is five seconds or the last end, whichever is later. -/
structure Room (ends : List Float) (room : Float) (m : Int) : Prop where
  measured : lengthOf ends = .ok room
  whole : IsWhole room m
  least : 5 ≤ m
  above : ∀ t ∈ ends, t ≤ room
  reached : m = 5 ∨ ∃ t ∈ ends, IsWhole t m

theorem Room.endLe {ends : List Float} {room t : Float} {m n : Int} (measured : Room ends room m)
    (mem : t ∈ ends) (whole : IsWhole t n) : n ≤ m :=
  (whole.le measured.whole).mp (measured.above t mem)

theorem roomExists {ends : List Float} (some : ends ≠ [])
    (whole : ∀ t ∈ ends, ∃ n, IsWhole t n ∧ 0 ≤ n ∧ n < 2 ^ 48) : ∃ room m, Room ends room m := by
  obtain ⟨x,xs,rfl⟩ := List.exists_cons_of_ne_nil some
  have numbers : ∀ t ∈ x :: xs, t.isNaN = false := fun t mem =>
    (whole t mem).choose_spec.1.number
  have last := greatestMem x xs
  have above := leGreatest numbers
  obtain ⟨n,wholeLast,positive,small⟩ := whole _ last
  obtain ⟨y,rounded,wholeY⟩ := roundTenthWhole wholeLast positive small
  have room := fiveWhole.max wholeY
  refine ⟨firstMax 5 y,max 5 n,?_,room,by omega,?_,?_⟩
  · change (roundTenth (greatest x xs) >>= fun last => pure (firstMax 5 last)) = _
    rw [rounded]
    rfl
  · intro t mem
    obtain ⟨k,wholeT,_,_⟩ := whole t mem
    have le := (wholeT.le wholeLast).mp (above t mem)
    exact (wholeT.le room).mpr (by omega)
  · rcases le_total n 5 with less | more
    · exact .inl (by omega)
    · exact .inr ⟨_,last,by rwa [Int.max_eq_right more]⟩

theorem roundTenthSame {x y : Float} (same : (x == y) = true) : roundTenth x = roundTenth y := by
  have zeros : (0 : Float) * 10 + 0.5 = -0 * 10 + 0.5 := by decide
  obtain ⟨_,_,rfl | ⟨rfl,rfl⟩ | ⟨rfl,rfl⟩⟩ := Float.beq_iff_ne_nan_and_eq.mp same
  · rfl
  · rw [roundTenth,roundTenth,zeros]
  · rw [roundTenth,roundTenth,zeros]

/-- The last of the ends is the same up to the sign of a zero, which rounding drops. -/
theorem lengthOfPerm {xs ys : List Float} (numbers : ∀ t ∈ xs, t.isNaN = false)
    (perm : ys.Perm xs) : lengthOf ys = lengthOf xs := by
  have numbers' : ∀ t ∈ ys, t.isNaN = false := fun t mem => numbers t (perm.subset mem)
  cases xs with
  | nil => rw [List.perm_nil.mp perm]
  | cons x xs =>
    cases ys with
    | nil => cases List.nil_perm.mp perm
    | cons y ys =>
      have last : (greatest y ys == greatest x xs) = true :=
        beqOfLe (leGreatest numbers _ (perm.subset (greatestMem y ys)))
          (leGreatest numbers' _ (perm.symm.subset (greatestMem x xs)))
      rw [lengthOf,lengthOf,roundTenthSame last]

end Montage
