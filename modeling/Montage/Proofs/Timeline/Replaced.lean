import Montage.Timeline.Edit
import Mathlib.Data.List.Perm.Basic
import Mathlib.Data.List.Nodup

/-! Lists of records in which one is appended or the first of some key is replaced. -/
namespace Montage
variable {p : α → Bool} {new : α} {xs ys : List α}

theorem forallAppendOne {P : α → Prop} (old : ∀ x ∈ xs, P x)
    (last : P new) : ∀ x ∈ xs ++ [new], P x := by
  intro x mem
  rcases List.mem_append.mp mem with here | there
  · exact old x here
  · exact List.mem_singleton.mp there ▸ last

theorem forallReplaceFirst {P : α → Prop}
    (old : ∀ x ∈ xs, P x) (here : P new) : ∀ x ∈ replaceFirst p new xs, P x := by
  induction xs with
  | nil => exact old
  | cons y ys ih =>
    obtain ⟨first,rest⟩ := List.forall_mem_cons.mp old
    unfold replaceFirst
    split
    · exact List.forall_mem_cons.mpr ⟨here,rest⟩
    · exact List.forall_mem_cons.mpr ⟨first,ih rest⟩

theorem keysReplaceFirst {key : α → β}
    (same : ∀ x ∈ xs, p x = true → key x = key new) :
    (replaceFirst p new xs).map key = xs.map key := by
  induction xs with
  | nil => rfl
  | cons x xs ih =>
    unfold replaceFirst
    split
    · rename_i here
      simp [same x List.mem_cons_self here]
    · simp [ih fun y mem => same y (List.mem_cons_of_mem _ mem)]

theorem replacedPerm (some : ∃ x ∈ xs, p x = true) :
    (replaceFirst p new xs).Perm (new :: xs.eraseP p) := by
  induction xs with
  | nil => simp at some
  | cons x xs ih =>
    unfold replaceFirst
    split
    · rename_i here
      rw [List.eraseP_cons_of_pos here]
    · rename_i other
      rw [List.eraseP_cons_of_neg other]
      obtain ⟨y,mem,here⟩ := some
      rcases List.mem_cons.mp mem with rfl | later
      · exact absurd here other
      · exact ((ih ⟨y,later,here⟩).cons x).trans (.swap new x _)

theorem memReplaceFirst (some : ∃ x ∈ xs, p x = true) : new ∈ replaceFirst p new xs :=
  (replacedPerm some).mem_iff.mpr List.mem_cons_self

theorem erasedKeys (key : α → String) (id : String) (xs : List α) :
    (xs.eraseP (key · == id)).map key = (xs.map key).erase id := by
  rw [List.erase_eq_eraseP',List.eraseP_map]
  rfl

theorem nodupReplaced {key : α → String} {id : String} (unique : (xs.map key).Nodup)
    (present : ∃ x ∈ xs, key x = id) :
    ((replaceFirst (key · == id) new xs).map key).Nodup ↔ key new = id ∨ key new ∉ xs.map key := by
  have perm : ((replaceFirst (key · == id) new xs).map key).Perm (key new :: (xs.map key).erase id) := by
    rw [← erasedKeys,← List.map_cons]
    exact (replacedPerm (by simpa using present)).map key
  rw [perm.nodup_iff,List.nodup_cons,unique.mem_erase_iff]
  constructor
  · rintro ⟨fresh,_⟩
    by_cases same : key new = id
    · exact .inl same
    · exact .inr fun taken => fresh ⟨same,taken⟩
  · rintro free
    refine ⟨?_,unique.erase id⟩
    rintro ⟨other,taken⟩
    exact free.elim other (· taken)

theorem nodupAppended {key : α → β} (unique : (xs.map key).Nodup) (fresh : key new ∉ xs.map key) :
    ((xs ++ [new]).map key).Nodup := by
  rw [List.map_append,List.nodup_append]
  refine ⟨unique,by simp,?_⟩
  rintro i mem j last rfl
  simp only [List.map_cons,List.map_nil,List.mem_singleton] at last
  exact fresh (last ▸ mem)

theorem memBetween {x y : α} : y ∈ xs ++ x :: ys ↔ y = x ∨ y ∈ xs ++ ys := by
  rw [List.perm_middle.mem_iff,List.mem_cons]

theorem replacedBetween {old : α} (apart : ∀ x ∈ xs, p x = false) (here : p old = true) :
    replaceFirst p new (xs ++ old :: ys) = xs ++ new :: ys := by
  induction xs with
  | nil => simp [replaceFirst,here]
  | cons x xs ih =>
    obtain ⟨first,rest⟩ := List.forall_mem_cons.mp apart
    simp [replaceFirst,first,ih rest]

end Montage
