import Montage.Proofs.Double.Scale
import Montage.Proofs.Manifest.Entry
import Montage.Proofs.Project.Orderly

/-! Shapes of values. Numbers, lists and entries are read under expectations of their own: that a
number is near to a double, that a list can be gone through, that an entry can be searched. -/
namespace Montage

namespace Value

/-- No whole number beyond all doubles. -/
def Fits (v : Value) : Prop := ∀ n, v = .whole n → (Float.ofInt n).isFinite = true

/-- No number without a whole part. -/
structure Countable (v : Value) : Prop where
  fits : v.Fits
  finite : ∀ x, v = .real x → x.isFinite = true

def Composite (v : Value) : Prop := (∃ vs, v = .list vs) ∨ ∃ es, v = .mapping es

end Value

theorem toFloatWhole {n : Int} (finite : (Float.ofInt n).isFinite = true) :
    (Amount.whole n).toFloat? = some (Float.ofInt n) := if_pos finite

namespace Entry

theorem numberWhole (place field : String) (n : Int) : number place field (.whole n) =
    if (Float.ofInt n).isFinite = true then .ok (Float.ofInt n) else .error .tooLarge := by
  unfold number
  dsimp only
  by_cases finite : (Float.ofInt n).isFinite = true
  · rw [toFloatWhole finite,if_pos finite]
  · rw [show (Amount.whole n).toFloat? = none from if_neg finite,if_neg finite]

theorem numberExpects (place field : String) (v : Value) : Expects v.Fits (number place field v) := by
  cases v with
  | scalar s =>
    cases s with
    | whole n =>
      rw [numberWhole]
      by_cases finite : (Float.ofInt n).isFinite = true
      · rw [if_pos finite]
        exact ⟨fun _ => orderlyOk _,fun _ _ m same => by cases same; exact finite⟩
      · rw [if_neg finite]
        exact .never (fun _ => nofun) fun fits => absurd (fits n rfl) finite
    | real x => exact ⟨fun _ => orderlyOk _,fun _ _ => nofun⟩
    | _ => exact expectsRejected _ _
  | _ => exact expectsRejected _ _

theorem numberFinite {place field : String} {v : Value} {x : Float}
    (ok : number place field v = .ok x) : x.isFinite = true ↔ v.Countable := by
  have fits := (numberExpects place field v).held x ok
  refine ⟨fun finite => ⟨fits,fun y same => ?_⟩,fun count => ?_⟩
  · subst same
    exact Except.ok.inj ok ▸ finite
  · cases v with
    | scalar s =>
      cases s with
      | whole n =>
        rw [numberWhole,if_pos (fits n rfl)] at ok
        exact Except.ok.inj ok ▸ fits n rfl
      | real y => exact Except.ok.inj ok ▸ count.finite y rfl
      | _ => cases ok
    | _ => cases ok

theorem wholeExpects (x : Float) : Expects (x.isFinite = true) (whole? (wholeTowardZero x)) := by
  have total := wholeIff (fun negative n d => (Exact.signed negative n).tdiv d) x
  refine ⟨fun finite => ?_,fun n ok => total.mp ⟨n,wholeOk.mp ok⟩⟩
  obtain ⟨n,whole⟩ := total.mpr finite
  rw [wholeTowardZero,whole]
  exact orderlyOk _

/-- A number that is cut to its whole part. -/
theorem countedExpects {α : Type} {T : Prop} {place field : String} {v : Value}
    {k : Int → Except Fault α} (rest : ∀ n, Expects T (k n)) :
    Expects (v.Countable ∧ T) (number place field v >>= fun x =>
      whole? (wholeTowardZero x) >>= k) := by
  have counted (x : Float) (ok : number place field v = .ok x) :
      Expects (v.Countable ∧ T) (whole? (wholeTowardZero x) >>= k) :=
    ((wholeExpects x).bind fun n _ => rest n).iff (and_congr_left fun _ => numberFinite ok)
  refine ((numberExpects place field v).bind counted).iff (and_iff_right_of_imp ?_)
  exact fun both => both.1.fits

/-- An item that has a first part to be a key and a second part to stand under it. -/
def Keyed (v : Value) : Prop := ∃ k x, partsOf? v = some [.scalar k,x]

/-- Something that can be gone through, each of its items of one shape. -/
def ListOf (shape : Value → Prop) (v : Option Value) : Prop :=
  ∃ vs, items v = .ok vs ∧ ∀ item ∈ vs, shape item

theorem itemsExpects {α : Type} {T : Prop} {shape : Value → Prop} {v : Option Value}
    {k : List Value → Except Fault α}
    (rest : ∀ vs, Expects ((∀ item ∈ vs, shape item) ∧ T) (k vs)) :
    Expects (ListOf shape v ∧ T) (items v >>= k) := by
  cases made : items v with
  | error f =>
    refine .never (fun _ => nofun) fun ⟨⟨vs,listed,_⟩,_⟩ => ?_
    rw [made] at listed
    cases listed
  | ok vs =>
    refine (rest vs).iff (and_congr_left fun _ => ?_)
    refine ⟨fun each => ⟨vs,made,each⟩,fun ⟨ws,listed,each⟩ => ?_⟩
    cases made.symm.trans listed
    exact each

theorem pairExpects (i : Nat) (v : Value) : Expects (Keyed v) (pair i v) := by
  unfold pair
  split
  · rename_i none
    refine .never (fun _ => nofun) fun ⟨_,_,parts⟩ => ?_
    rw [none] at parts
    cases parts
  · rename_i k x parts
    exact ⟨fun _ => orderlyOk _,fun _ _ => ⟨k,x,parts⟩⟩
  · rename_i apart parts
    refine .never (fun _ => nofun) fun ⟨k,x,keyed⟩ => ?_
    cases parts.symm.trans keyed
    exact (apart k rfl).elim
  · rename_i keyless _ some
    refine .never (fun _ => nofun) fun ⟨k,x,keyed⟩ => ?_
    exact (keyless k x (Option.some.inj (some.symm.trans keyed))).elim

theorem pairsExpects (vs : List Value) (i : Nat) (es : List (Scalar × Value)) :
    Expects (∀ v ∈ vs, Keyed v) (pairs i es vs) := by
  induction vs generalizing i es with
  | nil => exact (orderlyOk es).expects.iff (by simp)
  | cons v vs ih =>
    refine ((pairExpects i v).bind fun ⟨k,x⟩ _ => ih (i + 1) (putEntry es k x)).iff ?_
    exact List.forall_mem_cons.symm

theorem entriesExpects (v : Option Value) :
    Expects ((∃ es, v = some (.mapping es)) ∨ ListOf Keyed v) (entries v) := by
  unfold entries
  split
  · exact ⟨fun _ => orderlyOk _,fun _ _ => .inl ⟨_,rfl⟩⟩
  · rename_i unmapped
    have listed : Expects (ListOf Keyed v ∧ True) (items v >>= pairs 0 []) :=
      itemsExpects fun vs => (pairsExpects vs 0 []).iff (and_iff_left trivial).symm
    refine listed.iff ?_
    rw [and_true,or_iff_right]
    exact fun ⟨es,same⟩ => unmapped es same

section
variable {v : Value} (unmapped : ∀ es, v ≠ .mapping es)
include unmapped

theorem underOther (key : String) (a : Value) : under key v ≠ .ok a := by
  cases v with
  | mapping es => exact absurd rfl (unmapped es)
  | _ => nofun

theorem getOther (key : String) (a : Option Value) : get? key v ≠ .ok a := by
  cases v with
  | mapping es => exact absurd rfl (unmapped es)
  | _ => nofun

theorem firstOther {keys : List String} {a : Option Value} (ok : first keys v = .ok a) : a = none := by
  induction keys with
  | nil => exact (Except.ok.inj ok).symm
  | cons key keys ih =>
    obtain ⟨found,_,ok⟩ := bindOk ok
    split at ok
    · obtain ⟨w,read,_⟩ := bindOk ok
      exact absurd read (underOther unmapped key w)
    · exact ih ok

end

/-- An entry in which an id can be looked for, and which is a mapping if it has one. -/
structure Identified (shape : List (Scalar × Value) → Prop) (v : Value) : Prop where
  searched : ∃ found, has "id" v = .ok found
  mapping : has "id" v = .ok true → ∃ es, v = .mapping es ∧ shape es

theorem identifiedExpects {α : Type} {shape : List (Scalar × Value) → Prop} {v : Value}
    {cause : Rejection} {k : PUnit → Except Fault α}
    (mapped : ∀ es, v = .mapping es → Expects (shape es) (k ⟨⟩))
    (other : (∀ es, v ≠ .mapping es) → ∀ a, k ⟨⟩ ≠ .ok a) :
    Expects (Identified shape v) (has "id" v >>= fun found =>
      if (!found) = true then (throw (.rejected cause) : Except Fault PUnit) >>= k else k ⟨⟩) := by
  cases searched : has "id" v with
  | error f =>
    refine .never (fun _ => nofun) fun entry => ?_
    obtain ⟨found,same⟩ := entry.searched
    cases searched.symm.trans same
  | ok found =>
    refine Expects.guard fun some => ?_
    have some : found = true := by simpa using some
    subst some
    -- A list or a text may hold an id as well, but nothing is then found under it.
    by_cases shaped : ∃ es, v = .mapping es
    · obtain ⟨es,rfl⟩ := shaped
      refine (mapped es rfl).iff ⟨fun shaped => ⟨⟨_,searched⟩,fun _ => ⟨es,rfl,shaped⟩⟩,?_⟩
      intro entry
      obtain ⟨_,same,shaped⟩ := entry.mapping searched
      cases same
      exact shaped
    · refine .never (other fun es same => shaped ⟨es,same⟩) fun entry => ?_
      obtain ⟨es,same,_⟩ := entry.mapping searched
      exact absurd ⟨es,same⟩ shaped

theorem itemsProbing {α : Type} {T : Prop} {shape : Value → Prop} {v : Option Value}
    {k : List Value → Probing α}
    (rest : ∀ vs, Probing.Expects ((∀ item ∈ vs, shape item) ∧ T) (k vs)) :
    Probing.Expects (ListOf shape v ∧ T) (liftM (items v) >>= k) := by
  intro log
  have whole : Expects (ListOf shape v ∧ T) (items v >>= fun vs => ((k vs).run log).1) :=
    itemsExpects fun vs => rest vs log
  cases made : items v <;> rw [made] at whole <;> exact whole

theorem identifiedProbing {α : Type} {shape : List (Scalar × Value) → Prop} {v : Value}
    {cause : Rejection} {k : PUnit → Probing α}
    (mapped : ∀ es, v = .mapping es → Probing.Expects (shape es) (k ⟨⟩))
    (other : (∀ es, v ≠ .mapping es) → ∀ log a, ((k ⟨⟩).run log).1 ≠ .ok a) :
    Probing.Expects (Identified shape v) (liftM (has "id" v) >>= fun found =>
      if (!found) = true then (throw (.rejected cause) : Probing PUnit) >>= k else k ⟨⟩) := by
  intro log
  have whole : Expects (Identified shape v) (has "id" v >>= fun found => if (!found) = true then
      (throw (.rejected cause) : Except Fault PUnit) >>= fun u => ((k u).run log).1
    else ((k ⟨⟩).run log).1) :=
    identifiedExpects (fun es same => mapped es same log) fun unmapped => other unmapped log
  cases searched : has "id" v with
  | error f =>
    rw [searched] at whole
    exact whole
  | ok found =>
    rw [searched] at whole
    cases found <;> exact whole

theorem presentIff {shape : Value → Prop} (null : shape .null) {v : Option Value} :
    (∀ w, present v = some w → shape w) ↔ ∀ w, v = some w → shape w := by
  unfold present
  split
  · exact iff_of_true (fun _ => nofun) fun w same => Option.some.inj same ▸ null
  · exact Iff.rfl

theorem nullFits : Value.null.Fits := fun _ => nofun

theorem wholeFits {n : Int} (finite : (Float.ofInt n).isFinite = true) : (Value.whole n).Countable :=
  ⟨fun m same => by cases same; exact finite,fun _ => nofun⟩

theorem givenIff {shape : Value → Prop} {v : Option Value} {default : Value} (usual : shape default) :
    shape (v.getD default) ↔ ∀ given, v = some given → shape given := by
  cases v with
  | none => exact ⟨fun _ _ => nofun,fun _ => usual⟩
  | some given => exact ⟨fun shaped _ same => Option.some.inj same ▸ shaped,fun all => all given rfl⟩

end Entry
end Montage
