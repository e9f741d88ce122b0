import Mathlib.Data.List.Forall2
import Montage.Manifest.Entry

/-! What is found in an entry. A mapping is only ever asked for the first of some keys that it holds,
so two mappings that agree on the keys of a record are read as the same record. -/
namespace Montage

namespace Entry
variable {es es' : List (Scalar × Value)}

def found (es : List (Scalar × Value)) (keys : List String) : Option Value :=
  keys.findSome? (entryAt? es)

theorem foundOne (es : List (Scalar × Value)) (key : String) : found es [key] = entryAt? es key := by
  unfold found
  rw [List.findSome?_cons]
  cases entryAt? es key <;> rfl

theorem foundSame {keys : List String} (agree : ∀ key ∈ keys, entryAt? es' key = entryAt? es key) :
    found es' keys = found es keys := by
  unfold found
  induction keys with
  | nil => rfl
  | cons key keys ih =>
    obtain ⟨here,rest⟩ := List.forall_mem_cons.mp agree
    rw [List.findSome?_cons,List.findSome?_cons,here,ih rest]

theorem sameText (name : String) (k : Scalar) :
    (Scalar.text name).sameKey k = true ↔ k = .text name := by
  cases k with
  | text s =>
    change (name == s) = true ↔ _
    rw [beq_iff_eq,Scalar.text.injEq,eq_comm]
  | _ => exact iff_of_false nofun nofun

/-- What is put under a key is found there, and nothing else is moved. -/
theorem entryPut (es : List (Scalar × Value)) (name : String) (v : Value) (key : String) :
    entryAt? (putEntry es (.text name) v) key =
      if key = name then some v.bare else entryAt? es key := by
  induction es with
  | nil =>
    change (if Scalar.text name = .text key then some v.bare else none) = _
    simp only [Scalar.text.injEq,eq_comm,entryAt?]
  | cons e es ih =>
    obtain ⟨k,w⟩ := e
    unfold putEntry
    by_cases here : k = .text name
    · rw [if_pos ((sameText name k).mpr here),here]
      unfold entryAt?
      simp only [Scalar.text.injEq,eq_comm (a := name)]
      split <;> rfl
    · rw [if_neg (here ∘ (sameText name k).mp)]
      unfold entryAt?
      rw [ih]
      by_cases found : k = .text key
      · rw [if_pos found,if_pos found,if_neg]
        rintro rfl
        exact here found
      · rw [if_neg found,if_neg found]

theorem hasMapping (key : String) (es : List (Scalar × Value)) :
    has key (.mapping es) = .ok (found es [key]).isSome := by
  rw [foundOne]
  rfl

theorem underMapping (key : String) (es : List (Scalar × Value)) :
    under key (.mapping es) = .ok ((found es [key]).getD .null) := by
  rw [foundOne]
  rfl

theorem getMapping (key : String) (es : List (Scalar × Value)) :
    get? key (.mapping es) = .ok (found es [key]) := by
  rw [foundOne]
  rfl

theorem firstMapping (keys : List String) (es : List (Scalar × Value)) :
    first keys (.mapping es) = .ok (found es keys) := by
  induction keys with
  | nil => rfl
  | cons key keys ih =>
    unfold first found
    rw [ih,hasMapping,underMapping,foundOne,List.findSome?_cons]
    cases entryAt? es key <;> rfl

/-- The items of a list, empty or not. -/
theorem itemsList (vs : List Value) : items (some (.list vs)) = .ok (vs.map Value.bare) := by
  cases vs <;> rfl

end Entry
end Montage
