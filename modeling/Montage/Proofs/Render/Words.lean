import Montage.Proofs.Color
import Montage.Proofs.Graph.Reading
import Montage.Proofs.Render.Outline

/-! Words of filters. Numbers and colours need no protection, and expressions that hold commas stand
in quotes; so only paths can bring a separator into a filter, of which escaping lets some through. -/
namespace Montage

theorem digitWord {c : Char} (digit : c.isDigit = true) : c ∉ special := by
  intro mem
  have none : special.all (!·.isDigit) = true := by decide
  have letter := List.all_eq_true.mp none c mem
  rw [digit] at letter
  cases letter

theorem digitsWord (n : Nat) : ∀ c ∈ Nat.toDigits 10 n, c ∉ special :=
  fun _ mem => digitWord (Nat.isDigit_of_mem_toDigits (by decide) (by decide) mem)

theorem naturalWord (n : Nat) : Word (toString n) := by
  intro c mem
  exact digitsWord n c (by simpa using mem)

theorem wholeWord (n : Int) : Word (toString n) := by
  have minus : Word "-" := by decide
  rw [Int.toString_eq_repr,Int.repr_eq_if]
  split
  · exact naturalWord n.toNat
  · exact minus.append (naturalWord (-n).toNat)

namespace Decimal

theorem placedWord (places n : Nat) : ∀ c ∈ placed places n, c ∉ special := by
  have zero : '0' ∉ special := by decide
  have point : '.' ∉ special := by decide
  refine List.forall_mem_append.mpr ⟨digitsWord _,List.forall_mem_cons.mpr ⟨point,?_⟩⟩
  refine List.forall_mem_append.mpr ⟨fun c mem => ?_,digitsWord _⟩
  rwa [List.eq_of_mem_replicate mem]

theorem fixedWord (places : Nat) (x : Float) :
    ∀ c ∈ fixedChars places x, c ∉ special := by
  have sign (negative : Bool) : ∀ c ∈ signMark negative, c ∉ special := by
    cases negative
    · exact (by decide : Word "")
    · exact (by decide : Word "-")
  unfold fixedChars
  split
  · exact (by decide : Word "nan")
  · exact List.forall_mem_append.mpr ⟨sign _,(by decide : Word "inf")⟩
  · exact List.forall_mem_append.mpr ⟨sign _,placedWord _ _⟩

theorem secondsWord (x : Float) : Word (secondsText x) := by
  unfold Word secondsText fixed
  rw [String.toList_ofList]
  exact fixedWord 3 x

theorem dropEndSubset (c : Char) (cs : List Char) : dropEnd c cs ⊆ cs := by
  intro d mem
  have inside := (List.dropWhile_suffix _).subset (List.mem_reverse.mp mem)
  exact List.mem_reverse.mp inside

theorem compactWord (x : Float) : Word (compactText x) := by
  have kept : dropEnd '.' (dropEnd '0' (fixedChars 4 x)) ⊆ fixedChars 4 x :=
    fun _ mem => dropEndSubset _ _ (dropEndSubset _ _ mem)
  unfold compactText
  dsimp only
  split
  · decide
  · unfold Word
    rw [String.toList_ofList]
    exact fun c mem => fixedWord 4 x c (kept mem)

end Decimal

namespace Color

theorem pairWord {n : Nat} (bound : n < 256) : ∀ c ∈ pair n, c ∉ special := by
  have plain : Word "0123456789ABCDEF" := by decide
  exact fun c mem => plain c (pairCapitals bound c mem)

theorem textWord {c : Color} (bounded : c.Bounded) : Word c.text := by
  have front : ∀ d ∈ ['0','x'], d ∉ special := (by decide : Word "0x")
  unfold Word text
  rw [String.toList_ofList]
  have rest := List.forall_mem_append.mpr ⟨List.forall_mem_append.mpr
    ⟨pairWord bounded.red,pairWord bounded.green⟩,pairWord bounded.blue⟩
  exact List.forall_mem_append.mpr ⟨front,rest⟩

end Color

theorem colorWord {s color : String} (ok : filterColor s = .ok color) : Word color := by
  obtain ⟨c,parsed,rfl⟩ := mapOk ok
  exact Color.textWord (Color.parseBounded parsed)

end Montage
