import Mathlib.Data.List.Basic
import Montage.Graph.Filter

/-! Reading a filter back. A value that was written under a name is found under that name as long
as no name holds an equals sign. Values may hold anything; those that were escaped are themselves
again without the backslashes. -/
namespace Montage

/-- Each backslash is taken off and the character after it kept. -/
def unescape : List Char → List Char
  | '\\' :: c :: cs => c :: unescape cs
  | c :: cs => c :: unescape cs
  | [] => []

def unescaped (s : String) : String := String.ofList (unescape s.toList)

theorem unescapePlain {c : Char} (plain : c ≠ '\\') (cs : List Char) :
    unescape (c :: cs) = c :: unescape cs := by
  rw [unescape]
  exact fun _ _ same _ => plain same

theorem unescapeEscaped (cs : List Char) : unescape (cs.flatMap escapeChar) = cs := by
  induction cs with
  | nil => rfl
  | cons c cs ih =>
    rw [List.flatMap_cons,escapeChar]
    split
    · rw [List.cons_append,List.singleton_append,unescape,ih]
    · rename_i plain
      rw [List.singleton_append,unescapePlain (not_or.mp plain).1,ih]

theorem unescapedEscaped (s : String) : unescaped (escapeValue s) = s := by
  unfold unescaped escapeValue
  rw [String.toList_ofList,unescapeEscaped,String.ofList_toList]

/-- Whether a text, given from its end, ends in a backslash that no other escapes. -/
def escapesNext : List Char → Bool
  | '\\' :: cs => !escapesNext cs
  | _ => false

theorem escapesNextPlain {c : Char} (plain : c ≠ '\\') (cs : List Char) :
    escapesNext (c :: cs) = false := by
  rw [escapesNext]
  exact fun _ same => plain (List.cons.inj same).1

/-- A character that had to be escaped has its own backslash before it. What stands before the text
is given from its end. -/
theorem escapedBefore {cs before after ahead : List Char} {c : Char} (special : c = ':' ∨ c = '\'')
    (clear : escapesNext ahead = false) (place : cs.flatMap escapeChar = before ++ c :: after) :
    escapesNext (before.reverse ++ ahead) = true := by
  induction cs generalizing before ahead with
  | nil => simp at place
  | cons d cs ih =>
    rw [List.flatMap_cons,escapeChar] at place
    split at place
    · cases before with
      | nil =>
        obtain ⟨rfl,_⟩ := List.cons.inj place
        simp at special
      | cons x before =>
        obtain ⟨rfl,behind⟩ := List.cons.inj place
        cases before with
        | nil => simp [escapesNext,clear]
        | cons y before =>
          obtain ⟨rfl,rest⟩ := List.cons.inj behind
          have next : escapesNext (d :: '\\' :: ahead) = false := by
            by_cases slash : d = '\\'
            · simp [slash,escapesNext,clear]
            · exact escapesNextPlain slash _
          have later := ih next rest
          simpa using later
    · rename_i plain
      cases before with
      | nil =>
        obtain ⟨rfl,_⟩ := List.cons.inj place
        tauto
      | cons x before =>
        obtain ⟨rfl,rest⟩ := List.cons.inj place
        have later := ih (escapesNextPlain (not_or.mp plain).1 ahead) rest
        simpa using later

namespace Filter

theorem afterAppend (key rest : List Char) : after? key (key ++ rest) = some rest := by
  induction key with
  | nil => rfl
  | cons k ks ih => rw [List.cons_append,after?,if_pos rfl,ih]

theorem afterNamed {key name : List Char} (value : List Char) (plain : '=' ∉ key) (named : '=' ∉ name) :
    after? (key ++ ['=']) (name ++ '=' :: value) = if name = key then some value else none := by
  induction key generalizing name with
  | nil =>
    cases name with
    | nil => simp [after?]
    | cons c cs =>
      have apart : '=' ≠ c := fun same => named (same ▸ List.mem_cons_self)
      simp [after?,apart]
  | cons k ks ih =>
    have apart : k ≠ '=' := fun same => plain (same ▸ List.mem_cons_self)
    cases name with
    | nil => simp [after?,apart]
    | cons c cs =>
      have rest : after? (ks ++ ['=']) (cs ++ '=' :: value) = if cs = ks then some value else none :=
        ih (fun mem => plain (List.mem_cons_of_mem _ mem))
          fun mem => named (List.mem_cons_of_mem _ mem)
      by_cases same : k = c
      · simp [after?,same,rest]
      · simp [after?,same,Ne.symm same]

theorem valueMake {key name : String} {options : List (String × String)}
    (plain : '=' ∉ key.toList) (names : ∀ x ∈ options, '=' ∉ x.1.toList) :
    (make name [] options).value? key = (options.find? (·.1 == key)).map Prod.snd := by
  unfold value? make
  rw [List.nil_append]
  dsimp only
  induction options with
  | nil => rfl
  | cons x xs ih =>
    have here := afterNamed x.2.toList plain (names x List.mem_cons_self)
    have written : (named x.1 x.2).toList = x.1.toList ++ '=' :: x.2.toList := by
      simp [named]
    rw [List.map_cons,List.findSome?_cons,written,here,List.find?_cons]
    by_cases same : x.1 = key
    · simp [same]
    · have apart : x.1.toList ≠ key.toList := fun equal => same (String.toList_injective equal)
      have other : (x.1 == key) = false := by simpa using same
      rw [if_neg apart,other]
      exact ih fun y mem => names y (List.mem_cons_of_mem _ mem)

end Filter
end Montage
