import Mathlib.Algebra.GroupWithZero.Nat
import Mathlib.Data.List.Basic
import Montage.Path

/-! Names inside a folder. A name without slashes is one part of a path, and stands at its end; so
two names in one folder never become one path, however the folder is written. Characters other than
slashes and dots are kept. A path that is written down is read back as it was. -/
namespace Montage.Path

/-- One part of a path, as it is written there. -/
structure Plain (name : String) : Prop where
  slashes : '/' ∉ name.toList
  some : name ≠ ""
  apart : name ≠ "."

theorem splitPlain {cs : List Char} (slashes : '/' ∉ cs) (part : List Char) :
    splitSlash cs part = [part.reverse ++ cs] := by
  induction cs generalizing part with
  | nil => rw [splitSlash,List.append_nil]
  | cons c cs ih =>
    obtain ⟨here,later⟩ : '/' ≠ c ∧ '/' ∉ cs := by simpa using slashes
    rw [splitSlash,if_neg here.symm,ih later]
    simp

theorem rootPlain {cs : List Char} (slashes : '/' ∉ cs) : rootOf cs = .none := by
  cases cs with
  | nil => rfl
  | cons c cs =>
    have here : c ≠ '/' := fun same => slashes (same ▸ List.mem_cons_self)
    unfold rootOf
    split <;> simp_all

theorem ofPlain {name : String} (plain : Plain name) : ofText name = ⟨.none,[name]⟩ := by
  have some : name.toList ≠ [] := fun none => plain.some (String.toList_inj.mp none)
  have apart : name.toList ≠ ['.'] := fun same => plain.apart (String.toList_inj.mp same)
  rw [ofText,ofChars,rootPlain plain.slashes,splitPlain plain.slashes]
  simp [some,apart]

theorem childPlain {name : String} (plain : Plain name) (folder : Path) :
    folder.child name = ⟨folder.root,folder.parts ++ [name]⟩ := by
  rw [child,ofPlain plain]
  exact if_pos rfl

theorem childJoined {name : String} (plain : Plain name) (folder : Path) :
    (folder.child name).text =
      folder.root.text ++ "/".intercalate (folder.parts ++ [name]) := by
  rw [childPlain plain,text,if_neg (by simp)]

/-- What comes before a name in a folder does not depend on the name. -/
theorem childText (folder : Path) : ∃ ahead : String, ∀ name, Plain name →
    (folder.child name).text = ahead ++ name := by
  by_cases none : folder.parts = []
  · refine ⟨folder.root.text,fun name plain => ?_⟩
    rw [childJoined plain,none,List.nil_append,String.intercalate_singleton]
  · refine ⟨folder.root.text ++ ("/".intercalate folder.parts ++ "/"),fun name plain => ?_⟩
    rw [childJoined plain,String.intercalate_append_of_ne_nil none (by simp),
      String.intercalate_singleton]
    simp only [String.append_assoc]

theorem childInjective {folder : Path} {a b : String} (plain : Plain a) (plain' : Plain b)
    (same : (folder.child a).text = (folder.child b).text) : a = b := by
  obtain ⟨ahead,written⟩ := childText folder
  rw [written a plain,written b plain'] at same
  exact (String.append_right_inj ahead).mp same

theorem splitLetters {c : Char} (apart : c ≠ '/') (cs part : List Char) :
    (∃ p ∈ splitSlash cs part, c ∈ p) ↔ c ∈ part ∨ c ∈ cs := by
  induction cs generalizing part with
  | nil => simp [splitSlash]
  | cons d cs ih =>
    rw [splitSlash]
    split
    · rename_i slash
      rw [List.exists_mem_cons_iff,ih]
      simp [slash,apart]
    · rw [ih,List.mem_cons,List.mem_cons,or_assoc,or_left_comm]

/-- Reading a path drops slashes and dots, and nothing else. -/
theorem partsLetters {c : Char} (slash : c ≠ '/') (dot : c ≠ '.') (s : String) :
    (∃ p ∈ (ofText s).parts, c ∈ p.toList) ↔ c ∈ s.toList := by
  have kept (p : List Char) (mem : c ∈ p) : p ≠ [] ∧ p ≠ ['.'] := by
    constructor <;> rintro rfl
    · cases mem
    · exact dot (List.mem_singleton.mp mem)
  have split := splitLetters slash s.toList []
  simp only [List.not_mem_nil,false_or] at split
  rw [← split]
  unfold ofText ofChars
  constructor
  · rintro ⟨p,mem,inside⟩
    obtain ⟨q,found,rfl⟩ := List.mem_map.mp mem
    exact ⟨q,List.mem_of_mem_filter found,by simpa using inside⟩
  · rintro ⟨p,mem,inside⟩
    refine ⟨String.ofList p,List.mem_map_of_mem (List.mem_filter.mpr ⟨mem,?_⟩),by simpa using inside⟩
    simpa using kept p inside

theorem splitClean {cs part : List Char} (clean : '/' ∉ part) :
    ∀ p ∈ splitSlash cs part, '/' ∉ p := by
  induction cs generalizing part with
  | nil =>
    intro p mem
    cases List.mem_singleton.mp mem
    simpa using clean
  | cons c cs ih =>
    rw [splitSlash]
    split
    · intro p mem
      rcases List.mem_cons.mp mem with rfl | later
      · simpa using clean
      · exact ih List.not_mem_nil p later
    · rename_i other
      exact ih (by simpa [clean] using Ne.symm other)

/-- Every part of a path is written as one part. -/
def Normal (p : Path) : Prop := ∀ part ∈ p.parts, Plain part

theorem ofTextNormal (s : String) : (ofText s).Normal := by
  intro part mem
  obtain ⟨q,found,rfl⟩ := List.mem_map.mp mem
  obtain ⟨split,kept⟩ := List.mem_filter.mp found
  obtain ⟨some,apart⟩ : q ≠ [] ∧ q ≠ ['.'] := by simpa using kept
  refine ⟨?_,fun none => some ?_,fun same => apart ?_⟩
  · rw [String.toList_ofList]
    exact splitClean List.not_mem_nil q split
  · rw [← String.toList_ofList (l := q),none]
    rfl
  · rw [← String.toList_ofList (l := q),same]
    rfl

theorem splitAhead {cs : List Char} (slashes : '/' ∉ cs) (ds part : List Char) :
    splitSlash (cs ++ '/' :: ds) part = (part.reverse ++ cs) :: splitSlash ds [] := by
  induction cs generalizing part with
  | nil => rw [List.nil_append,splitSlash,if_pos rfl,List.append_nil]
  | cons c cs ih =>
    obtain ⟨here,later⟩ : '/' ≠ c ∧ '/' ∉ cs := by simpa using slashes
    rw [List.cons_append,splitSlash,if_neg here.symm,ih later]
    simp

theorem splitJoined {parts : List String} (some : parts ≠ []) (plain : ∀ p ∈ parts, Plain p) :
    splitSlash ("/".intercalate parts).toList [] = parts.map String.toList := by
  induction parts with
  | nil => exact absurd rfl some
  | cons p parts ih =>
    obtain ⟨here,later⟩ := List.forall_mem_cons.mp plain
    cases parts with
    | nil => rw [String.intercalate_singleton,splitPlain here.slashes]; rfl
    | cons q parts =>
      rw [String.intercalate_cons_cons,String.toList_append,String.toList_append,
        List.append_assoc]
      change splitSlash (p.toList ++ '/' :: _) [] = _
      rw [splitAhead here.slashes]
      exact congrArg (p.toList :: ·) (ih (List.cons_ne_nil _ _) later)

theorem splitRooted (root : Root) (cs : List Char) :
    (splitSlash (root.text.toList ++ cs) []).filter (fun p => p ≠ [] ∧ p ≠ ['.']) =
      (splitSlash cs []).filter fun p => p ≠ [] ∧ p ≠ ['.'] := by
  cases root <;> rfl

theorem rootOther {c : Char} (other : c ≠ '/') (root : Root) (cs : List Char) :
    rootOf (root.text.toList ++ c :: cs) = root := by
  cases root with
  | none | single | double => simp [Root.text,rootOf,other]

theorem joinedOpens {parts : List String} (some : parts ≠ []) (plain : ∀ p ∈ parts, Plain p) :
    ∃ c cs, ("/".intercalate parts).toList = c :: cs ∧ c ≠ '/' := by
  obtain ⟨p,rest,rfl⟩ := List.exists_cons_of_ne_nil some
  have here := plain p List.mem_cons_self
  obtain ⟨c,cs,letters⟩ := List.exists_cons_of_ne_nil
    fun none => here.some (String.toList_inj.mp none)
  have other : c ≠ '/' := fun same => here.slashes (by rw [letters,same]; exact List.mem_cons_self)
  cases rest with
  | nil => exact ⟨c,cs,by rw [String.intercalate_singleton,letters],other⟩
  | cons q rest =>
    refine ⟨c,cs ++ ("/".toList ++ ("/".intercalate (q :: rest)).toList),?_,other⟩
    rw [String.intercalate_cons_cons,String.toList_append,String.toList_append,letters]
    simp

/-- A path is read back as it was. -/
theorem reread {p : Path} (normal : p.Normal) : ofText p.text = p := by
  obtain ⟨root,parts⟩ := p
  by_cases none : parts = []
  · subst none
    cases root <;> rfl
  · obtain ⟨c,cs,letters,other⟩ := joinedOpens none normal
    rw [text,if_neg fun empty => none empty.2,ofText,String.toList_append,ofChars,splitRooted,
      splitJoined none normal]
    rw [letters,rootOther other]
    refine congrArg (Path.mk root) ?_
    rw [List.filter_eq_self.mpr,List.map_map]
    · simp [Function.comp_def]
    · intro q mem
      obtain ⟨part,stored,rfl⟩ := List.mem_map.mp mem
      have plain := normal part stored
      simpa using ⟨plain.some,fun same => plain.apart (String.toList_inj.mp same)⟩

theorem childNormal {folder : Path} (normal : folder.Normal) {name : String} (plain : Plain name) :
    (folder.child name).Normal := by
  rw [childPlain plain]
  intro part mem
  rcases List.mem_append.mp mem with inside | last
  · exact normal part inside
  · cases List.mem_singleton.mp last
    exact plain

theorem textLetters {p : Path} (normal : p.Normal) {c : Char} (slash : c ≠ '/') (dot : c ≠ '.') :
    c ∈ p.text.toList ↔ ∃ part ∈ p.parts, c ∈ part.toList := by
  rw [← partsLetters slash dot p.text,reread normal]

theorem joinedSize {parts : List String} (some : parts ≠ []) :
    ("/".intercalate parts).utf8ByteSize + 1 = (parts.map fun p => p.utf8ByteSize + 1).sum := by
  induction parts with
  | nil => exact absurd rfl some
  | cons p parts ih =>
    cases parts with
    | nil => simp
    | cons q parts =>
      have slash : "/".utf8ByteSize = 1 := by decide
      rw [String.intercalate_cons_cons,String.utf8ByteSize_append,String.utf8ByteSize_append,slash,
        List.map_cons,List.sum_cons,← ih (List.cons_ne_nil _ _)]
      omega

theorem childSize {name : String} (plain : Plain name) {folder : Path} (some : folder.parts ≠ []) :
    (folder.child name).text.utf8ByteSize =
      folder.text.utf8ByteSize + 1 + name.utf8ByteSize := by
  have slash : "/".utf8ByteSize = 1 := by decide
  rw [childJoined plain,String.intercalate_append_of_ne_nil some (List.cons_ne_nil _ _),
    String.intercalate_singleton,text,if_neg fun empty => some empty.2]
  simp only [String.utf8ByteSize_append,slash]
  omega

/-- The bytes of a relative path: those of its parts, and a slash between any two. -/
theorem textSize {p : Path} (relative : p.root = .none) (some : p.parts ≠ []) :
    p.text.utf8ByteSize + 1 = (p.parts.map fun part => part.utf8ByteSize + 1).sum := by
  rw [text,if_neg fun empty => some empty.2,relative,← joinedSize some]
  rw [Root.text,String.empty_append]

end Montage.Path
