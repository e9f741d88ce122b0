import Montage.Fault
import Mathlib.Data.List.Forall2

/-! Answers taken apart. An answer that is no fault was put together from answers that are none. -/
namespace Montage

theorem bindOk {x : Except ε α} {f : α → Except ε β} {b : β} (h : (x >>= f) = .ok b) :
    ∃ a, x = .ok a ∧ f a = .ok b := by
  cases x with
  | error e => cases h
  | ok a => exact ⟨a,rfl,h⟩

theorem bindTotal {x : Except ε α} {f : α → Except ε β} {a : α} {r : Except ε β}
    (first : x = .ok a) (rest : f a = r) : (x >>= f) = r := by
  rw [first]
  exact rest

theorem bindFailed {x : Except ε α} {f : α → Except ε β} {e : ε} (bad : x = .error e) :
    (x >>= f) = .error e := by
  rw [bad]
  rfl

theorem mapOk {x : Except ε α} {f : α → β} {b : β} (h : x.map f = .ok b) :
    ∃ a, x = .ok a ∧ f a = b := by
  cases x with
  | error e => cases h
  | ok a => exact ⟨a,rfl,Except.ok.inj h⟩

theorem guardOk {p : Prop} [Decidable p] {e : ε} {k : PUnit → Except ε α} {a : α}
    (h : (if p then (throw e : Except ε PUnit) >>= k else k ⟨⟩) = .ok a) : ¬ p ∧ k ⟨⟩ = .ok a := by
  split at h
  · cases h
  · exact ⟨‹_›,h⟩

theorem guardError {p : Prop} [Decidable p] {e e' : ε} {k : PUnit → Except ε α}
    (h : (if p then (throw e : Except ε PUnit) >>= k else k ⟨⟩) = .error e') :
    e = e' ∨ k ⟨⟩ = .error e' := by
  split at h
  · exact .inl (Except.error.inj h)
  · exact .inr h

theorem checkedOk {p : Prop} [Decidable p] {e : ε} {x : Except ε α} {a : α}
    (h : (if p then .error e else x) = .ok a) : ¬ p ∧ x = .ok a := by
  split at h
  · cases h
  · exact ⟨‹_›,h⟩

theorem mapMOk {f : α → Except ε β} {xs : List α} {ys : List β} (h : xs.mapM f = .ok ys) :
    List.Forall₂ (fun x y => f x = .ok y) xs ys := by
  induction xs generalizing ys with
  | nil =>
    cases Except.ok.inj h
    exact .nil
  | cons x xs ih =>
    rw [List.mapM_cons] at h
    obtain ⟨y,here,h⟩ := bindOk h
    obtain ⟨rest,ok,last⟩ := bindOk h
    cases Except.ok.inj last
    exact .cons here (ih ok)

theorem pairedAt {R : α → β → Prop} {xs : List α} {ys : List β} (pairs : List.Forall₂ R xs ys)
    {k : Nat} {y : β} (found : ys[k]? = some y) : ∃ x, xs[k]? = some x ∧ R x y := by
  induction pairs generalizing k with
  | nil => simp at found
  | cons here rest ih =>
    cases k with
    | zero =>
      cases Option.some.inj found
      exact ⟨_,rfl,here⟩
    | succ k => exact ih found

theorem pairedRight {R : α → β → Prop} {xs : List α} {ys : List β} (pairs : List.Forall₂ R xs ys)
    {y : β} (mem : y ∈ ys) : ∃ x ∈ xs, R x y := by
  obtain ⟨k,found⟩ := List.mem_iff_getElem?.mp mem
  obtain ⟨x,at',related⟩ := pairedAt pairs found
  exact ⟨x,List.mem_of_getElem? at',related⟩

theorem pairedLeft {R : α → β → Prop} {xs : List α} {ys : List β} (pairs : List.Forall₂ R xs ys)
    {x : α} (mem : x ∈ xs) : ∃ y ∈ ys, R x y :=
  pairedRight pairs.flip mem

theorem mapMError {f : α → Except ε β} {xs : List α} {e : ε} (h : xs.mapM f = .error e) :
    ∃ x ∈ xs, f x = .error e := by
  induction xs with
  | nil => cases h
  | cons x xs ih =>
    rw [List.mapM_cons] at h
    cases here : f x with
    | error d =>
      rw [here] at h
      cases h
      exact ⟨x,List.mem_cons_self,here⟩
    | ok y =>
      rw [here] at h
      cases rest : xs.mapM f with
      | error d =>
        rw [rest] at h
        cases h
        obtain ⟨z,mem,bad⟩ := ih rest
        exact ⟨z,List.mem_cons_of_mem _ mem,bad⟩
      | ok zs =>
        rw [rest] at h
        cases h

theorem answered {x : Except ε α} (wanted : α → Bool) (ok : x.toOption.any wanted = true) :
    ∃ a, x = .ok a ∧ wanted a = true := by
  cases x with
  | error e => cases ok
  | ok a => exact ⟨a,rfl,ok⟩

theorem answerCases (x : Except ε α) : (∃ a, x = .ok a) ∨ ∃ e, x = .error e := by
  cases x with
  | error e => exact .inr ⟨e,rfl⟩
  | ok a => exact .inl ⟨a,rfl⟩

theorem bindError {x : Except ε α} {f : α → Except ε β} {e : ε} (h : (x >>= f) = .error e) :
    x = .error e ∨ ∃ a, x = .ok a ∧ f a = .error e := by
  cases x with
  | error d => exact .inl (congrArg Except.error (Except.error.inj h))
  | ok a => exact .inr ⟨a,rfl,h⟩

theorem forMIff {xs : List α} {f : α → Except ε PUnit} :
    xs.forM f = .ok ⟨⟩ ↔ ∀ x ∈ xs, f x = .ok ⟨⟩ := by
  induction xs with
  | nil => exact ⟨nofun,fun _ => rfl⟩
  | cons x xs ih =>
    rw [List.forall_mem_cons,← ih]
    change (f x >>= fun _ => xs.forM f) = _ ↔ _
    cases f x with
    | error e => exact ⟨nofun,fun all => nomatch all.1⟩
    | ok u => exact ⟨fun rest => ⟨rfl,rest⟩,And.right⟩

theorem forMFailed {xs : List α} {f : α → Except ε PUnit} {e : ε} (bad : xs.forM f = .error e) :
    ∃ x ∈ xs, f x = .error e := by
  induction xs with
  | nil => cases bad
  | cons x xs ih =>
    rcases bindError (bad : (f x >>= fun _ => xs.forM f) = .error e) with here | ⟨_,_,later⟩
    · exact ⟨x,List.mem_cons_self,here⟩
    · obtain ⟨y,mem,failed⟩ := ih later
      exact ⟨y,List.mem_cons_of_mem x mem,failed⟩

theorem mapError {x : Except ε α} {f : α → β} {e : ε} (h : x.map f = .error e) :
    x = .error e := by
  cases x with
  | error d => exact congrArg Except.error (Except.error.inj h)
  | ok a => cases h

theorem relabelledOk {x : Except ε α} {f : ε → δ} {a : α} :
    x.mapError f = .ok a ↔ x = .ok a := by
  cases x <;> simp [Except.mapError]

theorem wholeOk {r : Except NoWhole Int} {n : Int} : whole? r = .ok n ↔ r = .ok n := relabelledOk

theorem relabelledError {x : Except ε α} {f : ε → δ} {e : δ} (h : x.mapError f = .error e) :
    ∃ d, x = .error d ∧ f d = e := by
  cases x with
  | error d => exact ⟨d,rfl,Except.error.inj h⟩
  | ok a => cases h

/-- Two computations that fail alike or answer with related values. -/
inductive Agree (R : α → β → Prop) : Except ε α → Except ε β → Prop where
  | failed (e : ε) : Agree R (.error e) (.error e)
  | answered {a : α} {b : β} (related : R a b) : Agree R (.ok a) (.ok b)

namespace Agree
variable {R : α → β → Prop} {S : γ → δ → Prop} {x : Except ε α} {y : Except ε β}

theorem same (reflexive : ∀ a, T a a) (x : Except ε α) : Agree T x x := by
  cases x with
  | error e => exact .failed e
  | ok a => exact .answered (reflexive a)

theorem bind {f : α → Except ε γ} {g : β → Except ε δ} (first : Agree R x y)
    (rest : ∀ a b, R a b → Agree S (f a) (g b)) : Agree S (x >>= f) (y >>= g) := by
  cases first with
  | failed e => exact .failed e
  | answered related => exact rest _ _ related

theorem map {f : α → γ} {g : β → δ} (first : Agree R x y) (rest : ∀ a b, R a b → S (f a) (g b)) :
    Agree S (x.map f) (y.map g) := by
  cases first with
  | failed e => exact .failed e
  | answered related => exact .answered (rest _ _ related)

theorem mapM {f : α → Except ε γ} {g : α → Except ε δ} {xs : List α}
    (each : ∀ x ∈ xs, Agree S (f x) (g x)) : Agree (List.Forall₂ S) (xs.mapM f) (xs.mapM g) := by
  induction xs with
  | nil => exact .answered .nil
  | cons x xs ih =>
    obtain ⟨here,later⟩ := List.forall_mem_cons.mp each
    rw [List.mapM_cons,List.mapM_cons]
    exact here.bind fun a b head => (ih later).bind fun as bs tail => .answered (.cons head tail)

theorem fault (agree : Agree R x y) {e : ε} (bad : y = .error e) : x = .error e := by
  cases agree with
  | failed f => exact congrArg Except.error (Except.error.inj bad)
  | answered related => cases bad

theorem outcomes (agree : Agree R x y) : (∃ e, x = .error e ∧ y = .error e) ∨
    ∃ a b, x = .ok a ∧ y = .ok b ∧ R a b := by
  cases agree with
  | failed e => exact .inl ⟨e,rfl,rfl⟩
  | answered related => exact .inr ⟨_,_,rfl,rfl,related⟩

end Agree

end Montage
