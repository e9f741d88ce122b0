import Montage.Proofs.Answer
import Montage.World

/-! What programs come to, as far as files and runs of the renderer go. What was printed and which
media were opened does not matter to what comes after. -/
namespace Montage

/-- The files, and the runs so far. -/
def Trace.scene (t : Trace) : Disk × List Run := (t.disk,t.runs)

namespace Program
variable {α β : Type} {x : Program α} {s s' s'' : Disk × List Run}

/-- Wherever the scene is `s`, the program answers `r` and leaves the scene `s'`. -/
def Comes (x : Program α) (s : Disk × List Run) (r : Except Fault α) (s' : Disk × List Run) : Prop :=
  ∀ t : Trace, t.scene = s → ∃ t' : Trace, x.run t = (r,t') ∧ t'.scene = s'

namespace Comes

theorem pure (a : α) (s : Disk × List Run) : Comes (Pure.pure a) s (.ok a) s :=
  fun t scene => ⟨t,rfl,scene⟩

theorem fail (f : Fault) (s : Disk × List Run) : Comes (throw f : Program α) s (.error f) s :=
  fun t scene => ⟨t,rfl,scene⟩

theorem lifted (x : Except Fault α) (s : Disk × List Run) : Comes (liftM x) s x s := by
  intro t scene
  cases x with
  | error f => exact ⟨t,rfl,scene⟩
  | ok a => exact ⟨t,rfl,scene⟩

theorem bind {a : α} {f : α → Program β} {r : Except Fault β} (first : Comes x s (.ok a) s')
    (rest : Comes (f a) s' r s'') : Comes (x >>= f) s r s'' := by
  intro t scene
  obtain ⟨t',ran,scene'⟩ := first t scene
  obtain ⟨t'',last,scene''⟩ := rest t' scene'
  refine ⟨t'',?_,scene''⟩
  change ExceptT.bindCont f (x.run t).1 (x.run t).2 = _
  rw [ran]
  exact last

theorem bindFailed {f : α → Program β} {e : Fault} (first : Comes x s (.error e) s') :
    Comes (x >>= f) s (.error e) s' := by
  intro t scene
  obtain ⟨t',ran,scene'⟩ := first t scene
  refine ⟨t',?_,scene'⟩
  change ExceptT.bindCont f (x.run t).1 (x.run t).2 = _
  rw [ran]
  rfl

theorem discarded {r : Except Fault α} (comes : Comes x s r s') :
    Comes (discard x) s (r.map fun _ => ()) s' := by
  cases r with
  | error e => exact comes.bindFailed
  | ok a => exact comes.bind (pure _ _)

theorem reading {f : Trace → Program α} {r : Except Fault α}
    (rest : ∀ t : Trace, t.scene = s → Comes (f t) s r s') : Comes (get >>= f) s r s' := by
  intro t scene
  exact rest t scene t scene

theorem tell (quiet : Bool) (line : String) (s : Disk × List Run) :
    Comes (Program.tell quiet line) s (.ok ()) s := by
  intro t scene
  cases quiet with
  | true => exact ⟨t,rfl,scene⟩
  | false => exact ⟨_,rfl,scene⟩

theorem modified (change : Trace → Trace) (s s' : Disk × List Run)
    (moved : ∀ t : Trace, t.scene = s → (change t).scene = s') :
    Comes (modify change : Program Unit) s (.ok ()) s' :=
  fun t scene => ⟨change t,rfl,moved t scene⟩

theorem onDisk {change : Disk → Except Fault Disk} {d d' : Disk} (ok : change d = .ok d')
    (runs : List Run) : Comes (Program.onDisk change) (d,runs) (.ok ()) (d',runs) := by
  refine reading fun t scene => ?_
  obtain ⟨rfl,rfl⟩ := Prod.mk.inj scene
  have known : Comes (liftM (change t.disk)) (t.disk,t.runs) (.ok d') (t.disk,t.runs) := by
    rw [ok]
    exact lifted _ _
  refine known.bind (modified _ _ _ fun t' scene => ?_)
  rw [← (Prod.mk.inj scene).2]
  rfl

theorem onDiskFailed {change : Disk → Except Fault Disk} {d : Disk} {f : Fault}
    (bad : change d = .error f) (runs : List Run) :
    Comes (Program.onDisk change) (d,runs) (.error f) (d,runs) := by
  refine reading fun t scene => ?_
  obtain ⟨rfl,rfl⟩ := Prod.mk.inj scene
  refine bindFailed ?_
  rw [bad]
  exact lifted _ _

theorem withFolderRun (folder : Path) (x : Program α) (t : Trace) :
    (Program.withFolder folder x).run t =
      let p := x.run { t with disk := { t.disk with folders := t.disk.folders ++ [folder] } }
      (p.1,{ p.2 with disk := p.2.disk.removeFolder folder }) :=
  rfl

theorem withFolder {folder : Path} {d d' : Disk} {runs runs' : List Run} {r : Except Fault α}
    (body : Comes x ({ d with folders := d.folders ++ [folder] },runs) r (d',runs')) :
    Comes (Program.withFolder folder x) (d,runs) r (d'.removeFolder folder,runs') := by
  intro t scene
  obtain ⟨rfl,rfl⟩ := Prod.mk.inj scene
  obtain ⟨t',ran,scene'⟩ :=
    body { t with disk := { t.disk with folders := t.disk.folders ++ [folder] } } rfl
  obtain ⟨rfl,rfl⟩ := Prod.mk.inj scene'
  refine ⟨{ t' with disk := t'.disk.removeFolder folder },?_,rfl⟩
  rw [withFolderRun,ran]

theorem tryRun (x : Program α) (handle : Fault → Program α) (t : Trace) :
    (tryCatch x handle).run t = match x.run t with
      | (.ok a,t') => (.ok a,t')
      | (.error f,t') => (handle f).run t' := by
  simp only [tryCatch,tryCatchThe,MonadExceptOf.tryCatch,ExceptT.tryCatch,ExceptT.run_mk,
    Bind.bind,StateT.bind]
  rcases ran : x.run t with ⟨f | a,t'⟩
  · rw [show (x : StateM Trace _) t = (.error f,t') from ran]
    rfl
  · rw [show (x : StateM Trace _) t = (.ok a,t') from ran]
    rfl

theorem caught {a : α} {handle : Fault → Program α} (ok : Comes x s (.ok a) s') :
    Comes (tryCatch x handle) s (.ok a) s' := by
  intro t scene
  obtain ⟨t',ran,scene'⟩ := ok t scene
  exact ⟨t',by rw [tryRun,ran],scene'⟩

theorem handled {f : Fault} {handle : Fault → Program α} {r : Except Fault α}
    (bad : Comes x s (.error f) s') (handling : Comes (handle f) s' r s'') :
    Comes (tryCatch x handle) s r s'' := by
  intro t scene
  obtain ⟨t',ran,scene'⟩ := bad t scene
  obtain ⟨t'',last,scene''⟩ := handling t' scene'
  exact ⟨t'',by rw [tryRun,ran]; exact last,scene''⟩

end Comes
end Program
end Montage
