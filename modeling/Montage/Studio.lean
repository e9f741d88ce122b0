import Montage.Gesture.Session
import Montage.Render.Plan
/-!
A timeline and the editing session on it, driven by commands. A run is a list of commands taken one
after the other; each answers with a reply or a fault, and a fault does not stop the run.
-/
namespace Montage

inductive Command where
  | addClip (c : Clip)
  | addOverlay (t : Overlay)
  | addEffect (e : Effect)
  | updateClip (id : String) (p : ClipPatch)
  | updateOverlay (id : String) (p : OverlayPatch)
  | updateEffect (id : String) (p : EffectPatch)
  | removeClip (id : String)
  | removeOverlay (id : String)
  | removeEffect (id : String)
  | overwriteClip (id : String) (p : ClipPatch)
  | getClip (id : String)
  | getOverlay (id : String)
  | getEffect (id : String)
  | clipForOverlay (id : String)
  | clipForEffect (id : String)
  | onTrack (track : String)
  | ofKinds (kinds : List String)
  | length
  | validate
  | boundaries (id : String) (sameTrack : Bool)
  | proposeMove (id : String) (start : Float) (length : Option Float) (threshold : Float)
      (apply : Bool)
  | proposeResize (id side : String) (t threshold : Float) (apply : Bool)
  | openSession (threshold : Float)
  | press (id : String) (t : Float) (handle : Option String)
  | move (t : Float)
  | frame
  | release (t : Option Float)
  | cancel
  | compile (o : Options)

inductive Reply where
  | done
  | clip (c : Option Clip)
  | overlay (t : Overlay)
  | effect (e : Effect)
  | ids (names : List String)
  | number (x : Float)
  | numbers (xs : List Float)
  | landing (l : Option Landing)
  | plan (p : Plan)

structure Studio where
  timeline : Timeline := {}
  session : Option Session := none

namespace Studio

def edit (s : Studio) (change : Except Fault (Reply × Timeline)) : Except Fault Reply × Studio :=
  match change with
  | .ok (reply, timeline) => (.ok reply, { s with timeline })
  | .error f => (.error f, s)

def ask (s : Studio) (answer : Except Fault Reply) : Except Fault Reply × Studio := (answer, s)

/-- What happens to the session, for which there must be one. -/
def onSession (s : Studio) (act : Session → Except Fault Reply × Studio) :
    Except Fault Reply × Studio :=
  match s.session with
  | some session => act session
  | none => (.error (.unusable .noSession), s)

def event (s : Studio) (reply : α → Reply) (act : Session → Timeline → Outcome α) :
    Except Fault Reply × Studio :=
  s.onSession fun session =>
    let o := act session s.timeline
    (o.result.map reply, { s with timeline := o.timeline, session := some o.session })

def land (s : Studio) (apply : Bool) (l : Except Fault Landing) : Except Fault Reply × Studio :=
  s.edit do
    let l ← l
    if apply then
      let (_, timeline) ← l.apply s.timeline
      return (.landing (some l), timeline)
    else return (.landing (some l), s.timeline)

def step (s : Studio) : Command → Except Fault Reply × Studio
  | .addClip c => s.edit do return (.clip (some c), ← s.timeline.addClip c)
  | .addOverlay t => s.edit do return (.overlay t, ← s.timeline.addOverlay t)
  | .addEffect e => s.edit do
    let (e, timeline) ← s.timeline.addEffect e
    return (.effect e, timeline)
  | .updateClip id p => s.edit do
    let (c, timeline) ← s.timeline.updateClip id p
    return (.clip (some c), timeline)
  | .updateOverlay id p => s.edit do
    let (t, timeline) ← s.timeline.updateOverlay id p
    return (.overlay t, timeline)
  | .updateEffect id p =>
    let (e, timeline) := s.timeline.updateEffect id p
    (e.map .effect, { s with timeline })
  | .removeClip id => s.edit do
    let (c, timeline) ← s.timeline.removeClip id
    return (.clip (some c), timeline)
  | .removeOverlay id => s.edit do
    let (t, timeline) ← s.timeline.removeOverlay id
    return (.overlay t, timeline)
  | .removeEffect id => s.edit do
    let (e, timeline) ← s.timeline.removeEffect id
    return (.effect e, timeline)
  | .overwriteClip id p => s.edit do return (.done, ← s.timeline.overwriteClip id p)
  | .getClip id => s.ask do return .clip (some (← s.timeline.clip id))
  | .getOverlay id => s.ask do return .overlay (← s.timeline.overlay id)
  | .getEffect id => s.ask do return .effect (← s.timeline.effect id)
  | .clipForOverlay id => s.ask (.ok (.clip (s.timeline.clipForOverlay id)))
  | .clipForEffect id => s.ask (.ok (.clip (s.timeline.clipForEffect id)))
  | .onTrack track => s.ask (.ok (.ids ((s.timeline.onTrack track).map Clip.id)))
  | .ofKinds kinds => s.ask (.ok (.ids ((s.timeline.ofKinds kinds).map Clip.id)))
  | .length => s.ask (s.timeline.length.map .number)
  | .validate => s.ask (s.timeline.validate.map fun _ => .done)
  | .boundaries id sameTrack => s.ask <|
    if sameTrack then (s.timeline.trackBoundaries id).map .numbers
    else .ok (.numbers (s.timeline.boundaries id))
  | .proposeMove id start length threshold apply =>
    s.land apply (s.timeline.proposeMove id start length threshold)
  | .proposeResize id side t threshold apply =>
    s.land apply (s.timeline.proposeResizeOf id side t threshold)
  | .openSession threshold => (.ok .done, { s with session := some { threshold } })
  | .press id t handle => s.onSession fun session =>
    match session.press s.timeline id t handle with
    | .ok session => (.ok .done, { s with session := some session })
    | .error f => (.error f, s)
  | .move t => s.onSession fun session => (.ok .done, { s with session := some (session.move t) })
  | .frame => s.event .landing Session.frame
  | .release t => s.event .landing fun session timeline => session.release timeline t
  | .cancel => s.event (fun _ => .done) Session.cancel
  | .compile o => s.ask ((s.timeline.compile o).map .plan)

/-- The state after some commands, whatever became of each. -/
def run (s : Studio) : List Command → Studio
  | [] => s
  | c :: cs => (s.step c).2.run cs

theorem run_append (s : Studio) (a b : List Command) : s.run (a ++ b) = (s.run a).run b := by
  induction a generalizing s with
  | nil => rfl
  | cons c cs ih => exact ih (s.step c).2

end Studio

/-- A timeline from its parts: overlays, then effects, then clips. The first refusal ends it. -/
def Timeline.ofParts (overlays : List Overlay) (effects : List Effect) (clips : List Clip) :
    Except Fault Timeline := do
  let tl ← overlays.foldlM (fun tl t => tl.addOverlay t) ({} : Timeline)
  let tl ← effects.foldlM (fun tl e => (tl.addEffect e).map Prod.snd) tl
  clips.foldlM (fun tl c => tl.addClip c) tl

end Montage
