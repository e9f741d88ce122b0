import Montage.Timeline.Basic
import Montage.Graph.Filter
/-!
Which effects reach the picture, and the filters that carry them out. Under the policy `first` only
the earliest effect of an allowed kind is applied; under `layered` all of them, earliest first. The
two policies turn the strength of a softening into a blur in different ways.
-/
namespace Montage

def effectPolicies : List String := ["first", "layered"]

def allowedKinds : List String := ["amplify", "fade", "soften"]

/-- Zoom factor, from one to one and a half. -/
def amplifyScale (intensity : Float) : Float := 1 + intensity / 100 * 0.5

/-- Length of a fade: half the window, at most a second. -/
def fadeWindow (start stop : Float) : Float := firstMin 1 ((stop - start) / 2)

/-- Blur radius of the policy `first`, at least one. -/
def softenRadius (intensity : Float) : Except Fault Int := do
  let r ← whole? (wholeNearest (intensity / 100 * 5))
  return max 1 r

/-- Blur strength of the policy `layered`. -/
def softenSigma (intensity : Float) : Float := intensity / 100 * 10

def allowedEffects (effects : List Effect) : List Effect :=
  orderedBy Effect.start (effects.filter fun e => allowedKinds.contains e.kind)

def selectEffects (effects : List Effect) (policy : String) : Except Fault (List Effect) :=
  if policy ∉ effectPolicies then .error (.misused (.effectPolicy policy))
  else if policy = "first" then .ok ((allowedEffects effects).take 1)
  else .ok (allowedEffects effects)

/-- True during the window of an effect; `clock` is what the filter calls the time. -/
def gate (clock : String) (start stop : Float) : String :=
  s!"between({clock}," ++ Decimal.secondsText start ++ "," ++ Decimal.secondsText stop ++ ")"

def inQuotes (s : String) : String := "'" ++ s ++ "'"

def zoomFilter (e : Effect) (width height rate : Int) : Filter :=
  .make "zoompan" [] [
    ("z", inQuotes ("if(" ++ gate "in_time" e.start e.stop ++ "," ++
      Decimal.compactText (amplifyScale e.intensity) ++ ",1)")),
    ("x", inQuotes "iw/2-(iw/zoom/2)"),
    ("y", inQuotes "ih/2-(ih/zoom/2)"),
    ("d", "1"),
    ("s", s!"{width}x{height}"),
    ("fps", toString rate)]

def fadeFilter (direction : String) (start length : Float) : Filter :=
  .make "fade" [] [
    ("t", direction), ("st", Decimal.secondsText start), ("d", Decimal.secondsText length)]

def boxBlurFilter (e : Effect) (radius : Int) : Filter :=
  .make "boxblur" [toString radius, toString radius] [
    ("enable", inQuotes (gate "t" e.start e.stop))]

def gaussBlurFilter (e : Effect) : Filter :=
  .make "gblur" [] [
    ("sigma", Decimal.compactText (softenSigma e.intensity)),
    ("enable", inQuotes (gate "t" e.start e.stop))]

def effectFilters (e : Effect) (policy : String) (width height rate : Int) :
    Except Fault (List Filter) := do
  if e.kind = "amplify" then return [zoomFilter e width height rate]
  else if e.kind = "fade" then
    let window := fadeWindow e.start e.stop
    return [fadeFilter "in" e.start window, fadeFilter "out" (e.stop - window) window]
  else if e.kind = "soften" then
    if policy = "first" then
      let radius ← softenRadius e.intensity
      return [boxBlurFilter e radius]
    else return [gaussBlurFilter e]
  else throw (.misused (.effectKind e.kind))

end Montage
