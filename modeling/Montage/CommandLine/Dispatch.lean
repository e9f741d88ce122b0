import Montage.CommandLine.Probe
/-!
The whole command line: a command and its arguments. Options before the command belong to it too.
Whoever asks for help behind a command gets it, whatever else is there.
-/
namespace Montage.CommandLine

def commandNames : List String := ["export", "probe", "health"]

def helpRule : Rule := { names := ["-h", "--help"] }

def helpRefused (value : List Char) : Ending :=
  .misused (.valueUnexpected helpRule.label (String.ofList value))

/-- What a request for help comes to; `joined` is a value that is joined to it. Behind a single dash
the letter may be repeated, and what follows is refused. -/
def helpEnding (arg : String) (joined : Option String) : Ending :=
  match joined with
  | none => .usage 0
  | some value =>
    if value = "" ∨ "--".toList.isPrefixOf arg.toList then helpRefused value.toList
    else match value.toList.dropWhile (· == 'h') with
      | [] => .usage 0
      | rest => helpRefused rest

def helpAmong : List String → Option Ending
  | [] => none
  | arg :: args =>
    match shapeOf [helpRule] arg with
    | .separator => none
    | .option _ joined => some (helpEnding arg joined)
    | _ => helpAmong args

/-- The command, and its arguments in order; or how the command line ends without one. -/
def commandOf (before : List String) : List String → Except Ending (String × List String)
  | [] => .error (.usage 1)
  | arg :: args =>
    match shapeOf [helpRule] arg with
    | .option _ joined => .error (helpEnding arg joined)
    | .stranger => commandOf (before ++ [arg]) args
    | .separator =>
      .error (if args.isEmpty then .usage 1
        else .misused (.notAChoice "command" arg commandNames))
    | .word =>
      if arg ∈ commandNames then
        match helpAmong args with
        | some ending => .error ending
        | none => .ok (arg, before ++ args)
      else .error (.misused (.notAChoice "command" arg commandNames))

def health (w : World) : Program Ending := do
  let timestamp ← Clock.timestamp w.now
  let report : Json := .record [("status", .text "ok"), ("timestamp", .text timestamp)]
  Program.say report.line
  return .ended 0 ""

def run (w : World) (args : List String) : Program Ending :=
  match commandOf [] args with
  | .error ending => return ending
  | .ok (command, args) =>
    if command = "export" then
      match ExportRequest.ofArguments args with
      | .ok r => r.run w
      | .error complaint => return .misused complaint
    else if command = "probe" then
      match ProbeRequest.ofArguments args with
      | .ok r => r.run w
      | .error complaint => return .misused complaint
    else health w

end Montage.CommandLine
