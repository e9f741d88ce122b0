import Montage.Text.Quoted
import Montage.Text.Word
/-!
Arguments of a command line. An option may be cut short as long as it is recognised, and its value
may be joined to it by an equals sign. Two dashes alone make everything behind them words. Words
are taken from one place only: once an option has followed them, further words are strangers.
-/
namespace Montage.CommandLine

/-- An option: the names it has, and what may follow it. -/
structure Rule where
  names : List String
  /-- A value follows. -/
  valued : Bool := false
  /-- The values that may follow, when they are limited. -/
  choices : List String := []
  deriving DecidableEq

def Rule.label (r : Rule) : String := "/".intercalate r.names

inductive Complaint where
  | valueExpected (option : String)
  | valueUnexpected (option value : String)
  | notAChoice (option value : String) (choices : List String)
  | required (name : String)
  | strangers (arguments : List String)
  | folderNeeded
  deriving DecidableEq

def Complaint.message : Complaint → String
  | valueExpected option => s!"argument {option}: expected one argument"
  | valueUnexpected option value =>
    s!"argument {option}: ignored explicit argument " ++ Quoted.text value
  | notAChoice option value choices =>
    s!"argument {option}: invalid choice: " ++ Quoted.text value ++ " (choose from " ++
      ", ".intercalate (choices.map Quoted.text) ++ ")"
  | required name => s!"the following arguments are required: {name}"
  | strangers arguments => "unrecognized arguments: " ++ " ".intercalate arguments
  | folderNeeded => "--output-dir is required (unless using --validate or --print-command)"

/-- What an argument is to a set of rules. -/
inductive Shape where
  | word
  /-- Two dashes. -/
  | separator
  /-- An option, perhaps with a value joined to it. -/
  | option (rule : Rule) (joined : Option String)
  /-- It looks like an option and is none. -/
  | stranger
  deriving DecidableEq

def ruleNamed? (rules : List Rule) (name : String) : Option Rule :=
  rules.find? (·.names.contains name)

/-- What stands before the first equals sign, and what behind it. -/
def cutAtEquals (arg : String) : String × Option String :=
  let cs := arg.toList
  let name := String.ofList (cs.takeWhile (· != '='))
  match cs.dropWhile (· != '=') with
  | [] => (name, none)
  | _ :: value => (name, some (String.ofList value))

/-- A text without the line feed at its end. -/
def dropFeed (cs : List Char) : List Char := if cs.getLast? = some '\n' then cs.dropLast else cs

/-- A dash and digits, perhaps with a point among them; a line feed may follow. -/
def isNegativeNumber (cs : List Char) : Bool :=
  match dropFeed cs with
  | '-' :: cs =>
    let whole := cs.takeWhile isDigit
    match cs.dropWhile isDigit with
    | [] => !whole.isEmpty
    | '.' :: fraction => !fraction.isEmpty && fraction.all isDigit
    | _ => false
  | _ => false

/-- An option by its whole name, by the beginning of a long name, or by a dash and a letter with
more behind them. -/
def optionOf? (rules : List Rule) (arg : String) : Option Shape :=
  let (name, joined) := cutAtEquals arg
  match ruleNamed? rules arg, ruleNamed? rules name with
  | some r, _ => some (.option r none)
  | none, some r => some (.option r joined)
  | none, none =>
    match arg.toList with
    | '-' :: '-' :: _ =>
      let begins (r : Rule) : Bool := r.names.any fun n => name.toList.isPrefixOf n.toList
      (rules.find? begins).map (.option · joined)
    | '-' :: letter :: more =>
      (ruleNamed? rules (String.ofList ['-', letter])).map
        (.option · (some (String.ofList more)))
    | _ => none

/-- A dash alone, a negative number, and what holds a space are words unless they are options. -/
def shapeOf (rules : List Rule) (arg : String) : Shape :=
  match arg.toList with
  | '-' :: c :: cs =>
    if arg = "--" then .separator
    else match optionOf? rules arg with
      | some shape => shape
      | none => if isNegativeNumber ('-' :: c :: cs) || cs.contains ' ' then .word else .stranger
  | _ => .word

/-- All arguments with what they are; behind a separator there are only words. -/
def shapesOf (rules : List Rule) : List String → List (String × Shape)
  | [] => []
  | arg :: args =>
    match shapeOf rules arg with
    | .separator => (arg, .separator) :: args.map (·, .word)
    | shape => (arg, shape) :: shapesOf rules args

inductive Taking where
  | waiting
  | now
  | done
  deriving DecidableEq

structure Given where
  /-- The options in their order, each by its first name and with its value. -/
  options : List (String × String) := []
  words : List String := []
  strangers : List String := []
  deriving DecidableEq

namespace Given

def addOption (g : Given) (r : Rule) (value : String) : Given :=
  { g with options := (r.names.headD "", value) :: g.options }

def addWord (g : Given) (arg : String) : Given := { g with words := arg :: g.words }

def addStranger (g : Given) (arg : String) : Given := { g with strangers := arg :: g.strangers }

def has (g : Given) (name : String) : Bool := g.options.any (·.1 == name)

def value? (g : Given) (name : String) : Option String := g.options.reverse.lookup name

end Given

def checkChoice (r : Rule) (value : String) : Except Complaint Unit :=
  if r.choices.isEmpty ∨ value ∈ r.choices then .ok ()
  else .error (.notAChoice r.label value r.choices)

def Taking.pause : Taking → Taking
  | .now => .done
  | t => t

/-- Reads arguments from the first to the last; the first complaint wins. -/
def given : Taking → List (String × Shape) → Except Complaint Given
  | _, [] => .ok {}
  | t, (arg, .stranger) :: more => do return (← given t.pause more).addStranger arg
  | t, (_, .option r joined) :: more =>
    if r.valued then
      match joined, more with
      | some value, more => do
        checkChoice r value
        return (← given t.pause more).addOption r value
      | none, (value, .word) :: more => do
        checkChoice r value
        return (← given t.pause more).addOption r value
      | none, _ => .error (.valueExpected r.label)
    else match joined with
      | some value => .error (.valueUnexpected r.label value)
      | none => do return (← given t.pause more).addOption r ""
  | t, (arg, .separator) :: more =>
    if t = .now ∨ (t = .waiting ∧ !more.isEmpty) then given t more
    else do return (← given t more).addStranger arg
  | t, (arg, .word) :: more =>
    if t = .done then do return (← given t more).addStranger arg
    else do return (← given .now more).addWord arg

/-- Reads the arguments of a command. Where `word` is named, at least one word must be there; of
what is missing or too much, the former is complained of first. -/
def readArguments (rules : List Rule) (needed : List String) (word : Option String)
    (args : List String) : Except Complaint Given := do
  let g ← given (if word.isSome then .waiting else .done) (shapesOf rules args)
  let absent := needed.filter (!g.has ·) ++ (if g.words.isEmpty then word.toList else [])
  if !absent.isEmpty then throw (.required (", ".intercalate absent))
  if !g.strangers.isEmpty then throw (.strangers g.strangers)
  return g

end Montage.CommandLine
