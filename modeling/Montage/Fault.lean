import Montage.Moment
import Montage.Text.Quoted
import Montage.Number.Shortest
/-!
Everything that can go wrong, as causes. `Fault.message` holds the wording; `Fault.kind?` the word
under which a failure is reported to the person who runs an export. A fault without such a word
ends the program.
-/
namespace Montage

/-- The tracks, each named by the kind of its clips. -/
def trackNames : List String := ["video", "audio", "image", "text", "effect"]

/-- Why input is turned down before anything is built from it. -/
inductive Rejection where
  | clipIdTaken (id : String)
  | clipIdFixed
  | unknownTrack (clip track : String)
  | wrongTrack (clip kind track : String)
  | startBelowZero (clip : String) (start : Float)
  | emptyWindow (clip : String) (start stop : Float)
  | sourceNeeded (clip kind : String)
  | overlayNeeded (clip : String)
  | effectNeeded (clip : String)
  | unknownOverlay (clip overlay : String)
  | unknownEffect (clip effect : String)
  | overlayIdTaken (id : String)
  | unknownAlign (overlay align : String)
  | unknownAnimation (overlay animation : String)
  | fontSizeNotPositive (overlay : String) (size : Int)
  | effectIdTaken (id : String)
  | unknownEffectKind (kind : String)
  | intensityOutOfRange (effect : String) (intensity : Float)
  | nothingToCompile
  | sourcesMissing (paths : List String)
  | unsupportedMedia (path : String)
  | manifestNotMapping
  | resolutionShape (shown : String)
  | numberNeeded (place field shown : String)
  | rateNotPositive (shown : String)
  | pathsNotMapping (shown : String)
  | fieldMissing (place field : String)
  | trackNeeded (place shown : String)
  | variableUnknown (place name : String)
  | durationNotPositive (duration : Float)
  deriving DecidableEq

/-- How a node breaks the rules of labels, or a plan leaves an output unused. -/
inductive Miswiring where
  | noFilters (kind : String)
  | readsBeforeProduced (kind label : String)
  | consumedTwice (label : String)
  | outputIsStream (label : String)
  | duplicateOutput (label : String)
  | noSource (clip kind : String)
  | neverMapped (labels : List String)
  deriving DecidableEq

inductive Misuse where
  | color (shown : String)
  | pathVariable (name : String)
  | effectPolicy (name : String)
  | effectKind (kind : String)
  | resizeSide (name : String)
  | resizeHandle (name : String)
  | nanToWhole
  | pairLength (index length : Nat)
  | misdated (cause : Misdated)
  /-- A time that is NaN. -/
  | timeNaN
  /-- A text that is no whole number to some base. -/
  | notWhole (base : Nat) (text : String)
  | notDecimal (text : String)
  /-- More decimal digits than are read. -/
  | tooManyDigits (count : Nat)
  /-- A code beyond the last character. -/
  | codeTooLarge
  /-- A whole number of more decimal digits than are written. -/
  | tooLong
  /-- A size that so many numbers were given for, and not two. -/
  | unpaired (count : Nat)
  /-- A path, or a word for another program, that holds a character of code zero. -/
  | zeroInPath
  deriving DecidableEq

inductive Absent where
  | clip (id : String)
  | overlay (id : String)
  | effect (id : String)
  | defaultLength (kind : String)
  | truthWord (word : String)
  deriving DecidableEq

/-- A value whose shape does not admit what is asked of it. -/
inductive Unusable where
  | notIterable
  | notSearchable
  | notIndexable
  | notHashable
  | notAPair
  | unknownField (name : String)
  | noEntries
  | noSession
  | notATimestamp
  deriving DecidableEq

inductive DiskFault where
  | missing (path : String)
  | isFolder (path : String)
  | notFolder (path : String)
  | taken (path : String)
  | nameTooLong (path : String)
  deriving DecidableEq

/-- The same refusal, told of a path as the user gave it. -/
def DiskFault.at (f : DiskFault) (path : String) : DiskFault :=
  match f with
  | missing _ => .missing path
  | isFolder _ => .isFolder path
  | notFolder _ => .notFolder path
  | taken _ => .taken path
  | nameTooLong _ => .nameTooLong path

inductive Fault where
  | rejected (cause : Rejection)
  | miswired (cause : Miswiring)
  | toolFailed (code : Int) (diagnostic : String)
  | outputMissing (path : String)
  | pressedDuring (gesture : String)
  | releasedIdle
  | misused (cause : Misuse)
  | absent (cause : Absent)
  | unusable (cause : Unusable)
  | disk (cause : DiskFault)
  | mediaNotFound (path : String)
  | probeCrashed (report : String)
  | tooLarge
  /-- A moment that clocks cannot show. -/
  | beyondClocks
  /-- A number without a character. -/
  | emptyNumber
  /-- A content with halves of characters at these places, the first of this code. -/
  | unwritable (first last code : Nat)
  /-- What another program printed is no text. -/
  | garbled (why : String)
  | malformedDocument
  /-- What stands for something else, and that for it again. -/
  | endless
  deriving DecidableEq

def Rejection.message : Rejection → String
  | clipIdTaken id => s!"Duplicate clip id: '{id}'"
  | clipIdFixed => "Clip id cannot be changed"
  | unknownTrack clip track =>
    s!"Clip '{clip}': unknown track '{track}'. Valid: " ++
      Quoted.list ["audio", "effect", "image", "text", "video"]
  | wrongTrack clip kind track =>
    s!"Clip '{clip}': kind '{kind}' does not match track '{track}' ({track})"
  | startBelowZero clip start => s!"Clip '{clip}': start must be >= 0, got " ++ Shortest.text start
  | emptyWindow clip start stop =>
    s!"Clip '{clip}': start (" ++ Shortest.text start ++ ") must be < end (" ++
      Shortest.text stop ++ ")"
  | sourceNeeded clip kind => s!"Clip '{clip}': {kind} clip needs a source"
  | overlayNeeded clip => s!"Clip '{clip}': text clip needs a text overlay"
  | effectNeeded clip => s!"Clip '{clip}': effect clip needs an effect"
  | unknownOverlay clip overlay => s!"Clip '{clip}': unknown text overlay '{overlay}'"
  | unknownEffect clip effect => s!"Clip '{clip}': unknown effect '{effect}'"
  | overlayIdTaken id => s!"Duplicate text overlay id: '{id}'"
  | unknownAlign overlay align =>
    s!"Text '{overlay}': invalid align '{align}'. Valid: " ++
      Quoted.list ["center", "left", "right"]
  | unknownAnimation overlay animation =>
    s!"Text '{overlay}': invalid animation '{animation}'. Valid: " ++ Quoted.list ["fade"]
  | fontSizeNotPositive overlay size =>
    s!"Text '{overlay}': font_size must be positive, got {size}"
  | effectIdTaken id => s!"Duplicate effect id: '{id}'"
  | unknownEffectKind kind =>
    s!"Unknown effect kind '{kind}'. Valid: " ++
      Quoted.list ["amplify", "blur", "fade", "soften", "sparkle", "zoom"]
  | intensityOutOfRange effect intensity =>
    s!"Effect '{effect}': intensity must be in [0, 100], got " ++ Shortest.text intensity
  | nothingToCompile => "No video, image or audio clips to compile"
  | sourcesMissing paths =>
    "Missing " ++ toString paths.length ++ " source file(s):\n" ++
      String.join (paths.map fun p => "  - " ++ p ++ "\n")
  | unsupportedMedia path => s!"Unsupported media type: {path}"
  | manifestNotMapping => "Project manifest: top level must be a mapping"
  | resolutionShape shown =>
    s!"Project manifest: video.resolution must be [width, height], got {shown}"
  | numberNeeded place field shown => s!"{place}: '{field}' must be a number, got {shown}"
  | rateNotPositive shown =>
    s!"Project manifest: video.fps must be a positive integer, got {shown}"
  | pathsNotMapping shown => s!"Project manifest: paths must be a mapping, got {shown}"
  | fieldMissing place field => s!"{place}: missing required field '{field}'"
  | trackNeeded place shown =>
    s!"{place}: invalid track '{shown}'. Valid: " ++ Quoted.list trackNames
  | variableUnknown place name => s!"{place}: Unknown path variable: $\x7b{name}\x7d"
  | durationNotPositive duration =>
    "Project manifest: duration must be positive, got " ++ Shortest.text duration

def Miswiring.message : Miswiring → String
  | noFilters kind => s!"{kind} node has no filters"
  | readsBeforeProduced kind label => s!"{kind} node reads [{label}] before any node produces it"
  | consumedTwice label => s!"Label [{label}] consumed twice"
  | outputIsStream label => s!"Output label [{label}] collides with an input stream"
  | duplicateOutput label => s!"Duplicate output label [{label}]"
  | noSource clip kind => s!"Clip '{clip}' ({kind}) has no source"
  | neverMapped labels => "Graph outputs never mapped: " ++ Quoted.list labels

def Misuse.message : Misuse → String
  | color shown => s!"Invalid hex color: '{shown}'"
  | pathVariable name => s!"Unknown path variable: $\x7b{name}\x7d"
  | effectPolicy name =>
    s!"Unknown effect policy '{name}'. Valid: " ++ Quoted.list ["first", "layered"]
  | effectKind kind => s!"Effect kind '{kind}' has no filter"
  | resizeSide name => s!"Invalid resize side '{name}'. Valid: " ++ Quoted.list ["left", "right"]
  | resizeHandle name =>
    s!"Invalid resize handle '{name}'. Valid: " ++ Quoted.list ["left", "right"]
  | nanToWhole => "cannot convert float NaN to integer"
  | pairLength index length =>
    s!"dictionary update sequence element #{index} has length {length}; 2 is required"
  | misdated cause => cause.message
  | timeNaN => "Invalid value NaN (not a number)"
  | notWhole base text =>
    s!"invalid literal for int() with base {base}: " ++
      String.ofList ((Quoted.text text).toList.take 200)
  | notDecimal text => "could not convert string to float: " ++ Quoted.text text
  | tooManyDigits count =>
    s!"Exceeds the limit (4300 digits) for integer string conversion: value has {count} digits; " ++
      "use sys.set_int_max_str_digits() to increase the limit"
  | codeTooLarge => "chr() arg not in range(0x110000)"
  | tooLong =>
    "Exceeds the limit (4300 digits) for integer string conversion; " ++
      "use sys.set_int_max_str_digits() to increase the limit"
  | unpaired count =>
    if count < 2 then s!"not enough values to unpack (expected 2, got {count})"
    else "too many values to unpack (expected 2)"
  | zeroInPath => "embedded null byte"

def Absent.message : Absent → String
  | clip id => s!"No clip with id '{id}'"
  | overlay id => s!"No text overlay with id '{id}'"
  | effect id => s!"No effect with id '{id}'"
  | defaultLength kind => kind
  | truthWord word => word

def DiskFault.message : DiskFault → String
  | missing path => "[Errno 2] No such file or directory: " ++ Quoted.text path
  | isFolder path => "[Errno 21] Is a directory: " ++ Quoted.text path
  | notFolder path => "[Errno 20] Not a directory: " ++ Quoted.text path
  | taken path => "[Errno 17] File exists: " ++ Quoted.text path
  | nameTooLong path => "[Errno 36] File name too long: " ++ Quoted.text path

/-- Shape faults, numbers out of range and malformed documents have no wording of their own. -/
def Fault.message : Fault → String
  | rejected cause => cause.message
  | miswired cause => cause.message
  | toolFailed code diagnostic => s!"ffmpeg exited with code {code}: {diagnostic}"
  | outputMissing path => s!"Output file was not created: {path}"
  | pressedDuring gesture => s!"pointer_down while {gesture}; release first"
  | releasedIdle => "pointer_up without a gesture in progress"
  | misused cause => cause.message
  | absent cause => cause.message
  | disk cause => cause.message
  | mediaNotFound path => s!"Media file not found: {path}"
  | probeCrashed report => report
  | beyondClocks => "[Errno 75] Value too large for defined data type"
  | endless => "maximum recursion depth exceeded"
  | emptyNumber => "string index out of range"
  | unwritable first last code =>
    "'utf-8' codec can't encode " ++
      (if first = last then
        "character '\\u" ++ String.ofList (Quoted.hex 4 code) ++ s!"' in position {first}"
       else s!"characters in position {first}-{last}") ++ ": surrogates not allowed"
  | garbled why => why
  | unusable _ | tooLarge | malformedDocument => ""

def Fault.kind? : Fault → Option String
  | rejected _ => some "validation"
  | miswired _ => some "compilation"
  | toolFailed .. => some "external_tool"
  | outputMissing _ => some "output_missing"
  | pressedDuring _ | releasedIdle => some "edit_state"
  | _ => none

def NoWhole.fault : NoWhole → Fault
  | nan => .misused .nanToWhole
  | infinite => .tooLarge

def whole? (r : Except NoWhole Int) : Except Fault Int := r.mapError NoWhole.fault

/-- A whole number of more digits is neither read nor written. -/
@[irreducible] def mostDigits : Nat := 4300

def checkDigits (n : Int) : Except Fault Unit :=
  if n.natAbs < Nat.pow 10 mostDigits then .ok () else .error (.misused .tooLong)

end Montage
