import Montage.Fault
import Montage.Path
import Montage.Text.Half
/-!
The file system as seen from the working folder: files with their contents, and folders that hold
nothing. A folder is also there when something is in it. Double dots lead up only from folders that
are there; what lies above the working folder is otherwise unknown and empty. Names and paths have a
greatest length in bytes, and none holds a character of code zero.
-/
namespace Montage

structure Disk where
  files : List (Path × String) := []
  folders : List Path := []
  deriving DecidableEq

namespace Disk

/-- `p` lies in the folder `q` or deeper. -/
def inside (p q : Path) : Bool :=
  p.root == q.root && q.parts.isPrefixOf p.parts && q.parts.length < p.parts.length

/-- Whether a path without inner double dots names a folder. -/
def isFolderAt (d : Disk) (p : Path) : Bool :=
  p.parts.all (· == "..") || d.folders.contains p ||
  d.folders.any (inside · p) || d.files.any (inside ·.1 p)

def contentAt? (d : Disk) (p : Path) : Option String := d.files.lookup p

/-- One folder up; above the working folder the double dots stay, above the root is the root. -/
def up (p : Path) : Path :=
  if p.parts.all (· == "..") then
    if p.root = .none then ⟨p.root, p.parts ++ [".."]⟩ else p
  else ⟨p.root, p.parts.dropLast⟩

def longestName : Nat := 255

def longestPath : Nat := 4095

/-- Whether a path holds a character of code zero. -/
def holdsZero (path : String) : Bool := path.toList.contains '\x00'

/-- Follows `parts` from `here`. Every folder on the way must be there. -/
def walk (d : Disk) (here : Path) : List String → Except (String → DiskFault) Path
  | [] => .ok here
  | part :: parts =>
    if d.isFolderAt here then
      if longestName < part.utf8ByteSize then .error .nameTooLong
      else walk d (if part = ".." then up here else ⟨here.root, here.parts ++ [part]⟩) parts
    else if (d.contentAt? here).isSome then .error .notFolder
    else .error .missing

def locate (d : Disk) (p : Path) : Except (String → DiskFault) Path :=
  if longestPath < p.text.utf8ByteSize then .error .nameTooLong else d.walk ⟨p.root, []⟩ p.parts

def isThere (d : Disk) (path : String) : Bool :=
  match d.locate (Path.ofText path) with
  | .ok p => d.isFolderAt p || (d.contentAt? p).isSome
  | .error _ => false

/-- The same, but a path that is too long to be looked up is refused. -/
def look (d : Disk) (path : String) : Except Fault Bool :=
  let p := Path.ofText path
  match d.locate p with
  | .ok _ => .ok (d.isThere path)
  | .error f =>
    match f p.text with
    | .nameTooLong text => if holdsZero path then .ok false else .error (.disk (.nameTooLong text))
    | _ => .ok false

/-- A path that ends in a slash, or in a dot behind one, can only be that of a folder. -/
def asksFolder (path : String) : Bool :=
  match path.toList.reverse with
  | '/' :: _ => true
  | '.' :: '/' :: _ => true
  | _ => false

/-- The content of a file; `path` is as the user gave it. -/
def read (d : Disk) (path : String) : Except Fault String := do
  if path = "" then throw (.disk (.missing path))
  if holdsZero path then throw (.misused .zeroInPath)
  let p ← (d.locate (Path.ofText path)).mapError fun f => .disk (f path)
  if d.isFolderAt p then throw (.disk (.isFolder path))
  match d.contentAt? p with
  | some content => if asksFolder path then throw (.disk (.notFolder path)) else return content
  | none => throw (.disk (.missing path))

/-- The size of what is there; for a folder the system tells `folderSize`. -/
def size (d : Disk) (folderSize : Nat) (path : String) : Except Fault Nat := do
  if holdsZero path then throw (.misused .zeroInPath)
  let p ← (d.locate (Path.ofText path)).mapError fun f => .disk (f path)
  if d.isFolderAt p then return folderSize
  match d.contentAt? p with
  | some content => return content.utf8ByteSize
  | none => throw (.disk (.missing path))

/-- Puts a file down, in place of one that is there. -/
def write (d : Disk) (path : Path) (content : String) : Except Fault Disk := do
  if holdsZero path.text then throw (.misused .zeroInPath)
  if longestPath < path.text.utf8ByteSize then throw (.disk (.nameTooLong path.text))
  let folder ← (d.locate path.parent).mapError fun f => .disk (f path.text)
  if !d.isFolderAt folder then
    let isFile := (d.contentAt? folder).isSome
    throw (.disk (if isFile then .notFolder path.text else .missing path.text))
  let p ← (d.locate path).mapError fun f => .disk (f path.text)
  if d.isFolderAt p then throw (.disk (.isFolder path.text))
  if let some (first, last, code) := halfRun? content.toList then
    throw (.unwritable first last code)
  return { d with files := d.files.filter (·.1 != p) ++ [(p, content)] }

/-- Puts a file down under a path as the user gave it. A single dot at its end is looked for first,
a slash alone is refused at once. -/
def save (d : Disk) (path content : String) : Except Fault Disk :=
  if path = "" then .error (.disk (.missing path))
  else match d.write (Path.ofText path) content with
    | .error (.disk f) => .error (.disk (f.at path))
    | .error f => .error f
    | .ok after =>
      if !asksFolder path then .ok after
      else match path.toList.reverse.dropWhile (· == '/') with
        | '.' :: '/' :: _ =>
          .error (.disk (if d.isThere path then .notFolder path else .missing path))
        | _ => .error (.disk (.isFolder path))

/-- Whether a path names a folder that is there. -/
def isFolder (d : Disk) (path : Path) : Bool :=
  match d.locate path with
  | .ok p => d.isFolderAt p
  | .error _ => false

/-- Makes one folder in a folder that is there. -/
def makeOne (d : Disk) (path : Path) : Except (String → DiskFault) Disk := do
  if longestPath < path.text.utf8ByteSize then throw .nameTooLong
  let folder ← d.walk ⟨path.root, []⟩ path.parts.dropLast
  if !d.isFolderAt folder then
    throw (if (d.contentAt? folder).isSome then .notFolder else .missing)
  match path.parts.getLast? with
  | none | some ".." => throw .taken
  | some name =>
    if longestName < name.utf8ByteSize then throw .nameTooLong
    let p : Path := ⟨folder.root, folder.parts ++ [name]⟩
    if d.isFolderAt p || (d.contentAt? p).isSome then throw .taken
    return { d with folders := d.folders ++ [p] }

/-- Whatever stood in the way of making a folder is no matter when it is there. -/
def unlessFolder (path : Path) (made : Except (String → DiskFault) Disk) (d : Disk) :
    Except Fault Disk :=
  match made with
  | .ok d => .ok d
  | .error f => if d.isFolder path then .ok d else .error (.disk (f path.text))

/-- Makes the folder whose parts are given last to first. Only when something is missing on the way
to it, the folder above is made first. -/
def makeUpward (root : Root) : List String → Disk → Except Fault Disk
  | [], d => .ok d
  | part :: above, d => do
    let path : Path := ⟨root, (part :: above).reverse⟩
    match d.makeOne path with
    | .ok d => return d
    | .error f =>
      match f path.text with
      | .missing _ =>
        let d ← makeUpward root above d
        unlessFolder path (d.makeOne path) d
      | _ => unlessFolder path (.error f) d

def makeFolder (d : Disk) (path : Path) : Except Fault Disk :=
  if holdsZero path.text then .error (.misused .zeroInPath)
  else makeUpward path.root path.parts.reverse d

/-- Makes a file known that is there, with the folders on the way to it. -/
def discover (d : Disk) (path content : String) : Disk :=
  let p := Path.ofText path
  match d.makeFolder p.parent with
  | .ok d => (d.write p content).toOption.getD d
  | .error _ => d

def removeFolder (d : Disk) (path : Path) : Disk where
  files := d.files.filter fun f => !inside f.1 path
  folders := d.folders.filter fun p => p != path && !inside p path

def listing (d : Disk) (path : Path) : List (String × String) :=
  d.files.filterMap fun f =>
    if inside f.1 path then
      some ("/".intercalate (f.1.parts.drop path.parts.length), f.2)
    else none

end Disk
end Montage
