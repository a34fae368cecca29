import Deadwood.Sorted
import Deadwood.Fault
import Deadwood.Path
import Deadwood.Text.Utf8

/-!
# Disks

A disk holds files and directories. Paths are read from the working directory unless they begin with
a slash; following a path goes through directories only. The system may refuse an operation for a
reason that the disk does not show: the user may not do it, no space is left, or a device is broken.

## Main definitions

* `Location`, `DiskNode`, `Disk`: places, and what is there.
* `Refusal`: how the system refuses an operation.
* `Disk.node?`: the view of a disk.
* `Disk.locate`: the place that a path leads to.
* `Disk.readFile`, `Disk.writeFile`, `Disk.makeDirs`, `Disk.list`, `Disk.removeTree`: operations.
-/

namespace Deadwood

/-- A place on a disk: the names on the way from the root. -/
abbrev Location := List String

/-- A file with its mode, or a directory. -/
inductive DiskNode where
  | file (content : Bytes) (mode : Nat)
  | directory
  deriving Repr, DecidableEq, Inhabited

/-- The permission bits; directories are open to all. -/
def DiskNode.permissions : DiskNode → Nat
  | .file _ mode => mode % 512
  | .directory => 0o755

/-- A disk with a working directory. -/
structure Disk where
  nodes : List (Location × DiskNode) := []
  workDir : Location := ["work"]

/-- Why the system refuses an operation, and what the file that was being written holds then. -/
structure Refusal where
  error : SystemError
  left : Bytes := []

/-- An operation on a path, unless it is refused. -/
def Refusal.orElse {α : Type} (refusal : Option Refusal) (op path : String)
    (result : Except Fault α) : Except Fault α :=
  match refusal with
  | some r => .error (.system op path r.error)
  | none => result

namespace Disk

/-- What is at a place. The root is a directory, and so are the places on the way to the working
directory. -/
def node? (d : Disk) (l : Location) : Option DiskNode :=
  if l.isPrefixOf d.workDir then some .directory else d.nodes.lookup l

def put (d : Disk) (l : Location) (n : DiskNode) : Disk :=
  { d with nodes := assign l n d.nodes }

def erase (d : Disk) (l : Location) : Disk :=
  { d with nodes := unassign l d.nodes }

/-! ## Following paths -/

def nameLimit : Nat := 255

def pathLimit : Nat := 4095

/-- Follow names from a place. Every place but the last must be a directory. -/
def follow (d : Disk) : Location → List String → Except SystemError Location
  | l, [] => .ok l
  | l, name :: names =>
    match d.node? l with
    | none => .error .noEntry
    | some (.file _ _) => .error .notDirectory
    | some .directory =>
      if name = "" || name = "." then follow d l names
      else if name = ".." then follow d l.dropLast names
      else if nameLimit < Text.byteLength name then .error .nameTooLong
      else follow d (l ++ [name]) names

/-- The place that a path leads to, whether or not something is there. -/
def locate (d : Disk) (path : String) : Except SystemError Location :=
  if path = "" then .error .noEntry
  else if path.toList.contains '\x00' then .error .invalid
  else if pathLimit < Text.byteLength path then .error .nameTooLong
  else d.follow (if Path.isAbsolute path then [] else d.workDir) (Text.segments '/' path)

/-- The place that a path leads to, and what is there. -/
def find (d : Disk) (path : String) : Except SystemError (Location × DiskNode) :=
  match d.locate path with
  | .error e => .error e
  | .ok l =>
    match d.node? l with
    | none => .error .noEntry
    | some n => .ok (l, n)

def stat (d : Disk) (path : String) : Except Fault DiskNode :=
  match d.find path with
  | .error e => .error (.system "stat" path e)
  | .ok (_, n) => .ok n

def exists_ (d : Disk) (path : String) : Bool :=
  match d.find path with
  | .error _ => false
  | .ok _ => true

/-! ## Files -/

def readFile (d : Disk) (path : String) : Except Fault Bytes :=
  match d.find path with
  | .error e => .error (.system "open" path e)
  | .ok (_, .directory) => .error (.system "read" path .isDirectory)
  | .ok (_, .file content _) => .ok content

/-- The bits of a mode that a file can be given: its permissions, and the flags that lend a program
the rights of its owner or its group and that protect the names in a directory. -/
def settable (mode : Nat) : Nat :=
  mode &&& 0xD001FF

/-- Give a file a content. A new file gets the mode, an old one keeps its own. -/
def writeFile (d : Disk) (path : String) (content : Bytes) (mode : Nat) : Except Fault Disk :=
  match d.locate path with
  | .error e => .error (.system "open" path e)
  | .ok l =>
    match d.node? l with
    | some .directory => .error (.system "open" path .isDirectory)
    | some (.file _ old) => .ok (d.put l (.file content old))
    | none => .ok (d.put l (.file content (mode % 512)))

def setMode (d : Disk) (path : String) (mode : Nat) : Disk :=
  match d.find path with
  | .ok (l, .file content _) => d.put l (.file content (settable mode))
  | _ => d

/-! ## Directories -/

def makeDir (d : Disk) (path : String) : Except Fault Disk :=
  match d.locate path with
  | .error e => .error (.system "mkdir" path e)
  | .ok l =>
    match d.node? l with
    | some .directory => .ok d
    | some (.file _ _) => .error (.system "mkdir" path .notDirectory)
    | none => .ok (d.put l .directory)

/-- The paths that lead to a path, the shortest first and the path itself last. -/
def pathsTo (path : String) : List String :=
  let parts := Text.segments '/' path
  (((List.range parts.length).map fun n => Text.join "/" (parts.take (n + 1))).filter (· ≠ ""))

/-- Make directories one after the other, up to the first that is refused or cannot be made. -/
def makeEach (refused : String → Option Refusal) : List String → Disk → Option Fault × Disk
  | [], d => (none, d)
  | p :: ps, d =>
    match Refusal.orElse (refused p) "mkdir" p (d.makeDir p) with
    | .error f => (some f, d)
    | .ok d => makeEach refused ps d

def makeDirs (d : Disk) (path : String) : Except Fault Disk :=
  match makeEach (fun _ => none) (pathsTo path) d with
  | (some f, _) => .error f
  | (none, d) => .ok d

/-- Write a file, after making the directories above it; nothing happens where that fails. -/
def place (d : Disk) (path : String) (content : Bytes) (mode : Nat) : Disk :=
  match d.makeDirs (Path.dir path) with
  | .error _ => d
  | .ok d =>
    match d.writeFile path content mode with
    | .error _ => d
    | .ok d => d.setMode path mode

/-- The name of a place in a directory, if it lies directly there. -/
def nameIn? (dir l : Location) : Option String :=
  if l.dropLast = dir then l.getLast? else none

/-- What lies directly in a place, ordered by name. -/
def children (d : Disk) (dir : Location) : List (String × DiskNode) :=
  (d.nodes.filterMap fun (l, n) => (nameIn? dir l).map (·, n)).mergeSort fun a b => a.1 ≤ b.1

def list (d : Disk) (path : String) : Except Fault (List (String × DiskNode)) :=
  match d.find path with
  | .error e => .error (.system "open" path e)
  | .ok (_, .file _ _) => .error (.system "open" path .notDirectory)
  | .ok (l, .directory) => .ok (d.children l)

/-! ## Removal -/

def eraseTree (d : Disk) (l : Location) : Disk :=
  { d with nodes := d.nodes.filter fun e => !l.isPrefixOf e.1 }

/-- Remove what a path leads to, with everything below it. It is no failure if nothing is there, but
a path that ends in `.` is refused. -/
def removeTree (d : Disk) (path : String) : Except Fault Disk :=
  if path = "." || Text.endsWith "/." path then .error (.system "RemoveAll" path .invalid)
  else
    match d.find path with
    | .error _ => .ok d
    | .ok (l, _) => .ok (d.eraseTree l)

/-! ## Overview -/

/-- The path of a place below the working directory. -/
def relative? (d : Disk) (l : Location) : Option String :=
  if d.workDir.isPrefixOf l then some (Text.join "/" (l.drop d.workDir.length)) else none

/-- The files below the working directory, ordered by path. -/
def files (d : Disk) : List (String × Bytes) :=
  (d.nodes.filterMap fun (l, n) =>
    match n, d.relative? l with
    | .file content _, some path => some (path, content)
    | _, _ => none).mergeSort fun a b => a.1 ≤ b.1

end Disk

end Deadwood
