import Deadwood.Decimal.Layout
import Deadwood.Disk.Basic

/-!
# Replacing files

A file is replaced through a temporary file beside it, which takes its name once it is complete. So
a reader sees either the old content or the new one, and when some step fails the temporary file is
removed again, unless that is refused as well.

## Main definitions

* `ReplaceStep`: the steps of a replacement.
* `Disk.newTemp`, `Disk.fillTemp`, `Disk.moveTemp`, `Disk.dropTemp`: a temporary file from its place
  to its end.
* `Disk.replaceFileUnder`, `Disk.replaceFile`: all of them, with refusals and without.
* `Disk.writeSynced`: a file that is written in place.
-/

namespace Deadwood

/-- The steps of a replacement, in their order. The last one is taken only after a failure. -/
inductive ReplaceStep where
  | create
  | write
  | sync
  | close
  | setMode
  | move
  | remove
  deriving Repr, DecidableEq

def ReplaceStep.name : ReplaceStep → String
  | create => "create temp"
  | write => "write"
  | sync => "sync"
  | close => "close"
  | setMode => "chmod"
  | move => "rename"
  | remove => "remove"

namespace Disk

/-- The name of a temporary file for a file, with a number or `*`. -/
def tempName (base number : String) : String :=
  "." ++ base ++ ".funcqc-" ++ number

/-- The most digits of the number of a temporary file, and those of most numbers. -/
def tempDigits : Nat := 10

def pathIn (dir name : String) : String :=
  if Text.endsWith "/" dir then dir ++ name else dir ++ "/" ++ name

/-- The path of a temporary file for a path, with `*` for its number. -/
def tempPath (path : String) : String :=
  pathIn (Path.dir path) (tempName (Path.base path) "*")

def removeFile (d : Disk) (l : Location) : Disk :=
  match d.node? l with
  | some (.file _ _) => d.erase l
  | _ => d

/-- Move a file, replacing the file that was there before. A directory is not replaced. -/
def moveFile (d : Disk) (source target : Location) : Except SystemError Disk :=
  match d.node? source, d.node? target with
  | _, some .directory => .error .alreadyExists
  | some n, _ => .ok ((d.erase source).put target n)
  | none, _ => .error .noEntry

/-- The first number under which no temporary file lies in a directory. Besides the nodes of the
disk, only one name can be taken there: that of the way to the working directory. -/
def freeNumber (d : Disk) (dir : Location) (base : String) : Nat :=
  ((List.range (d.nodes.length + 2)).find? fun n =>
    (d.node? (dir ++ [tempName base (Decimal.digitText n)])).isNone).getD 0

/-- The place of a new temporary file for a path. The root of a disk has no name that a temporary
file could be called after. The number is drawn at random: which one is drawn makes no difference,
but the count of its digits decides whether there is room for the name. -/
def newTemp (digits : Nat) (d : Disk) (path : String) : Except Fault Location :=
  let base := Path.base path
  let temp := tempPath path
  let room := digits - 1
  if base.toList.contains '/' then
    .error (.context ("createtemp " ++ tempName base "*")
      (.other "pattern contains path separator"))
  else if temp.toList.contains '\x00' then .error (.system "open" temp .invalid)
  else if pathLimit < Text.byteLength temp + room then .error (.system "open" temp .nameTooLong)
  else
    match d.find (Path.dir path) with
    | .error e => .error (.system "open" temp e)
    | .ok (_, .file _ _) => .error (.system "open" temp .notDirectory)
    | .ok (dirAt, .directory) =>
      if nameLimit < Text.byteLength (tempName base "*") + room then
        .error (.system "open" temp .nameTooLong)
      else .ok (dirAt ++ [tempName base (Decimal.digitText (d.freeNumber dirAt base))])

/-- What is done with a temporary file before it is moved, and what it is after each step. -/
def tempSteps (content : Bytes) (mode : Nat) : List (ReplaceStep × DiskNode) :=
  [(.write, .file content 0o600), (.sync, .file content 0o600), (.close, .file content 0o600),
    (.setMode, .file content (settable mode))]

/-- Take steps on a temporary file until one is refused. -/
def fillTemp (refused : ReplaceStep → Option Refusal) (temp : Location) :
    List (ReplaceStep × DiskNode) → Disk → Except (ReplaceStep × SystemError) Unit × Disk
  | [], d => (.ok (), d)
  | (step, node) :: rest, d =>
    match refused step with
    | some r => (.error (step, r.error), d.put temp (.file r.left 0o600))
    | none => fillTemp refused temp rest (d.put temp node)

/-- Move a temporary file to the place of a path, unless this is refused. -/
def moveTemp (refused : ReplaceStep → Option Refusal) (d : Disk) (temp : Location) (path : String) :
    Except SystemError Disk :=
  match refused .move with
  | some r => .error r.error
  | none => (d.locate path).bind (d.moveFile temp ·)

/-- Remove a temporary file, unless this is refused. -/
def dropTemp (refused : ReplaceStep → Option Refusal) (d : Disk) (temp : Location) : Disk :=
  if (refused .remove).isSome then d else d.removeFile temp

/-- Give a file a content and a mode, all or nothing, while the system may refuse some steps.
Answers the failure, if any, and the disk after it. -/
def replaceFileUnder (refused : ReplaceStep → Option Refusal) (digits : Nat) (d : Disk)
    (path : String) (content : Bytes) (mode : Nat) : Option Fault × Disk :=
  let failed (step : ReplaceStep) (cause : Fault) : Option Fault :=
    some (.file step.name path cause)
  match d.newTemp digits path with
  | .error cause => (failed .create cause, d)
  | .ok temp =>
    match refused .create with
    | some r => (failed .create (.system "open" (tempPath path) r.error), d)
    | none =>
      match fillTemp refused temp (tempSteps content mode) (d.put temp (.file [] 0o600)) with
      | (.error (step, e), made) =>
        (failed step (.system step.name (tempPath path) e), made.dropTemp refused temp)
      | (.ok (), made) =>
        match made.moveTemp refused temp path with
        | .error e => (failed .move (.move (tempPath path) path e), made.dropTemp refused temp)
        | .ok moved => (none, moved)

/-- Give a file a content and a mode, all or nothing. Only the disk decides whether this fails. -/
def replaceFile (d : Disk) (path : String) (content : Bytes) (mode : Nat) : Option Fault × Disk :=
  d.replaceFileUnder (fun _ => none) tempDigits path content mode

/-- Write a file in place, while the system may refuse some steps. What was written by then
stays. -/
def writeSynced (refused : ReplaceStep → Option Refusal) (d : Disk) (path : String)
    (content : Bytes) : Option Fault × Disk :=
  let stopped := [ReplaceStep.write, .sync, .close].findSome? fun step =>
    (refused step).map (step, ·)
  let written := (stopped.map (·.2.left)).getD content
  match Refusal.orElse (refused .create) "open" path (d.writeFile path written 0o644) with
  | .error f => (some (.file "write" path f), d)
  | .ok d => (stopped.map fun s => .file s.1.name path (.system s.1.name path s.2.error), d)

end Disk

end Deadwood
