import Deadwood.Decimal.Layout
import Deadwood.Disk.Basic

/-!
# Replies of tools

A tool takes its arguments, its input and the disk, and answers what it writes to the two streams,
in order, and its status.

## Main definitions

* `Shell.Reply`: what a tool answers.
* `Shell.Scene`, `Shell.Tool`: what a tool sees, and tools.
-/

namespace Deadwood.Shell

structure Reply where
  /-- What is written, each time with the number of the stream. -/
  writes : List (Nat × Bytes) := []
  status : Nat := 0
  /-- Whether the input is used up. -/
  reads : Bool := false
  /-- The disk, if it is another one now. -/
  disk : Option Disk := none

structure Scene where
  disk : Disk
  /-- The directory from which paths are read. -/
  place : Location
  input : Bytes
  /-- Whether the input comes from a file. -/
  inputIsFile : Bool := false

abbrev Tool := List Bytes → Scene → Reply

namespace Reply

def out (bs : Bytes) : Reply :=
  { writes := [(1, bs)] }

def outText (s : String) : Reply :=
  out (Text.utf8 s)

def refusal (status : Nat) (s : String) : Reply :=
  { writes := [(2, Text.utf8 (s ++ "\n"))], status }

def ofBool (b : Bool) : Reply :=
  { status := if b then 0 else 1 }

/-- One reply behind the other; the status is the worse one. -/
def append (a b : Reply) : Reply :=
  { writes := a.writes ++ b.writes
    status := max a.status b.status
    reads := a.reads || b.reads
    disk := b.disk.or a.disk }

instance : Append Reply := ⟨append⟩

def all (rs : List Reply) : Reply :=
  rs.foldl append {}

end Reply

def textOf (bs : Bytes) : String :=
  Text.ofUtf8Lossy bs

def bytesLess : Bytes → Bytes → Bool
  | [], b => !b.isEmpty
  | _ :: _, [] => false
  | a :: as, b :: bs => if a = b then bytesLess as bs else decide (a < b)

/-- A name in a message: between quotes if one of its characters has a meaning in scripts. -/
def nameText (s : String) : String :=
  let cs := s.toList
  let marked (c : Char) : Bool := " \t\n!\"$&()*;<=>?[\\^\x60|:\x27".toList.contains c
  if cs.isEmpty || cs.any marked || cs.head? = some '#' || cs.head? = some '~' then
    if cs.contains '\x27' && !cs.contains '"' then "\"" ++ s ++ "\"" else "'" ++ s ++ "'"
  else s

/-! ## Lines -/

/-- Lines without their ends. The last one needs none. -/
def linesOf (bs : Bytes) : List Bytes :=
  let (first, others) := bs.foldr (fun b (line, lines) =>
    if b = 10 then ([], line :: lines) else (b :: line, lines)) (([], []) : Bytes × List Bytes)
  let lines := first :: others
  if lines.getLast? = some [] then lines.dropLast else lines

def unlines (ls : List Bytes) : Bytes :=
  ls.flatMap (· ++ [10])

def endsLine (bs : Bytes) : Bool :=
  bs.isEmpty || bs.getLast? = some 10

/-! ## Paths -/

/-- A path as it is seen from the working directory of the disk. -/
def Scene.path (s : Scene) (path : String) : String :=
  if path = "" || Path.isAbsolute path then path
  else "/" ++ Text.join "/" (s.place ++ [path])

def reason : SystemError → String
  | .noEntry => "No such file or directory"
  | .notDirectory => "Not a directory"
  | .isDirectory => "Is a directory"
  | .nameTooLong => "File name too long"
  | .invalid => "Invalid argument"
  | .noSpace => "No space left on device"
  | .inputOutput => "Input/output error"
  | _ => "Permission denied"

def endless : Nat := 1000000

/-- The bytes of a file, `limit` at most. -/
def Scene.read (s : Scene) (path : String) (limit : Nat) : Except String Bytes :=
  if path = "/dev/zero" then .ok (List.replicate limit 0)
  else if path = "/dev/null" then .ok []
  else if path = "/dev/stdin" || path = "-" then .ok (s.input.take limit)
  else
    match s.disk.find (s.path path) with
    | .ok (_, .file content _) => .ok (content.take limit)
    | .ok (_, .directory) => .error (reason .isDirectory)
    | .error e => .error (reason e)

end Deadwood.Shell
