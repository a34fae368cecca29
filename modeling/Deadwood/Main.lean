import Deadwood.CommandLine.Run
import Std.Time.DateTime.Timestamp

/-!
# The program

The outer layer of the program. It reads the files below the working directory, runs one
invocation on them as values, and writes back what changed.

## Main definitions

* `main`: the program.
-/

namespace Deadwood.Main

open CommandLine

def placeOf (path : String) : Location :=
  (Text.segments '/' path).filter (· ≠ "")

def pathOf (place : Location) : String :=
  "/" ++ Text.join "/" place

/-- Add everything below a directory to the nodes of a disk. -/
partial def readTree (place : Location) (nodes : List (Location × DiskNode)) :
    IO (List (Location × DiskNode)) := do
  let dir ← IO.FS.realPath (pathOf place)
  let mut nodes := nodes
  for e in ← dir.readDir do
    let below := place ++ [e.fileName]
    if ← e.path.isDir then
      nodes ← readTree below ((below, .directory) :: nodes)
    else
      let content ← IO.FS.readBinFile e.path
      nodes := (below, .file content.toList 0o644) :: nodes
  return nodes

def readDisk : IO Disk := do
  let workDir := placeOf (← IO.currentDir).toString
  return { nodes := ← readTree workDir [], workDir }

/-- Write back what is new or different, and remove what is gone. -/
def writeDisk (before after : Disk) : IO Unit := do
  for (place, node) in after.nodes.mergeSort fun a b => a.1.length ≤ b.1.length do
    match node, before.node? place with
    | .directory, none => IO.FS.createDirAll (pathOf place)
    | .file content _, some (.file old _) =>
      if content != old then IO.FS.writeBinFile (pathOf place) ⟨content.toArray⟩
    | .file content _, _ => IO.FS.writeBinFile (pathOf place) ⟨content.toArray⟩
    | _, _ => pure ()
  for (place, node) in before.nodes.mergeSort fun a b => b.1.length ≤ a.1.length do
    match node, after.node? place with
    | .file _ _, none => IO.FS.removeFile (pathOf place)
    | .directory, none => IO.FS.removeDir (pathOf place)
    | _, _ => pure ()

def randomId : IO String := do
  let bytes := (← IO.getRandomBytes 16).toList
  let fixed := bytes.zipIdx.map fun (b, i) =>
    if i = 6 then b % 16 + 64 else if i = 8 then b % 64 + 128 else b
  let hex := String.join (fixed.map fun b => Text.hexDigits 2 b.toNat)
  let cut (start count : Nat) : String := String.ofList ((hex.toList.drop start).take count)
  return Text.join "-" [cut 0 8, cut 8 4, cut 12 4, cut 16 4, cut 20 12]

def wantsCodes : IO Bool := do
  let plain := (← IO.getEnv "NO_COLOR").any (· ≠ "") || (← IO.getEnv "TERM") == some "dumb"
  return !plain && (← (← IO.getStdout).isTty)

/-- Run one invocation. If it asks the user something, the answer is read and the invocation starts
again with it. -/
def invoke (words : List String) (s : Session) : IO (Nat × Session) := do
  let first := CommandLine.run words s
  if first.2.asked = "" then return first
  else
    IO.eprint first.2.asked
    let line ← (← IO.getStdin).getLine
    return CommandLine.run words { s with input := Text.utf8 line }

end Deadwood.Main

def main (words : List String) : IO UInt32 := do
  let disk ← Deadwood.Main.readDisk
  let now ← Std.Time.Timestamp.now
  let session : Deadwood.CommandLine.Session :=
    { disk
      codes := ← Deadwood.Main.wantsCodes
      freshId := ← Deadwood.Main.randomId
      now := ⟨now.toNanosecondsSinceUnixEpoch.toInt, 0⟩ }
  let (status, after) ← Deadwood.Main.invoke words session
  Deadwood.Main.writeDisk disk after.disk
  (← IO.getStderr).write ⟨after.err.toArray⟩
  (← IO.getStdout).write ⟨after.out.toArray⟩
  return UInt32.ofNat status
