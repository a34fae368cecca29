import Deadwood.CommandLine.Session
import Deadwood.Store.File

/-!
# Workspaces

The settings, the store and the snapshot that an analysis works on.

## Main definitions

* `Workspace`, `Workspace.load`: the workspace of an invocation.
-/

namespace Deadwood.CommandLine

structure Workspace where
  settings : Settings
  database : Database
  snapshot : SnapshotInfo
  functions : List FunctionRecord
  edges : List (CallEdge Float)

def openDatabase (s : Settings) : Action Database := do
  let (db, disk) ← Action.ofExcept (Database.open_ s.storePath (← get).disk)
  modify fun s => { s with disk }
  return db

def chosenSnapshot (db : Database) (flags : Given) : Except Fault SnapshotInfo :=
  let id := flags.text "snapshot"
  (if id = "" then db.latest else db.info id).mapError
    (.context "no snapshot to analyze (run 'funcqc import' first)")

/-- The directory of the files of a code base: the one that was asked for, the one of the snapshot,
or the working directory. -/
def sourceRoot (snapshot : SnapshotInfo) (flags : Given) : String :=
  if flags.text "root" ≠ "" then flags.text "root"
  else if snapshot.rootDir ≠ "" then snapshot.rootDir
  else "."

def Workspace.load (flags : Given) : Action Workspace := do
  let settings ← loadSettings flags
  let database ← openDatabase settings
  let snapshot ← Action.ofExcept (chosenSnapshot database flags)
  let functions ← Action.ofExcept (database.functions snapshot.id)
  let edges ← Action.ofExcept (database.edges snapshot.id)
  return { settings, database, snapshot, functions, edges }

end Deadwood.CommandLine
