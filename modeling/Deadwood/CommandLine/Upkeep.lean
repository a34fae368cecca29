import Deadwood.CommandLine.Workspace
import Deadwood.Settings.Field

/-!
# Upkeep commands

Bringing snapshots into the store, and looking at the settings.

## Main definitions

* `importSnapshot`: store the snapshot of a file.
* `checkSettings`, `showSettings`: what the settings are.
-/

namespace Deadwood.CommandLine

def absolute (d : Disk) (path : String) : String :=
  if Path.isAbsolute path then Path.clean path
  else Path.join ("/" ++ Text.join "/" d.workDir) path

def importSnapshot (flags : Given) (path : String) : Action Unit := do
  let settings ← loadSettings flags
  let disk := (← get).disk
  let loaded ← Action.ofExcept (Snapshot.load path disk)
  let label := flags.text "label"
  let root := flags.text "source-root"
  let info :=
    { loaded.info with
      label := if label = "" then loaded.info.label else label
      rootDir := if root = "" then loaded.info.rootDir else absolute disk root }
  let snapshot := { loaded with info }
  let db ← openDatabase settings
  let s ← get
  let (outcome, db) := db.save ⟨snapshot, s.freshId, s.now⟩
  let saved ← Action.ofExcept outcome
  modify fun s => { s with disk := db.writeTo settings.storePath s.disk }
  Action.announce .success ("Imported snapshot " ++ saved.id ++ ": "
    ++ Decimal.digitText snapshot.functions.length ++ " functions, "
    ++ Decimal.digitText snapshot.edges.length ++ " call edges")

def checkSettings (flags : Given) : Action Unit := do
  match Settings.load (flags.text "config") (← get).disk with
  | .error p =>
    Action.announce .error "Configuration validation failed:"
    Action.print (Text.utf8 ("  - " ++ p.fault.message ++ "\n"))
    throw p.fault
  | .ok (_, "") =>
    Action.announce .warning "No config file found. Default configuration is valid."
  | .ok (_, source) => Action.announce .success ("Configuration valid: " ++ source)

def showSettings (flags : Given) : Action Unit := do
  match Settings.load (flags.text "config") (← get).disk with
  | .error p => throw p.fault
  | .ok (s, source) =>
    let head :=
      if source = "" then "# Default configuration (no config file found)\n"
      else "# Configuration from: " ++ source ++ "\n\n"
    Action.print (Text.utf8 (head ++ s.toToml))

end Deadwood.CommandLine
