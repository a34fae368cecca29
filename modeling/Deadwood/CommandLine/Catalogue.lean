import Deadwood.CommandLine.Flag

/-!
# Commands

The commands of the program with their flags and what is said about them.

## Main definitions

* `Command`: one command.
* `programName`, `globalFlags`, `commands`: the program.
* `Command.find?`, `Command.children`: commands by their paths.
-/

namespace Deadwood.CommandLine

structure Command where
  path : List String
  /-- What stands for the arguments in the description of its use. -/
  arguments : String := ""
  brief : String := ""
  /-- A longer description; the brief one if it is empty. -/
  description : String := ""
  flags : List Flag := []
  /-- Whether the command does something itself, and is not only a group of others. -/
  acts : Bool := true
  /-- How many arguments it takes; any number if this is not fixed. -/
  argumentCount : Option Nat := none

def programName : String := "funcqc"

def globalFlags : List Flag :=
  [⟨"config", some 'c', .text, "Path to config file (TOML, YAML, or JSON)"⟩,
    ⟨"format", some 'f', .text, "Output format: text, json, markdown, toon"⟩,
    ⟨"output", some 'o', .text, "Write output to file"⟩,
    ⟨"store", none, .text, "Path to the snapshot database"⟩,
    ⟨"snapshot", some 's', .text, "Snapshot ID (default: latest)"⟩,
    ⟨"root", none, .text, "Source root for file paths (default: snapshot root or .)"⟩,
    ⟨"verbose", some 'v', .count, "Increase log verbosity (-v, -vv)"⟩,
    ⟨"quiet", some 'q', .toggle, "Suppress log output"⟩]

def selectionFlags : List Flag :=
  [⟨"confidence-threshold", none, .number,
      "Edge confidence below which a caller does not keep a function alive"⟩,
    ⟨"min-confidence", none, .number, "Minimum candidate confidence"⟩,
    ⟨"include-exports", none, .toggle, "Consider exported functions"⟩,
    ⟨"include-static", none, .toggle, "Consider static methods"⟩,
    ⟨"include-tests", none, .toggle, "Consider test functions"⟩,
    ⟨"exclude", none, .texts, "Glob patterns of files to leave alone (repeatable)"⟩,
    ⟨"entry", none, .texts, "Function name globs to treat as entry points (repeatable)"⟩,
    ⟨"fail-closed", none, .toggle, "Protect functions whose type evidence cannot be loaded"⟩]

def rootCommand : Command where
  path := []
  brief := "Call-graph reachability, cycle and safe deletion analysis"
  description :=
    "funcqc analyzes the call graph of an imported snapshot: it finds entry\n"
      ++ "points, unreachable functions and call cycles, ranks cycles by how badly they\n"
      ++ "cross architectural boundaries, and removes dead functions in validated,\n"
      ++ "reversible batches."
  acts := false

def restoreCommand : Command where
  path := ["restore"]
  arguments := "<backup-path>"
  brief := "Restore every file captured in a deletion backup"
  argumentCount := some 1

def backupsCommand : Command where
  path := ["backups"]
  brief := "List deletion backups"
  flags := [⟨"dir", none, .text, "Backup root (default: deletion.backup_dir)"⟩]

def discardCommand : Command where
  path := ["backups", "discard"]
  arguments := "<backup-path>"
  brief := "Delete a backup that is no longer needed"
  argumentCount := some 1

def configCommand : Command where
  path := ["config"]
  brief := "Configuration management commands"
  acts := false

def configValidateCommand : Command where
  path := ["config", "validate"]
  brief := "Validate a configuration file"
  description :=
    "Validates a funcqc configuration file for syntax errors and invalid values.\n"
      ++ "\n"
      ++ "Examples:\n"
      ++ "  funcqc config validate                    # Validates default config locations\n"
      ++ "  funcqc config validate -c funcqc.toml     # Validates specific file\n"
      ++ "  funcqc config validate -c .funcqc/funcqc.yaml"

def configShowCommand : Command where
  path := ["config", "show"]
  brief := "Show the effective configuration"
  description :=
    "Shows the merged configuration from defaults and config file.\n"
      ++ "\n"
      ++ "Examples:\n"
      ++ "  funcqc config show                # Show effective config\n"
      ++ "  funcqc config show -c funcqc.toml # Show config from specific file"

def cyclesCommand : Command where
  path := ["cycles"]
  brief := "Find and classify call cycles"
  description :=
    "Enumerates simple call cycles, classifies them by the file, module and\n"
      ++ "layer boundaries they cross, and ranks them by importance.\n"
      ++ "\n"
      ++ "Examples:\n"
      ++ "  funcqc cycles                       # All cycles, most severe first\n"
      ++ "  funcqc cycles --cross-layer-only    # Only cycles spanning layers\n"
      ++ "  funcqc cycles --exclude-recursive --limit 20"
  flags :=
    [⟨"min-size", none, .integer, "Minimum cycle size"⟩,
      ⟨"max-length", none, .integer, "Maximum cycle length to enumerate"⟩,
      ⟨"max-cycles", none, .integer, "Maximum number of cycles to enumerate"⟩,
      ⟨"exclude-recursive", none, .toggle, "Drop single-function recursion"⟩,
      ⟨"exclude-clear", none, .toggle, "Drop cycles through clear/reset/cleanup functions"⟩,
      ⟨"min-complexity", none, .integer, "Minimum number of functions in a cycle"⟩,
      ⟨"cross-layer-only", none, .toggle, "Keep only cycles crossing architectural layers"⟩,
      ⟨"recursive-only", none, .toggle, "Keep only single-function recursion"⟩,
      ⟨"limit", none, .integer, "Show at most N cycles (0 = all)"⟩,
      ⟨"layers", none, .text, "YAML file mapping path patterns to layers"⟩]

def deadCommand : Command where
  path := ["dead"]
  brief := "Preview functions that are safe to delete"
  description :=
    "Lists unreachable, isolated and weakly-called functions that survive\n"
      ++ "type-safety protection and the configured exclusions. Nothing is modified."
  flags := selectionFlags

def deleteCommand : Command where
  path := ["delete"]
  brief := "Delete dead functions in validated batches"
  description :=
    "Deletes the candidates reported by 'funcqc dead'. Without --execute this is\n"
      ++ "a preview. With --execute every touched file is backed up first, then\n"
      ++ "candidates are removed batch by batch; a batch that fails validation is\n"
      ++ "rolled back on its own.\n"
      ++ "\n"
      ++ "Examples:\n"
      ++ "  funcqc delete                                  # Preview\n"
      ++ "  funcqc delete --execute                        # Delete after confirmation\n"
      ++ "  funcqc delete --execute --yes --batch-size 10  # Non-interactive\n"
      ++ "  funcqc delete --restore .funcqc/backups/<id>   # Undo a run"
  flags := selectionFlags ++
    [⟨"execute", none, .toggle, "Actually delete (default is a preview)"⟩,
      ⟨"dry-run", none, .toggle, "Force a preview even with --execute"⟩,
      ⟨"batch-size", none, .integer, "Functions per batch"⟩,
      ⟨"yes", some 'y', .toggle, "Do not ask for confirmation"⟩,
      ⟨"restore", none, .text, "Restore the backup at this path instead of deleting"⟩]

def depsCommand : Command where
  path := ["deps"]
  brief := "Show fan-in, fan-out and depth statistics"
  description :=
    "Computes per-function dependency metrics and summarizes hubs (high\n"
      ++ "fan-in), utilities (high fan-out) and isolated functions."
  flags :=
    [⟨"hub-threshold", none, .integer, "Minimum fan-in for a hub"⟩,
      ⟨"utility-threshold", none, .integer, "Minimum fan-out for a utility"⟩,
      ⟨"max-hubs", none, .integer, "Maximum hubs to list"⟩,
      ⟨"max-utilities", none, .integer, "Maximum utilities to list"⟩,
      ⟨"all", none, .toggle, "Output metrics for every function (JSON/TOON)"⟩]

def importCommand : Command where
  path := ["import"]
  arguments := "<snapshot.json>"
  brief := "Import an extracted snapshot into the database"
  description :=
    "Imports a JSON snapshot holding functions, call edges and type\n"
      ++ "relationships. The newest imported snapshot is analyzed by default."
  flags :=
    [⟨"label", none, .text, "Label for the snapshot"⟩,
      ⟨"source-root", none, .text, "Source root recorded with the snapshot"⟩]
  argumentCount := some 1

def helpCommand : Command where
  path := ["help"]
  arguments := "[command]"
  brief := "Help about any command"
  description :=
    "Help provides help for any command in the application.\n"
      ++ "Simply type funcqc help [path to command] for full details."

def completionCommand : Command where
  path := ["completion"]
  brief := "Generate the autocompletion script for the specified shell"
  description :=
    "Generate the autocompletion script for funcqc for the specified shell.\n"
      ++ "See each sub-command's help for details on how to use the generated script."
  acts := false

def commands : List Command :=
  [rootCommand, restoreCommand, backupsCommand, discardCommand, configCommand,
    configValidateCommand, configShowCommand, cyclesCommand, deadCommand, deleteCommand,
    depsCommand, importCommand, helpCommand, completionCommand]

namespace Command

def find? (path : List String) : Option Command :=
  commands.find? (·.path == path)

/-- The last word of the path; the name of the program if there is none. -/
def name (c : Command) : String :=
  c.path.getLast?.getD programName

def fullName (c : Command) : String :=
  Text.join " " (programName :: c.path)

def children (c : Command) : List Command :=
  commands.filter fun d => d.path != [] && d.path.dropLast == c.path

def child? (c : Command) (name : String) : Option Command :=
  c.children.find? (·.name == name)

def helpFlag (c : Command) : Flag :=
  ⟨"help", some 'h', .toggle, "help for " ++ c.name⟩

/-- The flag that asks for the version. Only the program itself has it. -/
def versionFlag (c : Command) : List Flag :=
  if c.path.isEmpty then [⟨"version", none, .toggle, "version for " ++ c.name⟩] else []

def knownFlags (c : Command) : List Flag :=
  c.flags ++ globalFlags

def allFlags (c : Command) : List Flag :=
  c.knownFlags ++ c.helpFlag :: c.versionFlag

end Command

end Deadwood.CommandLine
