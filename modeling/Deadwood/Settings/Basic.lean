import Deadwood.Cycle.LayerTable
import Deadwood.Cycle.Overview
import Deadwood.Metrics
import Deadwood.Pruning.Options

/-!
# Settings

The settings of the program, with their usual values. Every value is checked; all problems are
reported together.

## Main definitions

* `Settings`: all settings.
* `Settings.faults`: values that are not allowed.
* `Settings.cycleOptions`, `Settings.pruneOptions`: the options of the analyses.
-/

namespace Deadwood

/-- Settings for cycles: those of `CycleOptions`, and where layers are named. -/
structure CycleSettings where
  minSize : Int := 1
  maxLength : Int := 20
  maxCycles : Int := 1000
  excludeRecursive : Bool := false
  excludeClear : Bool := false
  minComplexity : Int := 0
  crossLayerOnly : Bool := false
  recursiveOnly : Bool := false
  limit : Int := 0
  /-- A file with more rules for layers, if not empty. -/
  layersFile : String := ""
  layers : Option (List LayerRule) := none

/-- Settings for deletions: those of `PruneOptions`, and what concerns whole runs. -/
structure DeletionSettings where
  confidenceThreshold : Float := 0.8
  candidateMinConfidence : Float := 0.5
  protectionThreshold : Float := 0.7
  maxPerBatch : Int := 5
  dryRun : Bool := false
  execute : Bool := false
  includeExports : Bool := false
  includeStaticMethods : Bool := false
  excludeTests : Bool := true
  excludePatterns : List String := []
  entryPatterns : List String := []
  backupDir : String := ".funcqc/backups"
  /-- Functions are kept when the evidence for them could not be read. -/
  failClosed : Bool := false
  /-- The backup to restore, if not empty. -/
  restore : String := ""

structure ValidationSettings where
  typeCheckCommand : String := ""
  testCommand : String := ""
  timeoutSeconds : Int := 300

structure OutputSettings where
  format : String := "text"
  color : Bool := true
  verbose : Bool := false

structure Settings where
  cycles : CycleSettings := {}
  metrics : StatsOptions := {}
  deletion : DeletionSettings := {}
  validation : ValidationSettings := {}
  storePath : String := ".funcqc/funcqc.db"
  output : OutputSettings := {}

namespace Settings

def pruneOptions (s : Settings) (snapshotId rootDir : String) : PruneOptions Float :=
  let d := s.deletion
  { snapshotId, rootDir
    confidenceThreshold := d.confidenceThreshold
    candidateMinConfidence := d.candidateMinConfidence
    protectionThreshold := d.protectionThreshold
    maxPerBatch := d.maxPerBatch
    execute := d.execute
    dryRun := d.dryRun
    includeExports := d.includeExports
    includeStaticMethods := d.includeStaticMethods
    excludeTests := d.excludeTests
    excludePatterns := d.excludePatterns
    entryPatterns := d.entryPatterns
    backupDir := d.backupDir }

/-- The options of an analysis of cycles. The rules of the settings come before those of the
file. -/
def cycleOptions (s : Settings) (rootDir : String) (disk : Disk) : Except Fault CycleOptions :=
  let c := s.cycles
  let options (more : List LayerRule) : CycleOptions :=
    { minSize := c.minSize
      maxLength := c.maxLength
      maxCycles := c.maxCycles
      excludeRecursive := c.excludeRecursive
      excludeClear := c.excludeClear
      minComplexity := c.minComplexity
      crossLayerOnly := c.crossLayerOnly
      recursiveOnly := c.recursiveOnly
      limit := c.limit
      rootDir
      layers := c.layers.getD [] ++ more }
  if c.layersFile = "" then .ok (options [])
  else (LayerTable.load c.layersFile disk).map options

/-! ## Checks -/

def checkInt (ok : Bool) (field : String) (value : Int) (reason : String) : List Fault :=
  if ok then [] else [.badOption field (Decimal.intText value) reason]

def checkRules (rules : List LayerRule) : List Fault :=
  rules.zipIdx.filterMap fun (r, i) =>
    if r.pattern = "" || r.layer = "" then
      some (.badOption ("cycles.layers[" ++ Decimal.digitText i ++ "]")
        ("\x7b" ++ r.pattern ++ " " ++ r.layer ++ "\x7d") "needs pattern and layer")
    else none

def faults (s : Settings) : List Fault :=
  let c := s.cycles
  let m := s.metrics
  checkInt (1 ≤ c.minSize) "cycles.min_size" c.minSize "must be at least 1"
  ++ checkInt (c.minSize ≤ c.maxLength) "cycles.max_length" c.maxLength "must be at least min_size"
  ++ checkInt (1 ≤ c.maxCycles) "cycles.max_cycles" c.maxCycles "must be at least 1"
  ++ checkInt (0 ≤ c.minComplexity) "cycles.min_complexity" c.minComplexity "must not be negative"
  ++ checkInt (0 ≤ c.limit) "cycles.limit" c.limit "must not be negative"
  ++ (if c.excludeRecursive && c.recursiveOnly then
      [.badOption "cycles.recursive_only" "true" "conflicts with exclude_recursive"] else [])
  ++ checkRules (c.layers.getD [])
  ++ checkInt (1 ≤ m.hubThreshold) "metrics.hub_threshold" m.hubThreshold "must be at least 1"
  ++ checkInt (1 ≤ m.utilityThreshold) "metrics.utility_threshold" m.utilityThreshold
    "must be at least 1"
  ++ checkInt (1 ≤ m.maxHubs) "metrics.max_hub_functions" m.maxHubs "must be at least 1"
  ++ checkInt (1 ≤ m.maxUtilities) "metrics.max_utility_functions" m.maxUtilities
    "must be at least 1"
  ++ ((s.pruneOptions "" "").problem?.map (·.fault)).toList
  ++ checkInt (1 ≤ s.validation.timeoutSeconds) "validation.timeout_seconds"
    s.validation.timeoutSeconds "must be at least 1"
  ++ (if s.storePath = "" then [.badOption "store.path" "" "must not be empty"] else [])
  ++ (if ["text", "json", "markdown", "toon"].contains s.output.format then []
    else [.badOption "output.format" s.output.format "must be text, json, markdown or toon"])

def fault? (s : Settings) : Option Fault :=
  match s.faults with
  | [] => none
  | fs => some (.several fs)

end Settings

end Deadwood
