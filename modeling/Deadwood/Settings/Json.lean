import Deadwood.Json.Record
import Deadwood.Settings.Field

/-!
# Options in JSON

## Main definitions

* `CycleOptions.toJson`, `StatsOptions.toJson`, `PruneOptions.toJson`: options as objects.
* `CycleOptions.reader`, `StatsOptions.reader`, `PruneOptions.reader`: reading them.
* `Settings.Slot.toJson`: the value of a setting.
-/

namespace Deadwood

open Json.Reader (at_)

namespace LayerRule

def toJson (r : LayerRule) : Json :=
  .object [("pattern", .text r.pattern), ("layer", .text r.layer)]

def reader : Json.Reader LayerRule :=
  .record [
    at_ "pattern" .text (·.pattern) ({ · with pattern := · }),
    at_ "layer" .text (·.layer) ({ · with layer := · })]

/-- A list of rules; `null` leaves none. -/
def listReader : Json.Reader (List LayerRule) := fun vs old =>
  (Json.Reader.list ⟨"", ""⟩ reader vs (some old)).map (·.getD [])

end LayerRule

/-- A list of texts; `null` leaves none. -/
def Json.Reader.texts : Json.Reader (List String) := fun vs old =>
  (Json.Reader.list "" .text vs (some old)).map (·.getD [])

namespace CycleOptions

def toJson (o : CycleOptions) : Json :=
  .object [
    ("min_size", .int o.minSize),
    ("max_length", .int o.maxLength),
    ("max_cycles", .int o.maxCycles),
    ("exclude_recursive", .bool o.excludeRecursive),
    ("exclude_clear", .bool o.excludeClear),
    ("min_complexity", .int o.minComplexity),
    ("cross_layer_only", .bool o.crossLayerOnly),
    ("recursive_only", .bool o.recursiveOnly),
    ("limit", .int o.limit),
    ("root_dir", .text o.rootDir),
    ("layers", .list (o.layers.map (·.toJson)))]

def reader : Json.Reader CycleOptions :=
  .record [
    at_ "min_size" .int (·.minSize) ({ · with minSize := · }),
    at_ "max_length" .int (·.maxLength) ({ · with maxLength := · }),
    at_ "max_cycles" .int (·.maxCycles) ({ · with maxCycles := · }),
    at_ "exclude_recursive" .bool (·.excludeRecursive) ({ · with excludeRecursive := · }),
    at_ "exclude_clear" .bool (·.excludeClear) ({ · with excludeClear := · }),
    at_ "min_complexity" .int (·.minComplexity) ({ · with minComplexity := · }),
    at_ "cross_layer_only" .bool (·.crossLayerOnly) ({ · with crossLayerOnly := · }),
    at_ "recursive_only" .bool (·.recursiveOnly) ({ · with recursiveOnly := · }),
    at_ "limit" .int (·.limit) ({ · with limit := · }),
    at_ "root_dir" .text (·.rootDir) ({ · with rootDir := · }),
    at_ "layers" LayerRule.listReader (·.layers) ({ · with layers := · })]

end CycleOptions

namespace StatsOptions

def toJson (o : StatsOptions) : Json :=
  .object [
    ("hub_threshold", .int o.hubThreshold),
    ("utility_threshold", .int o.utilityThreshold),
    ("max_hub_functions", .int o.maxHubs),
    ("max_utility_functions", .int o.maxUtilities)]

def reader : Json.Reader StatsOptions :=
  .record [
    at_ "hub_threshold" .int (·.hubThreshold) ({ · with hubThreshold := · }),
    at_ "utility_threshold" .int (·.utilityThreshold) ({ · with utilityThreshold := · }),
    at_ "max_hub_functions" .int (·.maxHubs) ({ · with maxHubs := · }),
    at_ "max_utility_functions" .int (·.maxUtilities) ({ · with maxUtilities := · })]

end StatsOptions

namespace PruneOptions

def toJson (o : PruneOptions Float) : Json :=
  .object [
    ("snapshot_id", .text o.snapshotId),
    ("root_dir", .text o.rootDir),
    ("confidence_threshold", .float o.confidenceThreshold),
    ("candidate_min_confidence", .float o.candidateMinConfidence),
    ("protection_threshold", .float o.protectionThreshold),
    ("max_functions_per_batch", .int o.maxPerBatch),
    ("execute", .bool o.execute),
    ("dry_run", .bool o.dryRun),
    ("include_exports", .bool o.includeExports),
    ("include_static_methods", .bool o.includeStaticMethods),
    ("exclude_tests", .bool o.excludeTests),
    ("exclude_patterns", .texts o.excludePatterns),
    ("entry_patterns", .texts o.entryPatterns),
    ("backup_dir", .text o.backupDir)]

def reader : Json.Reader (PruneOptions Float) :=
  .record [
    at_ "snapshot_id" .text (·.snapshotId) ({ · with snapshotId := · }),
    at_ "root_dir" .text (·.rootDir) ({ · with rootDir := · }),
    at_ "confidence_threshold" .float (·.confidenceThreshold) ({ · with confidenceThreshold := · }),
    at_ "candidate_min_confidence" .float (·.candidateMinConfidence)
      ({ · with candidateMinConfidence := · }),
    at_ "protection_threshold" .float (·.protectionThreshold) ({ · with protectionThreshold := · }),
    at_ "max_functions_per_batch" .int (·.maxPerBatch) ({ · with maxPerBatch := · }),
    at_ "execute" .bool (·.execute) ({ · with execute := · }),
    at_ "dry_run" .bool (·.dryRun) ({ · with dryRun := · }),
    at_ "include_exports" .bool (·.includeExports) ({ · with includeExports := · }),
    at_ "include_static_methods" .bool (·.includeStaticMethods)
      ({ · with includeStaticMethods := · }),
    at_ "exclude_tests" .bool (·.excludeTests) ({ · with excludeTests := · }),
    at_ "exclude_patterns" .texts (·.excludePatterns) ({ · with excludePatterns := · }),
    at_ "entry_patterns" .texts (·.entryPatterns) ({ · with entryPatterns := · }),
    at_ "backup_dir" .text (·.backupDir) ({ · with backupDir := · })]

end PruneOptions

def Settings.Slot.toJson (slot : Slot) (s : Settings) : Json :=
  match slot with
  | .int get _ => .int (get s)
  | .float get _ => .float (get s)
  | .bool get _ => .bool (get s)
  | .text get _ => .text (get s)
  | .texts get _ => .texts (get s)
  | .rules get _ => ((get s).map fun rules => Json.list (rules.map (·.toJson))).getD .null

end Deadwood
