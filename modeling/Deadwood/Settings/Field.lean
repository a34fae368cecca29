import Deadwood.Datum
import Deadwood.Settings.Basic
import Deadwood.Toml.Printer

/-!
# Settings in files

One table says under which names settings are found in files. Settings are read from data and
written to TOML by it.

## Main definitions

* `Settings.Slot`, `Settings.sections`: the table.
* `Settings.ofDatum?`: the usual settings, changed by the data of a file.
* `Settings.toToml`: all settings as a document.
-/

namespace Deadwood.Settings

/-- A setting: how it is read from the settings and how it is changed, by kind. -/
inductive Slot where
  | int (get : Settings → Int) (set : Int → Settings → Settings)
  | float (get : Settings → Float) (set : Float → Settings → Settings)
  | bool (get : Settings → Bool) (set : Bool → Settings → Settings)
  | text (get : Settings → String) (set : String → Settings → Settings)
  | texts (get : Settings → List String) (set : List String → Settings → Settings)
  | rules (get : Settings → Option (List LayerRule)) (set : List LayerRule → Settings → Settings)

def cycleSlots : List (String × Slot) :=
  let put (f : CycleSettings → CycleSettings) (s : Settings) := { s with cycles := f s.cycles }
  [("min_size", .int (·.cycles.minSize) fun x => put ({ · with minSize := x })),
   ("max_length", .int (·.cycles.maxLength) fun x => put ({ · with maxLength := x })),
   ("max_cycles", .int (·.cycles.maxCycles) fun x => put ({ · with maxCycles := x })),
   ("exclude_recursive",
    .bool (·.cycles.excludeRecursive) fun x => put ({ · with excludeRecursive := x })),
   ("exclude_clear", .bool (·.cycles.excludeClear) fun x => put ({ · with excludeClear := x })),
   ("min_complexity", .int (·.cycles.minComplexity) fun x => put ({ · with minComplexity := x })),
   ("cross_layer_only",
    .bool (·.cycles.crossLayerOnly) fun x => put ({ · with crossLayerOnly := x })),
   ("recursive_only", .bool (·.cycles.recursiveOnly) fun x => put ({ · with recursiveOnly := x })),
   ("limit", .int (·.cycles.limit) fun x => put ({ · with limit := x })),
   ("layers_file", .text (·.cycles.layersFile) fun x => put ({ · with layersFile := x })),
   ("layers", .rules (·.cycles.layers) fun x => put ({ · with layers := some x }))]

def metricSlots : List (String × Slot) :=
  let put (f : StatsOptions → StatsOptions) (s : Settings) := { s with metrics := f s.metrics }
  [("hub_threshold", .int (·.metrics.hubThreshold) fun x => put ({ · with hubThreshold := x })),
   ("utility_threshold",
    .int (·.metrics.utilityThreshold) fun x => put ({ · with utilityThreshold := x })),
   ("max_hub_functions", .int (·.metrics.maxHubs) fun x => put ({ · with maxHubs := x })),
   ("max_utility_functions",
    .int (·.metrics.maxUtilities) fun x => put ({ · with maxUtilities := x }))]

def deletionSlots : List (String × Slot) :=
  let put (f : DeletionSettings → DeletionSettings) (s : Settings) :=
    { s with deletion := f s.deletion }
  [("confidence_threshold",
    .float (·.deletion.confidenceThreshold) fun x => put ({ · with confidenceThreshold := x })),
   ("candidate_min_confidence",
    .float (·.deletion.candidateMinConfidence)
      fun x => put ({ · with candidateMinConfidence := x })),
   ("protection_threshold",
    .float (·.deletion.protectionThreshold) fun x => put ({ · with protectionThreshold := x })),
   ("max_functions_per_batch",
    .int (·.deletion.maxPerBatch) fun x => put ({ · with maxPerBatch := x })),
   ("dry_run", .bool (·.deletion.dryRun) fun x => put ({ · with dryRun := x })),
   ("execute", .bool (·.deletion.execute) fun x => put ({ · with execute := x })),
   ("include_exports",
    .bool (·.deletion.includeExports) fun x => put ({ · with includeExports := x })),
   ("include_static_methods",
    .bool (·.deletion.includeStaticMethods) fun x => put ({ · with includeStaticMethods := x })),
   ("exclude_tests", .bool (·.deletion.excludeTests) fun x => put ({ · with excludeTests := x })),
   ("exclude_patterns",
    .texts (·.deletion.excludePatterns) fun x => put ({ · with excludePatterns := x })),
   ("entry_patterns",
    .texts (·.deletion.entryPatterns) fun x => put ({ · with entryPatterns := x })),
   ("backup_dir", .text (·.deletion.backupDir) fun x => put ({ · with backupDir := x })),
   ("fail_closed", .bool (·.deletion.failClosed) fun x => put ({ · with failClosed := x })),
   ("restore", .text (·.deletion.restore) fun x => put ({ · with restore := x }))]

def validationSlots : List (String × Slot) :=
  let put (f : ValidationSettings → ValidationSettings) (s : Settings) :=
    { s with validation := f s.validation }
  [("type_check_command",
    .text (·.validation.typeCheckCommand) fun x => put ({ · with typeCheckCommand := x })),
   ("test_command", .text (·.validation.testCommand) fun x => put ({ · with testCommand := x })),
   ("timeout_seconds",
    .int (·.validation.timeoutSeconds) fun x => put ({ · with timeoutSeconds := x }))]

def outputSlots : List (String × Slot) :=
  let put (f : OutputSettings → OutputSettings) (s : Settings) := { s with output := f s.output }
  [("format", .text (·.output.format) fun x => put ({ · with format := x })),
   ("color", .bool (·.output.color) fun x => put ({ · with color := x })),
   ("verbose", .bool (·.output.verbose) fun x => put ({ · with verbose := x }))]

def sections : List (String × List (String × Slot)) :=
  [("cycles", cycleSlots), ("metrics", metricSlots), ("deletion", deletionSlots),
   ("validation", validationSlots),
   ("store", [("path", .text (·.storePath) fun x s => { s with storePath := x })]),
   ("output", outputSlots)]

/-! ## Reading -/

/-- A text, empty if there is none. -/
def textItem? : Datum → Option String
  | .null => some ""
  | d => d.text?

/-- A rule; what it does not say is empty. -/
def ruleItem? : Datum → Option LayerRule
  | .null => some ⟨"", ""⟩
  | d => do
    let entries ← d.entries?
    let field (name : String) := ((Datum.named? name entries).map textItem?).getD (some "")
    let pattern ← field "pattern"
    let layer ← field "layer"
    return ⟨pattern, layer⟩

/-- Change a setting; `none` if the data is of the wrong kind. -/
def Slot.read? (slot : Slot) (d : Datum) (s : Settings) : Option Settings :=
  match slot with
  | .int _ set => d.int?.map (set · s)
  | .float _ set => d.float?.map (set · s)
  | .bool _ set => d.bool?.map (set · s)
  | .text _ set => d.text?.map (set · s)
  | .texts _ set => (d.items.mapM textItem?).map (set · s)
  | .rules _ set => (d.items.mapM ruleItem?).map (set · s)

def readSection? (slots : List (String × Slot)) (entries : List (String × Datum)) (s : Settings) :
    Option Settings :=
  slots.foldlM (fun s (name, slot) =>
    match Datum.named? name entries with
    | none => some s
    | some .null => some s
    | some d => slot.read? d s) s

/-- The usual settings, changed by the data of a file. Unknown names are ignored. -/
def ofDatum? (d : Datum) : Option Settings := do
  let entries ← match d with
    | .null => some []
    | d => d.entries?
  sections.foldlM (fun s (name, slots) =>
    match Datum.named? name entries with
    | none => some s
    | some .null => some s
    | some d => d.entries?.bind (readSection? slots · s)) {}

/-! ## Writing -/

def Slot.literal? (slot : Slot) (s : Settings) : Option String :=
  match slot with
  | .int get _ => some (Decimal.intText (get s))
  | .float get _ => some (Toml.floatLiteral (get s))
  | .bool get _ => some (if get s then "true" else "false")
  | .text get _ => some (Toml.textLiteral (get s))
  | .texts get _ => some (Toml.listLiteral ((get s).map Toml.textLiteral))
  | .rules _ _ => none

def Slot.tables? (slot : Slot) (s : Settings) : Option (List (List (String × String))) :=
  match slot with
  | .rules get _ =>
    (get s).map fun rules => rules.map fun r =>
      [("Layer", Toml.textLiteral r.layer), ("Pattern", Toml.textLiteral r.pattern)]
  | _ => none

def toToml (s : Settings) : String :=
  Toml.print (sections.map fun (name, slots) =>
    { name
      entries := slots.filterMap fun (n, slot) => (slot.literal? s).map (n, ·)
      lists := slots.filterMap fun (n, slot) => (slot.tables? s).map (n, ·) })

end Deadwood.Settings
