import Deadwood.CommandLine.Workspace
import Deadwood.Evidence.Query
import Deadwood.Pruning.Candidate

/-!
# Analysis commands

The commands that only look: call cycles, dependency metrics and functions that could be deleted.

## Main definitions

* `showCycles`, `showMetrics`, `showDead`: the commands.
* `Workspace.metrics`: the metrics of a workspace.
* `candidateTable`: functions that could be deleted, as a table.
-/

namespace Deadwood.CommandLine

def chosen {α : Type} (given : Option α) (usual : α) : α :=
  given.getD usual

def cell (s : String) : Bytes :=
  Text.utf8 s

/-! ## Cycles -/

def cycleOptions (flags : Given) (o : CycleOptions) : CycleOptions :=
  { o with
    minSize := chosen (flags.integer? "min-size") o.minSize
    maxLength := chosen (flags.integer? "max-length") o.maxLength
    maxCycles := chosen (flags.integer? "max-cycles") o.maxCycles
    excludeRecursive := chosen (flags.toggle? "exclude-recursive") o.excludeRecursive
    excludeClear := chosen (flags.toggle? "exclude-clear") o.excludeClear
    minComplexity := chosen (flags.integer? "min-complexity") o.minComplexity
    crossLayerOnly := chosen (flags.toggle? "cross-layer-only") o.crossLayerOnly
    recursiveOnly := chosen (flags.toggle? "recursive-only") o.recursiveOnly
    limit := chosen (flags.integer? "limit") o.limit }

def callChain (c : ClassifiedCycle) : String :=
  Text.join " -> " c.functionNames

def cycleRow (w : Writer) (c : ClassifiedCycle) : Action (List Bytes) := do
  let importance ← w.severity c.importance.name
  let spread := Text.join "/" ([c.fileCount, c.moduleCount, c.layerCount].map Decimal.intText)
  return [cell importance, cell (fixedText 2 c.score), cell c.type.name,
    cell (Decimal.digitText c.size), cell spread, shorten 80 (callChain c)]

def cycleSummary (o : CycleOverview) : String :=
  let n := Decimal.digitText
  let c := o.counts
  "critical " ++ n c.critical ++ ", high " ++ n c.high ++ ", medium " ++ n c.medium
    ++ ", low " ++ n c.low ++ " (recursive " ++ n c.recursive ++ ", mutual " ++ n c.mutualCalls
    ++ ", complex " ++ n c.complex ++ ")\n" ++ n o.stats.listed ++ " of " ++ n o.stats.total
    ++ " cycles shown"

def cycleAdvice (c : ClassifiedCycle) : String :=
  if c.recommendations.isEmpty then ""
  else "\n" ++ c.id ++ " " ++ callChain c ++ "\n"
    ++ String.join (c.recommendations.map fun r => "  - " ++ r ++ "\n")

def cycleShape : Toon.Shape where
  lists := ["cycles", "nodes", "function_names", "recommendations"]

def showCycles (flags : Given) : Action Unit := do
  let ws ← Workspace.load flags
  let file := flags.text "layers"
  let settings :=
    if file = "" then ws.settings
    else { ws.settings with cycles := { ws.settings.cycles with layersFile := file } }
  let options ← Action.ofExcept (settings.cycleOptions (sourceRoot ws.snapshot flags) (← get).disk)
  let overview := cycleOverview (cycleOptions flags options) ws.functions ws.edges
  let w ← Writer.make settings flags
  if w.wantsData then w.output cycleShape (.raw overview.toJson)
  else if overview.cycles.isEmpty then Action.announce .success "No cycles found"
  else
    let rows ← overview.cycles.mapM (cycleRow w)
    let table : Table :=
      { headers := ["Importance", "Score", "Type", "Size", "Files/Modules/Layers", "Functions"]
        rows
        data := some overview.toJson }
    w.output cycleShape
      (.report "Call Cycles" [.table table, .prose (.mk "Summary" (cycleSummary overview) [] none)]
        none)
    if settings.output.verbose then
      w.write (Text.utf8 (String.join (overview.cycles.map cycleAdvice)))
    if overview.truncated then
      w.say .warning
        "cycle enumeration hit its cap; raise --max-cycles or --max-length for a complete list"

/-! ## Metrics -/

def metricsRow (m : FunctionMetrics) : List Bytes :=
  [shorten 40 m.functionName, shorten 50 m.filePath, cell (Decimal.intText m.fanIn),
    cell (Decimal.intText m.fanOut), cell (if m.isReachable then Decimal.intText m.depth else "-"),
    cell (yesNo m.isCyclic)]

def metricsTable (title : String) (ms : List FunctionMetrics) : List Block :=
  if ms.isEmpty then []
  else
    [.table
      { title
        headers := ["Function", "File", "Fan-in", "Fan-out", "Depth", "Cyclic"]
        rows := ms.map metricsRow
        data := some (.list (ms.map (·.toJson))) }]

def metricsSummary (s : DependencyStats) : String :=
  let n := Decimal.digitText
  let i := Decimal.intText
  "functions " ++ n s.total ++ ", avg fan-in " ++ fixedText 2 s.averageFanIn
    ++ ", avg fan-out " ++ fixedText 2 s.averageFanOut ++ ", max fan-in " ++ i s.maxFanIn
    ++ ", max fan-out " ++ i s.maxFanOut ++ "\nmax depth " ++ i s.maxDepth
    ++ ", unreachable " ++ n s.unreachable ++ ", cyclic " ++ n s.cyclic

def metricsShape : Toon.Shape where
  lists := ["hub_functions", "utility_functions", "isolated_functions", "metrics"]

def Workspace.metrics (ws : Workspace) : List FunctionMetrics :=
  let rules : EntryRules := { patterns := ws.settings.deletion.entryPatterns }
  let cyclic := (CallGraph.ofEdges ws.edges []).cyclicIds
  dependencyMetrics ws.functions ws.edges (rules.ids ws.functions) cyclic

def showMetrics (flags : Given) : Action Unit := do
  let ws ← Workspace.load flags
  let o := ws.settings.metrics
  let options : StatsOptions :=
    { hubThreshold := chosen (flags.integer? "hub-threshold") o.hubThreshold
      utilityThreshold := chosen (flags.integer? "utility-threshold") o.utilityThreshold
      maxHubs := chosen (flags.integer? "max-hubs") o.maxHubs
      maxUtilities := chosen (flags.integer? "max-utilities") o.maxUtilities }
  let metrics := ws.metrics
  let stats := DependencyStats.of options metrics
  let w ← Writer.make ws.settings flags
  let listed := flags.isOn "all" && !metrics.isEmpty
  let data : Json := .object <|
    [("snapshot_id", .text ws.snapshot.id), ("stats", stats.toJson)]
    ++ if listed then [("metrics", .list (metrics.map (·.toJson)))] else []
  if w.wantsData then w.output metricsShape (.raw data)
  else
    let bound (word : String) (least : Int) (total : Nat) : String :=
      word ++ " >= " ++ Decimal.intText least ++ ", " ++ Decimal.digitText total ++ " total)"
    let parts :=
      Block.prose (.mk "Summary" (metricsSummary stats) [] none)
      :: metricsTable ("Hubs (" ++ bound "fan-in" stats.hubThreshold stats.totalHubs) stats.hubs
      ++ metricsTable ("Utilities (" ++ bound "fan-out" stats.utilityThreshold stats.totalUtilities)
        stats.utilities
      ++ metricsTable ("Isolated (" ++ Decimal.digitText stats.isolated.length ++ ")")
        stats.isolated
    w.output metricsShape (.report "Dependency Metrics" parts (some data))

/-! ## Functions that could be deleted -/

def pruneOptions (flags : Given) (ws : Workspace) : PruneOptions Float :=
  let o := ws.settings.pruneOptions ws.snapshot.id (sourceRoot ws.snapshot flags)
  { o with
    confidenceThreshold := chosen (flags.number? "confidence-threshold") o.confidenceThreshold
    candidateMinConfidence := chosen (flags.number? "min-confidence") o.candidateMinConfidence
    includeExports := chosen (flags.toggle? "include-exports") o.includeExports
    includeStaticMethods := chosen (flags.toggle? "include-static") o.includeStaticMethods
    excludeTests := o.excludeTests && !flags.isOn "include-tests"
    excludePatterns := o.excludePatterns ++ flags.texts "exclude"
    entryPatterns := o.entryPatterns ++ flags.texts "entry"
    execute := chosen (flags.toggle? "execute") o.execute
    dryRun := chosen (flags.toggle? "dry-run") o.dryRun
    maxPerBatch := chosen (flags.integer? "batch-size") o.maxPerBatch }

def evidenceFor (flags : Given) (ws : Workspace) (f : FunctionRecord) : Evidence Float :=
  let failClosed := chosen (flags.toggle? "fail-closed") ws.settings.deletion.failClosed
  Evidence.of (SnapshotStore.typeSource ws.database ws.snapshot.id) failClosed ws.snapshot.id f.id

def candidateRow (w : Writer) (c : Candidate Float) : Action (List Bytes) := do
  let impact ← w.severity c.impact.name
  let f := c.function
  let place := f.filePath ++ ":" ++ Decimal.intText f.startLine ++ "-" ++ Decimal.intText f.endLine
  return [cell place, shorten 40 f.displayName, cell c.reason.name,
    cell (fixedText 0 (c.confidence * 100) ++ "%"), cell (Decimal.digitText c.callers), cell impact]

def candidateTable (w : Writer) (title : String) (cs : List (Candidate Float)) : Action Block := do
  let rows ← cs.mapM (candidateRow w)
  return .table
    { title
      headers := ["Location", "Function", "Reason", "Confidence", "Callers", "Impact"]
      rows
      footer := [Decimal.digitText cs.length ++ " function(s)", "", "", "", "", ""]
      data := some (.list (cs.map (·.toJson))) }

def protectedRow (p : ProtectedFunction Float) : List Bytes :=
  [cell (p.function.filePath ++ ":" ++ Decimal.intText p.function.startLine),
    cell p.function.displayName, cell (fixedText 2 p.evidence.score),
    cell (p.evidence.reason.getD "")]

def candidateShape : Toon.Shape where
  lists := ["candidates", "protected", "warnings", "implemented_interfaces", "implementing_classes",
    "candidate_functions", "deleted_functions", "skipped_functions", "errors"]
  foreign := [("estimated_impact", "models.Impact")]

def showDead (flags : Given) : Action Unit := do
  let ws ← Workspace.load flags
  let options := pruneOptions flags ws
  match options.problem? with
  | some p => throw p.fault
  | none => pure ()
  let selection := select options ws.functions ws.edges (some (evidenceFor flags ws))
  let w ← Writer.make ws.settings flags
  if w.wantsData then w.output candidateShape (.raw selection.toJson)
  else
    if selection.candidates.isEmpty then Action.announce .success "No deletion candidates found"
    else
      w.output candidateShape (← candidateTable w "Deletion Candidates" selection.candidates)
    if !selection.shielded.isEmpty then
      w.output candidateShape <| .table
        { title := "Protected by Type Evidence"
          headers := ["Location", "Function", "Score", "Reason"]
          rows := selection.shielded.map protectedRow
          data := some (.list (selection.shielded.map (·.toJson))) }
    for warning in selection.warnings do
      w.say .warning warning

end Deadwood.CommandLine
