import Deadwood.Code.FunctionRecord
import Deadwood.Graph.Reach
import Deadwood.Json.Record
import Deadwood.Sorted.Quick

/-!
# Dependency metrics

How many calls lead into and out of every function, how far it is from the entry points, and which
functions stand out.

## Main definitions

* `FunctionMetrics`, `dependencyMetrics`: the numbers of each function.
* `StatsOptions`, `DependencyStats`, `DependencyStats.of`: a summary of them.
-/

namespace Deadwood

/-- The numbers of one function. -/
structure FunctionMetrics where
  functionId : String := ""
  functionName : String := ""
  filePath : String := ""
  fanIn : Int := 0
  fanOut : Int := 0
  /-- Calls from the nearest entry point; `-1` if there is no way from one. -/
  depth : Int := 0
  isCyclic : Bool := false
  isEntryPoint : Bool := false
  deriving Repr, DecidableEq, Inhabited

namespace FunctionMetrics

def isReachable (m : FunctionMetrics) : Bool :=
  0 ≤ m.depth

/-- Whether no call touches the function and nothing outside calls it. -/
def isIsolated (m : FunctionMetrics) : Bool :=
  m.fanIn = 0 && m.fanOut = 0 && !m.isEntryPoint

end FunctionMetrics

section Calculation

variable {R : Type}

def startsKnown (known : List String) (e : CallEdge R) : Bool :=
  known.contains e.caller

def staysKnown (known : List String) (e : CallEdge R) : Bool :=
  startsKnown known e && e.isInternal && known.contains e.callee

/-- The metrics of every function, in the order of the functions. Calls to unknown functions count
for their callers only. -/
def dependencyMetrics (fs : List FunctionRecord) (edges : List (CallEdge R))
    (entries cyclic : List String) : List FunctionMetrics :=
  let known := fs.map (·.id)
  let starts := distinctTexts (entries.filter known.contains)
  let outgoing := (edges.filter (startsKnown known)).map (·.caller)
  let inner := edges.filter (staysKnown known)
  let incoming := inner.map (·.callee)
  let depths := (CallGraph.ofEdges inner starts).distances starts
  fs.map fun f =>
    { functionId := f.id
      functionName := f.displayName
      filePath := f.filePath
      fanIn := incoming.count f.id
      fanOut := outgoing.count f.id
      depth := ((depths.lookup f.id).map Int.ofNat).getD (-1)
      isCyclic := cyclic.contains f.id
      isEntryPoint := entries.contains f.id }

end Calculation

/-! ## Summary -/

/-- From which counts on a function stands out, and how many such functions are listed. -/
structure StatsOptions where
  hubThreshold : Int := 5
  utilityThreshold : Int := 5
  maxHubs : Int := 10
  maxUtilities : Int := 10
  deriving Repr, DecidableEq

/-- The options with the usual value in place of each that is not positive. -/
def StatsOptions.effective (o : StatsOptions) : StatsOptions :=
  let usual : StatsOptions := {}
  let pick (given fallback : Int) := if given ≤ 0 then fallback else given
  { hubThreshold := pick o.hubThreshold usual.hubThreshold
    utilityThreshold := pick o.utilityThreshold usual.utilityThreshold
    maxHubs := pick o.maxHubs usual.maxHubs
    maxUtilities := pick o.maxUtilities usual.maxUtilities }

/-- A summary of the metrics of many functions. -/
structure DependencyStats where
  total : Nat
  averageFanIn : Float
  averageFanOut : Float
  maxFanIn : Int
  maxFanOut : Int
  maxDepth : Int
  unreachable : Nat
  cyclic : Nat
  hubs : List FunctionMetrics
  utilities : List FunctionMetrics
  isolated : List FunctionMetrics
  hubThreshold : Int
  utilityThreshold : Int
  totalHubs : Nat
  totalUtilities : Nat

namespace DependencyStats

/-- The sum of some counts as a word. -/
def total64 (ns : List Int) : Int :=
  ns.foldl (fun sum n => Word.wrap (sum + n)) 0

/-- The largest of some counts, and zero if none is positive. -/
def largest (ns : List Int) : Int :=
  ns.foldl max 0

/-- The mean of some counts; zero if there are none. -/
def mean (ns : List Int) : Float :=
  if ns.isEmpty then 0 else Float.ofInt (total64 ns) / Float.ofNat ns.length

/-- Functions with the largest counts first; equal counts are ordered by id. -/
def byCount (count : FunctionMetrics → Int) (ms : List FunctionMetrics) : List FunctionMetrics :=
  ms.mergeSort fun a b =>
    if count a = count b then a.functionId ≤ b.functionId else count b < count a

def of (o : StatsOptions) (ms : List FunctionMetrics) : DependencyStats :=
  let o := o.effective
  let hubs := byCount (·.fanIn) (ms.filter fun m => o.hubThreshold ≤ m.fanIn)
  let utilities := byCount (·.fanOut) (ms.filter fun m => o.utilityThreshold ≤ m.fanOut)
  { total := ms.length
    averageFanIn := mean (ms.map (·.fanIn))
    averageFanOut := mean (ms.map (·.fanOut))
    maxFanIn := largest (ms.map (·.fanIn))
    maxFanOut := largest (ms.map (·.fanOut))
    maxDepth := largest (ms.map (·.depth))
    unreachable := ms.countP fun m => !m.isReachable
    cyclic := ms.countP (·.isCyclic)
    hubs := hubs.take o.maxHubs.toNat
    utilities := utilities.take o.maxUtilities.toNat
    isolated := sortedBy (fun a b => a.functionId < b.functionId) (ms.filter (·.isIsolated))
    hubThreshold := o.hubThreshold
    utilityThreshold := o.utilityThreshold
    totalHubs := hubs.length
    totalUtilities := utilities.length }

end DependencyStats

/-! ## Written form -/

open Json.Reader (at_)

namespace FunctionMetrics

def toJson (m : FunctionMetrics) : Json :=
  .object [
    ("function_id", .text m.functionId),
    ("function_name", .text m.functionName),
    ("file_path", .text m.filePath),
    ("fan_in", .int m.fanIn),
    ("fan_out", .int m.fanOut),
    ("depth_from_entry", .int m.depth),
    ("is_cyclic", .bool m.isCyclic),
    ("is_entry_point", .bool m.isEntryPoint)]

def reader : Json.Reader FunctionMetrics :=
  .record [
    at_ "function_id" .text (·.functionId) ({ · with functionId := · }),
    at_ "function_name" .text (·.functionName) ({ · with functionName := · }),
    at_ "file_path" .text (·.filePath) ({ · with filePath := · }),
    at_ "fan_in" .int (·.fanIn) ({ · with fanIn := · }),
    at_ "fan_out" .int (·.fanOut) ({ · with fanOut := · }),
    at_ "depth_from_entry" .int (·.depth) ({ · with depth := · }),
    at_ "is_cyclic" .bool (·.isCyclic) ({ · with isCyclic := · }),
    at_ "is_entry_point" .bool (·.isEntryPoint) ({ · with isEntryPoint := · })]

end FunctionMetrics

def DependencyStats.toJson (s : DependencyStats) : Json :=
  .object [
    ("total_functions", .nat s.total),
    ("avg_fan_in", .float s.averageFanIn),
    ("avg_fan_out", .float s.averageFanOut),
    ("max_fan_in", .int s.maxFanIn),
    ("max_fan_out", .int s.maxFanOut),
    ("max_depth", .int s.maxDepth),
    ("unreachable_count", .nat s.unreachable),
    ("cyclic_count", .nat s.cyclic),
    ("hub_functions", .list (s.hubs.map (·.toJson))),
    ("utility_functions", .list (s.utilities.map (·.toJson))),
    ("isolated_functions", .list (s.isolated.map (·.toJson))),
    ("hub_threshold", .int s.hubThreshold),
    ("utility_threshold", .int s.utilityThreshold),
    ("total_hub_count", .nat s.totalHubs),
    ("total_utility_count", .nat s.totalUtilities)]

end Deadwood
