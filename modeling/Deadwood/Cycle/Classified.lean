import Deadwood.Code.FunctionIndex
import Deadwood.Cycle.Boundary
import Deadwood.Cycle.Search
import Deadwood.Hash.XxHash
import Deadwood.Json.Record
import Deadwood.Text.Quoted
import Deadwood.Text.Utf8

/-!
# Classified cycles

A cycle with the boundaries it crosses, its importance, its score and what to do about it.

## Main definitions

* `CycleType`, `Importance`: how long a cycle is, and how bad.
* `ClassifiedCycle`, `ClassifiedCycle.ofCycle`: a cycle with its classification.
* `ClassifiedCycle.severity`, `ClassifiedCycle.advice`: its score and the advice on it.
-/

namespace Deadwood

/-- Kinds of cycles by the number of their functions. -/
inductive CycleType where
  | recursive
  | mutualCalls
  | complex
  | other (name : String)
  deriving Repr, DecidableEq, Inhabited

namespace CycleType

def name : CycleType → String
  | recursive => "RECURSIVE"
  | mutualCalls => "MUTUAL"
  | complex => "COMPLEX"
  | other n => n

def ofName (s : String) : CycleType :=
  match s with
  | "RECURSIVE" => recursive
  | "MUTUAL" => mutualCalls
  | "COMPLEX" => complex
  | s => other s

/-- One function is recursive, two or three call each other, more are complex. -/
def ofLength (n : Int) : CycleType :=
  if n ≤ 1 then recursive else if n ≤ 3 then mutualCalls else complex

end CycleType

/-- How severely a cycle violates boundaries. -/
inductive Importance where
  | critical
  | high
  | medium
  | low
  | other (name : String)
  deriving Repr, DecidableEq, Inhabited

namespace Importance

def name : Importance → String
  | critical => "CRITICAL"
  | high => "HIGH"
  | medium => "MEDIUM"
  | low => "LOW"
  | other n => n

def ofName (s : String) : Importance :=
  match s with
  | "CRITICAL" => critical
  | "HIGH" => high
  | "MEDIUM" => medium
  | "LOW" => low
  | s => other s

/-- A weight; more severe is larger. -/
def rank : Importance → Nat
  | critical => 4
  | high => 3
  | medium => 2
  | low => 1
  | other _ => 0

def baseScore : Importance → Float
  | critical => 7
  | high => 5
  | medium => 3
  | low => 1
  | other _ => 0

end Importance

structure ClassifiedCycle where
  id : String := ""
  nodes : List String := []
  functionNames : List String := []
  type : CycleType := .other ""
  importance : Importance := .other ""
  score : Float := 0
  crossFile : Bool := false
  crossModule : Bool := false
  crossLayer : Bool := false
  fileCount : Int := 0
  moduleCount : Int := 0
  layerCount : Int := 0
  complexity : Int := 0
  averageComplexity : Float := 0
  recommendations : List String := []

/-- A name for a cycle that depends on its functions and their order only. -/
def Cycle.digest (c : Cycle) : String :=
  "cycle-" ++ Text.hexDigits 16 (XxHash.hash (Text.utf8 (Text.join "\x00" c))).toNat

namespace ClassifiedCycle

def size (c : ClassifiedCycle) : Nat :=
  c.nodes.length

/-- The importance is that of the widest boundary that is crossed. -/
def importanceOf (crossFile crossModule crossLayer : Bool) : Importance :=
  if crossLayer then .critical
  else if crossModule then .high
  else if crossFile then .medium
  else .low

def capped (bound x : Float) : Float :=
  if bound < x then bound else x

/-- The score grows with importance, size and complexity, stays between 0 and 10 and has two
decimal places. -/
def severity (c : ClassifiedCycle) : Float :=
  let bySize := capped 1.5 (0.25 * Float.ofInt ((c.size : Int) - 1))
  let byComplexity := capped 1.5 (Float.ofInt c.complexity / 20)
  let total := c.importance.baseScore + bySize + byComplexity
  let total := capped 10 total
  let total := if total ≤ 0 then 0 else total
  Float.round (total * 100) / 100

/-- The advice on a cycle: every rule that applies, in a fixed order. -/
def advice (c : ClassifiedCycle) : List String :=
  (if c.crossLayer then
    ["URGENT: Cross-layer cycle violates architectural boundaries",
      "Introduce an interface or event boundary between layers"] else [])
  ++ (if c.crossModule then ["Extract shared logic into a common module"] else [])
  ++ (if 4 ≤ c.size then ["Break into smaller, focused components"] else [])
  ++ (if c.type = .recursive then ["Verify the recursion has a guaranteed base case"] else [])
  ++ (if 30 ≤ c.complexity then
    ["Reduce complexity of participating functions before refactoring"] else [])
  ++ (if c.type = .mutualCalls && !c.crossFile then
    ["Consider merging or inverting the dependency"] else [])

def distinctCount (ss : List String) : Nat :=
  (distinctTexts ss).length

/-- Classify a cycle. Ids that are no known functions count for its size only. -/
def ofCycle (idx : FunctionIndex) (b : Boundaries) (c : Cycle) : ClassifiedCycle :=
  let fs := c.filterMap idx.get?
  let files := distinctCount (fs.map (·.filePath))
  let modules := distinctCount (fs.map fun f => b.module f.filePath)
  let layers := distinctCount (fs.map fun f => b.layer f.filePath)
  let complexity := fs.foldl (fun sum f => Word.wrap (sum + f.complexity)) 0
  let bare : ClassifiedCycle :=
    { id := c.digest
      nodes := c
      functionNames := c.map fun id => ((idx.get? id).map (·.displayName)).getD id
      type := .ofLength c.length
      importance := importanceOf (1 < files) (1 < modules) (1 < layers)
      crossFile := 1 < files
      crossModule := 1 < modules
      crossLayer := 1 < layers
      fileCount := files
      moduleCount := modules
      layerCount := layers
      complexity
      averageComplexity :=
        if c.isEmpty then 0 else Float.ofInt complexity / Float.ofNat c.length }
  { bare with score := bare.severity, recommendations := bare.advice }

/-- Higher scores come first; equal scores are ordered by id. -/
def before (a b : ClassifiedCycle) : Bool :=
  if a.score == b.score then a.id ≤ b.id else b.score < a.score

def ranked (cs : List ClassifiedCycle) : List ClassifiedCycle :=
  cs.mergeSort before

/-! ## Written form -/

open Json.Reader (at_)

def toJson (c : ClassifiedCycle) : Json :=
  .object [
    ("id", .text c.id),
    ("nodes", Json.listOrNull (c.nodes.map .text)),
    ("function_names", .texts c.functionNames),
    ("type", .text c.type.name),
    ("importance", .text c.importance.name),
    ("score", .float c.score),
    ("cross_file", .bool c.crossFile),
    ("cross_module", .bool c.crossModule),
    ("cross_layer", .bool c.crossLayer),
    ("file_count", .int c.fileCount),
    ("module_count", .int c.moduleCount),
    ("layer_count", .int c.layerCount),
    ("cyclomatic_complexity", .int c.complexity),
    ("average_complexity", .float c.averageComplexity),
    ("recommendations", .texts c.recommendations)]

def textsReader : Json.Reader (List String) :=
  fun vs old => (Json.Reader.list "" .text vs (some old)).map (·.getD [])

def reader : Json.Reader ClassifiedCycle :=
  .record [
    at_ "id" .text (·.id) ({ · with id := · }),
    at_ "nodes" textsReader (·.nodes) ({ · with nodes := · }),
    at_ "function_names" textsReader (·.functionNames) ({ · with functionNames := · }),
    at_ "type" .text (·.type.name) (fun c s => { c with type := .ofName s }),
    at_ "importance" .text (·.importance.name) (fun c s => { c with importance := .ofName s }),
    at_ "score" .float (·.score) ({ · with score := · }),
    at_ "cross_file" .bool (·.crossFile) ({ · with crossFile := · }),
    at_ "cross_module" .bool (·.crossModule) ({ · with crossModule := · }),
    at_ "cross_layer" .bool (·.crossLayer) ({ · with crossLayer := · }),
    at_ "file_count" .int (·.fileCount) ({ · with fileCount := · }),
    at_ "module_count" .int (·.moduleCount) ({ · with moduleCount := · }),
    at_ "layer_count" .int (·.layerCount) ({ · with layerCount := · }),
    at_ "cyclomatic_complexity" .int (·.complexity) ({ · with complexity := · }),
    at_ "average_complexity" .float (·.averageComplexity) ({ · with averageComplexity := · }),
    at_ "recommendations" textsReader (·.recommendations) ({ · with recommendations := · })]

end ClassifiedCycle

end Deadwood
