import Deadwood.Code.FunctionIndex
import Deadwood.Cycle.Search

/-!
# Reachable functions

Which functions the entry points reach through the calls of a snapshot, which they do not reach, and
which calls are left out because they name unknown functions.

## Main definitions

* `reachableFrom`, `unreachableFunctions`: the two sides.
* `Reachability`, `Reachability.analyze`: a full pass over a snapshot.
-/

namespace Deadwood

variable {R : Type}

/-- The ids that the entries reach, the entries included, in ascending order. -/
def reachableFrom (entries : List String) (edges : List (CallEdge R)) : List String :=
  (CallGraph.ofEdges edges entries).reachable entries

/-- The functions that are not among the reachable ones, ordered by id. Of several functions with
one id only the first counts. -/
def unreachableFunctions (fs : List FunctionRecord) (reachable : List String) :
    List FunctionRecord :=
  (keepFirst (·.id) (fs.filter fun f => !reachable.contains f.id)).mergeSort
    (fun a b => a.id ≤ b.id)

/-- What a pass over a snapshot finds. -/
structure Reachability (R : Type) where
  reachable : List String
  unreachable : List FunctionRecord
  cycles : CycleReport
  validEdges : List (CallEdge R)
  problems : List EdgeProblem

/-- Follow the calls with known ends from the entries, and look for cycles among them. -/
def Reachability.analyze (limits : CycleLimits) (fs : List FunctionRecord)
    (edges : List (CallEdge R)) (entries : List String) : Reachability R :=
  let (valid, problems) := (FunctionIndex.ofList fs).checkEdges edges
  let reachable := reachableFrom entries valid
  { reachable
    unreachable := unreachableFunctions fs reachable
    cycles := findCycles limits valid
    validEdges := valid
    problems }

end Deadwood
