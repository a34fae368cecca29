import Deadwood.Code.CallEdge
import Deadwood.Sorted

/-!
# Call graphs

The functions that call or are called, numbered in the order of their ids, with the distinct targets
and sources of each. Calls out of the analysed code are no part of the graph, and a function that
calls itself is marked instead of being its own neighbour.

## Main definitions

* `Arrows`, `Arrows.read`: targets and sources, arrow by arrow.
* `CallGraph`, `CallGraph.ofEdges`: the graph of a list of calls.
* `CallGraph.idAt`, `CallGraph.index?`: ids and numbers of nodes.
* `CallGraph.succ`, `CallGraph.pred`, `CallGraph.hasLoop`: its arrows.
-/

namespace Deadwood

/-! ## Reading arrows -/

/-- Put a number in its place among ascending ones, unless it is there already. -/
def insertNat (n : Nat) : List Nat → List Nat
  | [] => [n]
  | m :: rest =>
    if n < m then n :: m :: rest else if n = m then m :: rest else m :: insertNat n rest

/-- What is known of the arrows of a graph after some of them were read. -/
structure Arrows where
  /-- The targets of each node, ascending. -/
  targets : List (List Nat)
  /-- The sources of each node, in the order in which they were found. -/
  sources : List (List Nat)
  /-- The nodes with an arrow to themselves, ascending. -/
  loops : List Nat := []

namespace Arrows

def row (rows : List (List Nat)) (i : Nat) : List Nat :=
  (rows[i]?).getD []

/-- Read one more arrow, from `a` to `b`. Only the first of several arrows between two nodes
counts. -/
def add (as : Arrows) (a b : Nat) : Arrows :=
  if a = b then { as with loops := insertNat a as.loops }
  else if (row as.targets a).contains b then as
  else
    { as with
      targets := as.targets.modify a (insertNat b)
      sources := as.sources.modify b (· ++ [a]) }

/-- Read some arrows between `n` nodes. -/
def read (n : Nat) (pairs : List (Nat × Nat)) : Arrows :=
  let empty := List.replicate n []
  pairs.foldl (fun as p => as.add p.1 p.2) { targets := empty, sources := empty }

end Arrows

/-! ## Graphs -/

/-- A call graph over nodes `0, 1, …`. -/
structure CallGraph where
  /-- The ids of the nodes, ascending and distinct. -/
  ids : Array String
  /-- The targets of each node, ascending and distinct, without the node itself. -/
  successors : Array (List Nat)
  /-- The sources of each node, ascending and distinct, without the node itself. -/
  predecessors : Array (List Nat)
  /-- The nodes that call themselves, ascending. -/
  loops : List Nat

namespace CallGraph

variable {R : Type}

/-- The ids that take part in calls, and some further ones, in ascending order. -/
def nodeIds (edges : List (CallEdge R)) (extra : List String) : List String :=
  distinctTexts (extra ++ edges.flatMap fun e => if e.isInternal then [e.caller, e.callee] else [])

def arrows (ids : List String) (edges : List (CallEdge R)) : List (Nat × Nat) :=
  edges.filterMap fun e =>
    if e.isInternal then
      match ids.idxOf? e.caller, ids.idxOf? e.callee with
      | some a, some b => some (a, b)
      | _, _ => none
    else none

def ofEdges (edges : List (CallEdge R)) (extra : List String) : CallGraph :=
  let ids := nodeIds edges extra
  let read := Arrows.read ids.length (arrows ids edges)
  { ids := ids.toArray
    successors := read.targets.toArray
    predecessors := (read.sources.map (·.mergeSort (· ≤ ·))).toArray
    loops := read.loops }

def size (g : CallGraph) : Nat :=
  g.ids.size

def nodes (g : CallGraph) : List Nat :=
  List.range g.size

/-- The id of a node; empty if there is no such node. -/
def idAt (g : CallGraph) (i : Nat) : String :=
  (g.ids[i]?).getD ""

def index? (g : CallGraph) (id : String) : Option Nat :=
  g.ids.toList.idxOf? id

def succ (g : CallGraph) (i : Nat) : List Nat :=
  (g.successors[i]?).getD []

def pred (g : CallGraph) (i : Nat) : List Nat :=
  (g.predecessors[i]?).getD []

def hasLoop (g : CallGraph) (i : Nat) : Bool :=
  g.loops.contains i

/-- The nodes that some ids stand for, in the order of the ids. Unknown ids are ignored. -/
def indices (g : CallGraph) (ids : List String) : List Nat :=
  ids.filterMap g.index?

end CallGraph

end Deadwood
