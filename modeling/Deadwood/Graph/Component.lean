import Deadwood.Graph.Reach

/-!
# Strongly connected components

Two nodes belong together if each reaches the other. Only components of two or more nodes are of
interest here: a node alone lies on a cycle only if it calls itself.

## Main definitions

* `CallGraph.componentOf`: the nodes that belong to a node.
* `CallGraph.classes`: all components, in some order.
* `arranged`, `CallGraph.components`: the components of two or more nodes in their order.
-/

namespace Deadwood

/-- Of some components those of two or more nodes, each ascending, ordered by their smallest
nodes. -/
def arranged (cs : List (List Nat)) : List (List Nat) :=
  ((cs.filter fun c => 2 ≤ c.length).map fun c => c.mergeSort (· ≤ ·)).mergeSort
    fun c c' => c.headD 0 ≤ c'.headD 0

namespace CallGraph

/-- The nodes that reach a node and are reached from it, in ascending order. -/
def componentOf (g : CallGraph) (i : Nat) : List Nat :=
  let back := g.reachingNodes [i]
  (g.reachableNodes [i]).filter back.contains

/-- The components that hold one of the given nodes, behind those already found. -/
def classesFrom (g : CallGraph) : List Nat → List (List Nat) → List (List Nat)
  | [], found => found
  | i :: rest, found =>
    if found.any (·.contains i) then classesFrom g rest found
    else classesFrom g rest (g.componentOf i :: found)

def classes (g : CallGraph) : List (List Nat) :=
  g.classesFrom g.nodes []

/-- The components of two or more nodes, each ascending, ordered by their smallest nodes. -/
def components (g : CallGraph) : List (List Nat) :=
  arranged g.classes

end CallGraph

end Deadwood
