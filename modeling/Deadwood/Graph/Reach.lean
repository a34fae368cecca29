import Deadwood.Graph.Basic

/-!
# Reachability in call graphs

Nodes are looked at in the order in which they are found: first the starts, then the targets of the
first start that were not found before, and so on. A node goes into the queue when it is found, and
only once.

## Main definitions

* `drain`: work through a queue that grows meanwhile.
* `Sweep`, `Sweep.run`: the nodes that are found.
* `Survey`, `Survey.run`: how far away they are.
* `CallGraph.reachable`, `CallGraph.distances`: what some ids reach, and how far away it is.
-/

namespace Deadwood

/-- Handle the nodes of a queue one after the other, also those that are added meanwhile. Those
before position `head` are done. At most `rounds` nodes are handled. -/
def drain {σ : Type} (queue : σ → List Nat) (handle : Nat → σ → σ) : Nat → Nat → σ → σ
  | 0, _, s => s
  | rounds + 1, head, s =>
    match (queue s)[head]? with
    | none => s
    | some i => drain queue handle rounds (head + 1) (handle i s)

/-! ## Which nodes are found -/

structure Sweep where
  /-- The nodes, ascending. -/
  visited : List Nat := []
  /-- The nodes in the order in which they were found. -/
  queue : List Nat := []

namespace Sweep

/-- Note a node, unless it was found before. -/
def visit (s : Sweep) (i : Nat) : Sweep :=
  if s.visited.contains i then s
  else { visited := insertNat i s.visited, queue := s.queue ++ [i] }

def handle (step : Nat → List Nat) (i : Nat) (s : Sweep) : Sweep :=
  (step i).foldl visit s

/-- All that is found from some starts among `n` nodes. No node is in the queue twice, so `n` rounds
are enough. -/
def run (step : Nat → List Nat) (n : Nat) (starts : List Nat) : Sweep :=
  drain queue (handle step) n 0 (starts.foldl visit {})

end Sweep

/-! ## How far away nodes are -/

/-- The nodes that were found so far, with their distances from the starts. -/
structure Survey where
  /-- The distance of each node that was found. -/
  distances : List (Option Nat)
  /-- The nodes in the order in which they were found. -/
  queue : List Nat := []

namespace Survey

def distance? (s : Survey) (i : Nat) : Option Nat :=
  (s.distances[i]?).join

def distance (s : Survey) (i : Nat) : Nat :=
  (s.distance? i).getD 0

/-- Note a node at a distance, unless it was found before. -/
def note (s : Survey) (d i : Nat) : Survey :=
  if (s.distance? i).isSome then s
  else { distances := s.distances.set i (some d), queue := s.queue ++ [i] }

/-- Look at the targets of a node. Those that are new are one step further away than the node. -/
def handle (step : Nat → List Nat) (i : Nat) (s : Survey) : Survey :=
  (step i).foldl (fun s j => s.note (s.distance i + 1) j) s

/-- The distances from some starts among `n` nodes. -/
def run (step : Nat → List Nat) (n : Nat) (starts : List Nat) : Survey :=
  drain queue (handle step) n 0
    (starts.foldl (·.note 0) { distances := List.replicate n none })

end Survey

/-! ## Searches of a graph -/

namespace CallGraph

/-- The nodes that the starts reach, the starts included, in ascending order. -/
def reachableNodes (g : CallGraph) (starts : List Nat) : List Nat :=
  (Sweep.run g.succ g.size starts).visited

/-- The nodes that reach one of the starts, the starts included, in ascending order. -/
def reachingNodes (g : CallGraph) (starts : List Nat) : List Nat :=
  (Sweep.run g.pred g.size starts).visited

/-- The ids that some ids reach, in ascending order. Ids that are no nodes reach nothing. -/
def reachable (g : CallGraph) (starts : List String) : List String :=
  (g.reachableNodes (g.indices starts)).map g.idAt

/-- The distances of the ids that some ids reach, by ascending ids. -/
def distances (g : CallGraph) (starts : List String) : List (String × Nat) :=
  let s := Survey.run g.succ g.size (g.indices starts)
  (distinctNats s.queue).map fun i => (g.idAt i, s.distance i)

end CallGraph

end Deadwood
