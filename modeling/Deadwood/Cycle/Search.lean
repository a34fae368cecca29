import Deadwood.Graph.Component
import Deadwood.Text.Segments

/-!
# Enumerating the cycles of a call graph

Each simple cycle is found once, starting from its smallest node: for every node of a component, a
depth-first search runs through the larger nodes of that component and reports a cycle whenever a
call leads back to the start. The search is bounded in the number of cycles, in their length and in
the number of calls it follows, and it says when a bound cut something off.

## Main definitions

* `CycleLimits`: the bounds.
* `CycleSearch`: the cycles that were found, and what was cut off.
* `findCycles`: the search.
-/

namespace Deadwood

/-- A simple cycle by its ids, the smallest one first. The last one calls the first. -/
abbrev Cycle := List String

namespace Cycle

def key (c : Cycle) : String :=
  Text.join "->" c

/-- Does the first list of ids come no later than the second one, word by word? -/
def idsBefore : List String → List String → Bool
  | [], _ => true
  | _ :: _, [] => false
  | a :: c, b :: d => if a = b then idsBefore c d else a < b

/-- Shorter cycles come first; cycles of one length are ordered by their ids. -/
def before (c d : Cycle) : Bool :=
  c.length < d.length || (c.length = d.length && idsBefore c d)

end Cycle

/-- The bounds of a search for cycles. -/
structure CycleLimits where
  /-- How many cycles are kept. -/
  maxCycles : Nat := 1000
  /-- How many nodes a cycle may have. -/
  maxLength : Nat := 20
  /-- How many calls may be followed. -/
  maxSteps : Nat := 2000000
  /-- How many nodes a cycle must have to be reported. -/
  minSize : Nat := 1

/-- What a search has found so far. -/
structure CycleSearch where
  /-- The cycles as paths of nodes, the last one found first. -/
  found : List (List Nat) := []
  count : Nat := 0
  /-- A bound on the number of cycles or calls stopped the search. -/
  truncated : Bool := false
  /-- Some path was given up because it was too long. -/
  lengthLimited : Bool := false

namespace CycleSearch

/-- Report a cycle. A cycle that is too small is ignored, and one more cycle than is kept truncates
the search. -/
def report (limits : CycleLimits) (path : List Nat) (s : CycleSearch) : CycleSearch :=
  if path.length < limits.minSize then s
  else if limits.maxCycles ≤ s.count then { s with truncated := true }
  else { s with found := path :: s.found, count := s.count + 1 }

end CycleSearch

/-- A node of the current path with the calls that are still to be followed from it. -/
structure PathStep where
  node : Nat
  rest : List Nat

/-- Leave the nodes whose calls have all been followed. -/
def dropFinished : List PathStep → List PathStep
  | [] => []
  | p :: ps => if p.rest.isEmpty then dropFinished ps else p :: ps

/-- Follow calls from the last node of a path, given last node first, until nothing is left to be
followed, the search is truncated or `budget` calls have been followed. Answers what was found and
the rest of the budget. -/
def followCalls (g : CallGraph) (limits : CycleLimits) (inside : Nat → Bool) (start : Nat) :
    Nat → List PathStep → CycleSearch → CycleSearch × Nat
  | 0, path, s => ({ s with truncated := s.truncated || !(dropFinished path).isEmpty }, 0)
  | budget + 1, path, s =>
    match dropFinished path with
    | [] => (s, budget + 1)
    | p :: ps =>
      match p.rest with
      | [] => (s, budget + 1)
      | w :: ws =>
        let path := ⟨p.node, ws⟩ :: ps
        if w = start then
          let s := s.report limits (path.map (·.node)).reverse
          if s.truncated then (s, budget) else followCalls g limits inside start budget path s
        else if w < start || !inside w || path.any (·.node = w) then
          followCalls g limits inside start budget path s
        else if limits.maxLength ≤ path.length then
          followCalls g limits inside start budget path { s with lengthLimited := true }
        else followCalls g limits inside start budget (⟨w, g.succ w⟩ :: path) s

/-- Search the cycles that start at each of some nodes, within their component. -/
def searchStarts (g : CallGraph) (limits : CycleLimits) (inside : Nat → Bool) :
    List Nat → CycleSearch × Nat → CycleSearch × Nat
  | [], st => st
  | start :: starts, (s, budget) =>
    if s.truncated then (s, budget)
    else
      searchStarts g limits inside starts
        (followCalls g limits inside start budget [⟨start, g.succ start⟩] s)

def searchComponent (g : CallGraph) (limits : CycleLimits) (members : List Nat)
    (st : CycleSearch × Nat) : CycleSearch × Nat :=
  let marks := (g.nodes.map members.contains).toArray
  searchStarts g limits (fun i => (marks[i]?).getD false) members st

/-- Search a graph: first the functions that call themselves, then component after component. -/
def CallGraph.searchCycles (g : CallGraph) (limits : CycleLimits) : CycleSearch :=
  let loops := g.loops.foldl (fun s i => s.report limits [i]) {}
  (g.components.foldl (fun st members => searchComponent g limits members st)
    (loops, limits.maxSteps)).1

/-- The cycles of some calls. -/
structure CycleReport where
  cycles : List Cycle
  truncated : Bool
  lengthLimited : Bool
  /-- All ids that lie on some cycle, found or not, in ascending order. -/
  cyclicIds : List String

def CallGraph.cyclicIds (g : CallGraph) : List String :=
  (distinctNats (g.loops ++ g.components.flatten)).map g.idAt

def findCycles {R : Type} (limits : CycleLimits) (edges : List (CallEdge R)) : CycleReport :=
  let g := CallGraph.ofEdges edges []
  let s := g.searchCycles limits
  { cycles := (s.found.reverse.map (·.map g.idAt)).mergeSort Cycle.before
    truncated := s.truncated
    lengthLimited := s.lengthLimited
    cyclicIds := g.cyclicIds }

end Deadwood
