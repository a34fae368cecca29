import Deadwood.Code.CallEdge
import Deadwood.Code.FunctionRecord
import Deadwood.Fault
import Deadwood.Sorted

/-!
# The functions of a snapshot by id

An index holds one function for every id: of several functions with one id it keeps the first. It
splits call edges into those whose ends it knows and those it does not.

## Main definitions

* `FunctionIndex`, `FunctionIndex.ofList`: the index of a list of functions.
* `FunctionIndex.get?`, `FunctionIndex.ids`: its view.
* `FunctionIndex.checkEdges`: edges with known ends, and the problems of the others.
-/

namespace Deadwood

/-- Functions with distinct ids. -/
structure FunctionIndex where
  functions : List FunctionRecord
  deriving Repr

/-- An edge whose caller or callee is no known function. -/
structure EdgeProblem where
  caller : String
  callee : String
  reason : String
  deriving Repr, DecidableEq

def EdgeProblem.fault (p : EdgeProblem) : Fault :=
  .badEdge p.caller p.callee p.reason

namespace FunctionIndex

/-- Index a list of functions. Later functions with the id of an earlier one are ignored. -/
def ofList (fs : List FunctionRecord) : FunctionIndex :=
  ⟨keepFirst (·.id) fs⟩

def get? (idx : FunctionIndex) (id : String) : Option FunctionRecord :=
  idx.functions.find? (·.id = id)

def contains (idx : FunctionIndex) (id : String) : Bool :=
  (idx.get? id).isSome

def size (idx : FunctionIndex) : Nat :=
  idx.functions.length

def ids (idx : FunctionIndex) : List String :=
  sortedTexts (idx.functions.map (·.id))

variable {R : Type}

/-- What is wrong with an edge, if anything. The caller is looked at first. -/
def problem? (idx : FunctionIndex) (e : CallEdge R) : Option EdgeProblem :=
  if ¬ idx.contains e.caller then some ⟨e.caller, e.callee, "caller does not exist"⟩
  else if e.isInternal ∧ ¬ idx.contains e.callee then
    some ⟨e.caller, e.callee, "callee does not exist"⟩
  else none

/-- The edges whose ends are known. -/
def validEdges (idx : FunctionIndex) (edges : List (CallEdge R)) : List (CallEdge R) :=
  edges.filter fun e => (idx.problem? e).isNone

def edgeProblems (idx : FunctionIndex) (edges : List (CallEdge R)) : List EdgeProblem :=
  edges.filterMap idx.problem?

def checkEdges (idx : FunctionIndex) (edges : List (CallEdge R)) :
    List (CallEdge R) × List EdgeProblem :=
  (idx.validEdges edges, idx.edgeProblems edges)

end FunctionIndex

end Deadwood
