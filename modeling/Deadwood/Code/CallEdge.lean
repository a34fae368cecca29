import Deadwood.Scale

/-!
# Calls

A call edge leads from a function to a function, or out of the analysed code. It says how the call
is made and how sure the extraction was of its target.

## Main definitions

* `CallKind`, `CallEdge`: calls.
* `CallEdge.effectiveConfidence`: the confidence, certain when it is not given.
* `CallEdge.isWeak`: whether a call is too weak to keep its target alive.
-/

namespace Deadwood

/-- How a call is made. -/
inductive CallKind where
  | direct
  | async
  | conditional
  | external
  | virtual
  /-- A kind that no rule knows. -/
  | other (name : String)
  deriving Repr, DecidableEq, Inhabited

namespace CallKind

def name : CallKind → String
  | direct => "direct"
  | async => "async"
  | conditional => "conditional"
  | external => "external"
  | virtual => "virtual"
  | other n => n

def ofName (s : String) : CallKind :=
  match s with
  | "direct" => direct
  | "async" => async
  | "conditional" => conditional
  | "external" => external
  | "virtual" => virtual
  | s => other s

def isKnown : CallKind → Bool
  | other _ => false
  | _ => true

end CallKind

/-- A call. A call out of the analysed code has no target: its `callee` is empty. -/
structure CallEdge (R : Type) where
  caller : String
  callee : String := ""
  calleeName : String := ""
  kind : CallKind := .other ""
  line : Int := 0
  confidence : Option R := none

namespace CallEdge

variable {R : Type}

/-- Whether the call stays inside the analysed code. -/
def isInternal (e : CallEdge R) : Bool :=
  e.callee ≠ ""

def isLoop (e : CallEdge R) : Bool :=
  e.callee = e.caller

variable [Scale R]

/-- The confidence of a call, between zero and one. A call without one is certain. -/
def effectiveConfidence (e : CallEdge R) : R :=
  match e.confidence with
  | none => 1.0
  | some c => Scale.clamp c

/-- Whether a call is too weak to keep its target alive: its target is chosen only when it runs, or
its confidence is below the threshold. -/
def isWeak (threshold : R) (e : CallEdge R) : Bool :=
  match e.kind with
  | .virtual | .external | .conditional => true
  | _ => e.effectiveConfidence < threshold

end CallEdge

end Deadwood
