import Deadwood.Code.TypeRelation
import Deadwood.Decimal.Layout
import Deadwood.Fault
import Deadwood.Json.Basic
import Deadwood.Memo
import Deadwood.Scale
import Deadwood.Sorted
import Deadwood.Text.Segments

/-!
# Type evidence

A method that implements or overrides a method of another type may be called through that type,
although no call names it. How much such evidence speaks against deleting a function is a score
between zero and one. Evidence falls into three classes; the first class with a compatible target
decides the score. Incompatible targets are not among its targets, but the classes that implement
them count as classes that share an interface, and so they may raise it.

## Main definitions

* `EvidenceClass`: the classes of evidence.
* `EvidenceGroup`: the types that evidence of one class speaks of.
* `Evidence`, `Evidence.weigh`: the verdict on a function.
-/

namespace Deadwood

/-- Classes of evidence, the strongest first. -/
inductive EvidenceClass where
  /-- Implements an abstract method of a class. -/
  | abstractMethod
  /-- Implements a method of an interface. -/
  | interfaceMethod
  /-- Overrides a method of a parent type. -/
  | parentMethod
  deriving Repr, DecidableEq

abbrev Classed (R : Type) := EvidenceClass × MethodOverride R

/-- What tells the target types of overrides apart: the id, or else the name. -/
def MethodOverride.targetKey {R : Type} (o : MethodOverride R) : String :=
  if o.targetTypeId = "" then "name:" ++ o.targetTypeName else o.targetTypeId

def MethodOverride.targetName {R : Type} (o : MethodOverride R) : String :=
  if o.targetTypeName = "" then o.targetTypeId else o.targetTypeName

/-- The evidence of one class: its target types by key, compatible and not. -/
structure EvidenceGroup where
  compatible : List (String × String) := []
  incompatible : List (String × String) := []

namespace EvidenceGroup

variable {R : Type}

def add (g : EvidenceGroup) (o : MethodOverride R) : EvidenceGroup :=
  if o.isCompatible then { g with compatible := assign o.targetKey o.targetName g.compatible }
  else { g with incompatible := assign o.targetKey o.targetName g.incompatible }

def ofClass (c : EvidenceClass) (all : List (Classed R)) : EvidenceGroup :=
  (all.filter (·.1 = c)).foldl (fun g o => g.add o.2) {}

def isPresent (g : EvidenceGroup) : Bool :=
  !g.compatible.isEmpty || !g.incompatible.isEmpty

/-- The names of the distinct target types in ascending order. -/
def targets (g : EvidenceGroup) : List String :=
  let others := g.incompatible.filter fun t => !(g.compatible.map (·.1)).contains t.1
  sortedTexts ((g.compatible ++ others).map (·.2))

/-- The score of a class: a base, and a step for every further compatible target and every
`extra`, up to a bound; zero without compatible targets. -/
def score [Scale R] (g : EvidenceGroup) (base : R) (extra : Nat) : R :=
  if g.compatible.isEmpty then 0.0
  else
    Scale.least (base + (0.05 : R) * Scale.count (g.compatible.length - 1 + extra)) (0.98 : R)

end EvidenceGroup

/-- How many distinct relations were found. -/
structure EvidenceCounts where
  interfaces : Nat := 0
  classes : Nat := 0
  abstractMethods : Nat := 0
  overrides : Nat := 0
  deriving Repr, DecidableEq

/-- How many overrides agree with the signature of their target. -/
structure SignatureMatch where
  compatible : Nat
  incompatible : Nat
  deriving Repr, DecidableEq

def SignatureMatch.allMatch (s : SignatureMatch) : Bool :=
  s.incompatible = 0

/-- The verdict on one function. -/
structure Evidence (R : Type) where
  functionId : String
  score : R
  /-- Why the function is protected, if it is. -/
  reason : Option String := none
  interfaces : List String := []
  classes : List String := []
  isInterfaceImplementation : Bool := false
  isMethodOverride : Bool := false
  counts : EvidenceCounts := {}
  signatures : Option SignatureMatch := none
  /-- The failed query because of which the evidence is unknown. -/
  failure : Option Fault := none

namespace Evidence

variable {R : Type} [Scale R]

def isProtected (threshold : R) (e : Evidence R) : Bool :=
  threshold ≤ e.score

/-- The verdict when a query fails: a function of which nothing is known, which is protected only if
failures are to protect. -/
def unknown (failClosed : Bool) (id : String) (failure : Fault) : Evidence R :=
  { functionId := id
    score := if failClosed then 1.0 else 0.0
    reason := if failClosed then some "type evidence unavailable" else none
    failure := some failure }

def describe (c : EvidenceClass) (g : EvidenceGroup) (classCount : Nat) : String :=
  let targets := g.targets
  let number (n : Nat) := Decimal.digitText n
  let named := " (" ++ Text.join ", " targets ++ ")"
  let main :=
    match c with
    | .abstractMethod =>
      "Implements abstract method(s) of " ++ number targets.length ++ " abstract class(es)" ++ named
    | .interfaceMethod =>
      "Implements " ++ number targets.length ++ " interface(s)" ++ named
        ++ (if 0 < classCount then " shared by " ++ number classCount ++ " class(es)" else "")
    | .parentMethod =>
      "Overrides method(s) of " ++ number targets.length ++ " parent type(s)" ++ named
  let rest := g.incompatible.length
  if 0 < rest then main ++ "; " ++ number rest ++ " incompatible match(es) not counted" else main

/-- How the overrides agree with their targets; nothing if there are none. -/
def signaturesOf (all : List (Classed R)) : Option SignatureMatch :=
  if all.isEmpty then none
  else
    some { compatible := all.countP (·.2.isCompatible)
           incompatible := all.countP (!·.2.isCompatible) }

/-- Weigh the evidence on a function. `classes` are the names of the classes that implement one of
its interfaces. -/
def weigh (id : String) (all : List (Classed R)) (classes : List String) : Evidence R :=
  let group (c : EvidenceClass) := EvidenceGroup.ofClass c all
  let abstracts := group .abstractMethod
  let interfaces := group .interfaceMethod
  let parents := group .parentMethod
  let scores : List (EvidenceClass × EvidenceGroup × R) := [
    (.abstractMethod, abstracts, abstracts.score 0.8 0),
    (.interfaceMethod, interfaces, interfaces.score 0.8 (classes.length - 1)),
    (.parentMethod, parents, parents.score 0.7 0)]
  let best := scores.find? fun (_, _, s) => 0.0 < s
  { functionId := id
    score := (best.map fun (_, _, s) => s).getD 0.0
    reason := best.map fun (c, g, _) => describe c g classes.length
    interfaces := interfaces.targets
    classes
    isInterfaceImplementation := interfaces.isPresent
    isMethodOverride := abstracts.isPresent || parents.isPresent
    counts :=
      { interfaces := interfaces.targets.length
        classes := classes.length
        abstractMethods := abstracts.targets.length
        overrides := parents.targets.length }
    signatures := signaturesOf all }

end Evidence

/-! ## Written form -/

def EvidenceCounts.toJson (c : EvidenceCounts) : Json :=
  .object [
    ("interface_count", .nat c.interfaces),
    ("class_count", .nat c.classes),
    ("abstract_implementation_count", .nat c.abstractMethods),
    ("override_count", .nat c.overrides)]

def SignatureMatch.toJson (s : SignatureMatch) : Json :=
  .object [
    ("compatible", .nat s.compatible),
    ("incompatible", .nat s.incompatible),
    ("all_match", .bool s.allMatch)]

/-- The lists are written as `null` if they are unknown. -/
def Evidence.toJson (e : Evidence Float) : Json :=
  let names (ss : List String) : Json := if e.failure.isSome then .null else .texts ss
  .object <|
    [("function_id", .text e.functionId),
      ("confidence_score", .float e.score),
      ("protection_reason", (e.reason.map Json.text).getD .null),
      ("implemented_interfaces", names e.interfaces),
      ("implementing_classes", names e.classes),
      ("is_interface_implementation", .bool e.isInterfaceImplementation),
      ("is_method_override", .bool e.isMethodOverride),
      ("evidence_strength", e.counts.toJson)]
    ++ (match e.signatures with
      | none => []
      | some s => [("signature_compatibility", s.toJson)])

end Deadwood
