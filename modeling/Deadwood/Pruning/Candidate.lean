import Deadwood.Code.Json
import Deadwood.EntryPoint
import Deadwood.Evidence.Basic
import Deadwood.Metrics
import Deadwood.Pruning.Options
import Deadwood.Reachability

/-!
# Candidates for deletion

A function may be deleted if no entry point reaches it, or if all calls of it are too weak to count.
Functions that some rule keeps, and functions that type evidence protects, are no candidates.

## Main definitions

* `PruneReason`, `Impact`, `Candidate`: a candidate and what is known about it.
* `roots`: the ids that keep what they reach.
* `Selection`, `select`: the candidates of a code base.
* `batches`: candidates in groups.
-/

namespace Deadwood

/-- Why a function may be deleted. -/
inductive PruneReason where
  | unreachable
  | weakCallers
  | isolated
  deriving Repr, DecidableEq, Inhabited

def PruneReason.name : PruneReason → String
  | unreachable => "unreachable"
  | weakCallers => "no-high-confidence-callers"
  | isolated => "isolated"

/-- How disruptive a deletion would be. -/
inductive Impact where
  | low
  | medium
  | high
  deriving Repr, DecidableEq, Inhabited

def Impact.name : Impact → String
  | low => "low"
  | medium => "medium"
  | high => "high"

/-- Many callers or many lines make a deletion disruptive. -/
def Impact.of (callers : Nat) (lines : Int) : Impact :=
  if 3 ≤ callers || 50 < lines then high
  else if 1 ≤ callers || 20 < lines then medium
  else low

/-- A function that may be deleted. -/
structure Candidate (R : Type) where
  function : FunctionRecord
  reason : PruneReason
  confidence : R
  callers : Nat
  impact : Impact

section Rules

variable {R : Type} [Scale R]

/-- How sure it is that a function of some reason is dead. Exported functions are less sure. -/
def PruneReason.confidence (reason : PruneReason) (isExported : Bool) : R :=
  let base : R :=
    match reason with
    | .unreachable => 0.95
    | .isolated => 0.90
    | .weakCallers => 0.75
  Scale.clamp (if isExported then base - (0.25 : R) else base)

/-- Entry points under the options: tests count if tests are kept. -/
def PruneOptions.entryRules (o : PruneOptions R) : EntryRules :=
  { excludeTests := !o.excludeTests, patterns := o.entryPatterns }

/-- The ids that keep what they reach: the entry points, but not those that are only exported if
exported functions may be deleted. -/
def roots (o : PruneOptions R) (fs : List FunctionRecord) : List String :=
  distinctTexts (((o.entryRules.detect fs).filter fun e =>
    !(o.includeExports && e.reasons = [.exported])).map (·.functionId))

def isKept (o : PruneOptions R) (f : FunctionRecord) : Bool :=
  (f.isExported && !o.includeExports)
    || (f.isStatic && !o.includeStaticMethods)
    || (o.excludeTests && isTestFunction f)
    || o.excludePatterns.any (PathPattern.covers · f.filePath)

/-- The calls of a function from other functions. -/
def callsInto (id : String) (edges : List (CallEdge R)) : List (CallEdge R) :=
  edges.filter fun e => e.isInternal && !e.isLoop && e.callee = id

/-- Why a function may be deleted, if it may. -/
def reason? (isIsolated isReachable : Bool) (inbound : List (CallEdge R)) (threshold : R) :
    Option PruneReason :=
  if isIsolated then some .isolated
  else if !isReachable then some .unreachable
  else if !inbound.isEmpty && inbound.all (·.isWeak threshold) then some .weakCallers
  else none

/-- Order of deletion: by file, then by line, then by id. -/
def Candidate.before (a b : Candidate R) : Bool :=
  let f := a.function
  let g := b.function
  if f.filePath = g.filePath then
    if f.startLine = g.startLine then f.id ≤ g.id else f.startLine < g.startLine
  else f.filePath < g.filePath

/-- What the calls of a code base say about one of its functions. -/
structure CallView (R : Type) where
  edges : List (CallEdge R)
  metrics : List FunctionMetrics
  roots : List String
  reachable : List String

/-- The calls with known ends of a code base, seen from the roots. -/
def CallView.of (fs : List FunctionRecord) (edges : List (CallEdge R)) (roots : List String) :
    CallView R :=
  { edges, roots
    metrics := dependencyMetrics fs edges roots []
    reachable := reachableFrom roots edges }

/-- The candidate that a function is, before type evidence is asked. -/
def candidate? (o : PruneOptions R) (v : CallView R) (f : FunctionRecord) : Option (Candidate R) :=
  if v.roots.contains f.id then none
  else
    let inbound := callsInto f.id v.edges
    let isolated := (v.metrics.find? (·.functionId = f.id)).any (·.isIsolated)
    match reason? isolated (v.reachable.contains f.id) inbound o.confidenceThreshold with
    | none => none
    | some reason =>
      let confidence : R := reason.confidence f.isExported
      let callers := (distinctTexts (inbound.map (·.caller))).length
      if isKept o f || confidence < o.candidateMinConfidence then none
      else
        some { function := f, reason, confidence, callers
               impact := .of callers f.lineCount }

end Rules

/-! ## Selection -/

/-- A function that would be a candidate but for its type evidence. -/
structure ProtectedFunction (R : Type) where
  function : FunctionRecord
  evidence : Evidence R

/-- The candidates of a code base. -/
structure Selection (R : Type) where
  candidates : List (Candidate R)
  shielded : List (ProtectedFunction R)
  warnings : List String
  problems : List EdgeProblem

def evidenceWarning (f : FunctionRecord) (failure : Fault) : String :=
  "type evidence unavailable for " ++ f.displayName ++ ": " ++ failure.message

section Select

variable {R : Type} [Scale R]

/-- The candidates before type evidence is asked, ordered by id. -/
def pendingCandidates (o : PruneOptions R) (fs : List FunctionRecord) (edges : List (CallEdge R)) :
    List (Candidate R) :=
  let idx := FunctionIndex.ofList fs
  let view := CallView.of fs (idx.validEdges edges) (roots o fs)
  idx.ids.filterMap fun id => (idx.get? id).bind (candidate? o view)

/-- Select the candidates of a code base. Without a protector, no function is protected. -/
def select (o : PruneOptions R) (fs : List FunctionRecord) (edges : List (CallEdge R))
    (protector : Option (FunctionRecord → Evidence R)) : Selection R :=
  let problems := (FunctionIndex.ofList fs).edgeProblems edges
  let pending := pendingCandidates o fs edges
  match protector with
  | none => { candidates := pending.mergeSort Candidate.before, shielded := [], warnings := [],
              problems }
  | some evidenceOn =>
    let judged := pending.map fun c => (c, evidenceOn c.function)
    let isSafe (j : Candidate R × Evidence R) := j.2.isProtected o.protectionThreshold
    { candidates := ((judged.filter (!isSafe ·)).map (·.1)).mergeSort Candidate.before
      shielded := (judged.filter isSafe).map fun (c, e) => ⟨c.function, e⟩
      warnings := judged.filterMap fun (c, e) => e.failure.map (evidenceWarning c.function)
      problems }

end Select

/-- A list in groups of `n`, the last of which may be smaller. Groups hold at least one item. -/
def groupsOf {α : Type} (n : Nat) : List α → List (List α)
  | [] => []
  | a :: as => (a :: as.take (n - 1)) :: groupsOf n (as.drop (n - 1))
termination_by as => as.length
decreasing_by simp only [List.length_drop, List.length_cons]; omega

/-- Candidates in groups of at most `size`, and of one if `size` is not positive. -/
def batches {α : Type} (size : Int) (items : List α) : List (List α) :=
  groupsOf size.toNat items

/-! ## Written form -/

def Candidate.toJson (c : Candidate Float) : Json :=
  .object [
    ("function", c.function.toJson),
    ("reason", .text c.reason.name),
    ("confidence_score", .float c.confidence),
    ("callers_count", .nat c.callers),
    ("estimated_impact", .text c.impact.name)]

def ProtectedFunction.toJson (p : ProtectedFunction Float) : Json :=
  .object [("function", p.function.toJson), ("safety", p.evidence.toJson)]

/-- Lists to which nothing was added are written as `null`, except that of the candidates. -/
def Selection.toJson (s : Selection Float) : Json :=
  .object [
    ("candidates", .list (s.candidates.map (·.toJson))),
    ("protected", Json.listOrNull (s.shielded.map (·.toJson))),
    ("warnings", Json.listOrNull (s.warnings.map .text))]

end Deadwood
