import Deadwood.Pruning.Candidate

/-!
# The outcome of a deletion run

## Main definitions

* `Verdict`: what checking the code said.
* `BatchStatus`, `BatchOutcome`: how a batch ended.
* `PruneOutcome`: what a whole run did.
* `Tracker`: the progress of a run.
* `Ending.message`: what stays on the screen after a run.
-/

namespace Deadwood

/-- What the type check and the tests said. If they could not be run, neither says anything. -/
structure Verdict where
  performed : Bool := false
  typeCheckPassed : Bool := false
  testsPassed : Bool := false
  deriving Repr, DecidableEq, Inhabited

namespace Verdict

/-- The verdict of a type check and of tests; a check without a result was not run, and does not
count as failed. -/
def ofChecks (typeCheck tests : Option Bool) : Verdict :=
  { performed := typeCheck.isSome || tests.isSome
    typeCheckPassed := typeCheck.getD true
    testsPassed := tests.getD true }

/-- Both were run and passed. -/
def passed (v : Verdict) : Bool :=
  v.performed && v.typeCheckPassed && v.testsPassed

/-- Both were run and one failed. -/
def failed (v : Verdict) : Bool :=
  v.performed && (!v.typeCheckPassed || !v.testsPassed)

def label (v : Verdict) : String :=
  if !v.performed then "N/A" else if v.passed then "PASS" else "FAIL"

end Verdict

/-- How a batch ended. -/
inductive BatchStatus where
  | committed
  | rolledBack
  | skipped
  | other (name : String)
  deriving Repr, DecidableEq, Inhabited

namespace BatchStatus

def name : BatchStatus → String
  | committed => "committed"
  | rolledBack => "rolled_back"
  | skipped => "skipped"
  | other n => n

def ofName (s : String) : BatchStatus :=
  match s with
  | "committed" => committed
  | "rolled_back" => rolledBack
  | "skipped" => skipped
  | s => other s

end BatchStatus

/-- What happened to one batch. -/
structure BatchOutcome where
  index : Nat
  functions : List String
  files : List String
  status : BatchStatus
  verdict : Verdict := {}
  /-- What went wrong; empty if nothing did. -/
  error : String := ""

/-- What a run did. -/
structure PruneOutcome (R : Type) where
  candidates : List (Candidate R) := []
  deleted : List (Candidate R) := []
  skipped : List (Candidate R) := []
  errors : List String := []
  warnings : List String := []
  /-- The directory of the backup; empty if none was made. -/
  backupPath : String := ""
  before : Verdict := {}
  after : Verdict := {}
  batches : List BatchOutcome := []
  executed : Bool := false

/-! ## Progress -/

/-- A finished batch, as it is reported. -/
structure BatchEvent where
  index : Int
  total : Int
  status : BatchStatus
  deriving Repr, DecidableEq

/-- The progress of a run: the number of its batches and the batches that finished since it was
started. -/
structure Tracker where
  total : Int := 0
  finished : List BatchStatus := []
  /-- The reported batches, the last one first. -/
  events : List BatchEvent := []

namespace Tracker

def start (t : Tracker) (total : Int) : Tracker :=
  { t with total, finished := [] }

def finish (t : Tracker) (index : Int) (status : BatchStatus) : Tracker :=
  { t with finished := status :: t.finished, events := ⟨index, t.total, status⟩ :: t.events }

def count (t : Tracker) (status : BatchStatus) : Nat :=
  t.finished.count status

end Tracker

/-! ## On the screen -/

/-- How a run ended. -/
inductive Ending where
  | success
  | skipped (reason : String)
  | failed (reason : String)

/-- What stays on the screen after a run. -/
def Ending.message (label : String) : Ending → String
  | .success => ""
  | .skipped reason => "  " ++ label ++ " skipped (" ++ reason ++ ")\n"
  | .failed reason => "  " ++ label ++ " error: " ++ reason ++ "\n"

/-- A bar is drawn as soon as one batch is finished. -/
def Tracker.isDrawn (t : Tracker) : Bool :=
  !t.events.isEmpty

/-! ## Written form -/

def Verdict.toJson (v : Verdict) : Json :=
  .object [
    ("performed", .bool v.performed),
    ("type_check_passed", .bool v.typeCheckPassed),
    ("tests_passed", .bool v.testsPassed)]

def BatchOutcome.toJson (b : BatchOutcome) : Json :=
  .object <|
    [("index", .nat b.index),
      ("functions", .texts b.functions),
      ("files", .texts b.files),
      ("status", .text b.status.name),
      ("validation", b.verdict.toJson)]
    ++ Json.textUnlessEmpty "error" b.error

def PruneOutcome.toJson (o : PruneOutcome Float) : Json :=
  let candidates (cs : List (Candidate Float)) : Json := .list (cs.map (·.toJson))
  .object <|
    [("candidate_functions", candidates o.candidates),
      ("deleted_functions", candidates o.deleted),
      ("skipped_functions", candidates o.skipped),
      ("errors", .texts o.errors),
      ("warnings", .texts o.warnings)]
    ++ Json.textUnlessEmpty "backup_path" o.backupPath
    ++ [("pre_delete_validation", o.before.toJson),
      ("post_delete_validation", o.after.toJson)]
    ++ (if o.batches.isEmpty then [] else [("batches", .list (o.batches.map (·.toJson)))])
    ++ [("executed", .bool o.executed)]

end Deadwood
