import Deadwood.Backup
import Deadwood.Pruning.LineRange
import Deadwood.Pruning.Outcome

/-!
# Deletion runs

Candidates are deleted batch by batch. All files that any batch can change are backed up first.
After each batch the code is checked again; a batch that made things worse, or that could not be
written, is undone, and its functions are reported as skipped. Every file is always derived from its
captured content and the ranges to be removed from it, so line numbers never shift.

## Main definitions

* `Surroundings`: what a run asks of the outside.
* `RunState`: what a run has done so far.
* `runBatch`, `runBatches`: the batches.
* `makeBackup`, `prepare`, `execute`: what comes before them, and all of it.
* `startRun`, `prune`: what comes before anything is changed, and a whole run.
-/

namespace Deadwood

/-- What a run asks of the outside, whose state is `σ`. -/
structure Surroundings (σ : Type) (R : Type) where
  /-- Asked before anything is changed; without it, the answer is yes. -/
  confirm : Option (List (Candidate R) → σ → Bool × σ) := none
  /-- Check the code. This may change files. -/
  validate : σ → Disk → Verdict × σ × Disk
  /-- How the backup is made, and what is refused meanwhile. -/
  means : BackupMeans := {}
  /-- Whether the run is to stop. -/
  isCancelled : σ → Bool := fun _ => false
  /-- Told how many batches there will be. -/
  started : Nat → σ → σ := fun _ s => s
  /-- Told how each batch ended. -/
  finished : BatchOutcome → σ → σ := fun _ s => s

/-- Whether a verdict is worse than the one before the first deletion. Checks that were not run do
not count as failed. -/
def Verdict.isWorseThan (v before : Verdict) : Bool :=
  if !v.performed then false
  else if !before.performed then v.failed
  else (before.typeCheckPassed && !v.typeCheckPassed) || (before.testsPassed && !v.testsPassed)

abbrev Removals := List (String × List LineRange)

namespace Removals

def of (rs : Removals) (path : String) : List LineRange :=
  (rs.lookup path).getD []

def add (rs : Removals) (path : String) (ranges : List LineRange) : Removals :=
  assign path (of rs path ++ ranges) rs

end Removals

def FunctionRecord.range (f : FunctionRecord) : LineRange :=
  ⟨f.startLine, f.endLine⟩

/-- Write a file as its captured content without some ranges. -/
def writeWithout (b : Backup) (path : String) (ranges : List LineRange) (d : Disk) :
    Option Fault × Disk :=
  match b.content path d with
  | .error f => (some f, d)
  | .ok content =>
    match removeLines content ranges with
    | .error p => (some (.file "edit" path (.other p.message)), d)
    | .ok kept => d.replaceFile path kept (b.modeOf path)

/-- Write files one after the other, up to the first failure. -/
def writeUntilFailure (b : Backup) (ranges : String → List LineRange) :
    List String → Disk → Option Fault × Disk
  | [], d => (none, d)
  | p :: ps, d =>
    match writeWithout b p (ranges p) d with
    | (some f, d) => (some f, d)
    | (none, d) => writeUntilFailure b ranges ps d

/-- Write files one after the other, whether or not some fail. -/
def writeAll (b : Backup) (ranges : String → List LineRange) :
    List String → Disk → List Fault × Disk
  | [], d => ([], d)
  | p :: ps, d =>
    let (failed, d) := writeWithout b p (ranges p) d
    let (rest, d) := writeAll b ranges ps d
    (failed.toList ++ rest, d)

/-- What goes into every batch. -/
structure RunPlan (R : Type) [Scale R] where
  options : PruneOptions R
  backup : Backup
  /-- The verdict before the first deletion. -/
  baseline : Verdict

/-- What a run has done so far. -/
structure RunState (σ R : Type) where
  outer : σ
  disk : Disk
  /-- The ranges of the batches that were kept. -/
  committed : Removals := []
  outcome : PruneOutcome R

section Batches

variable {σ R : Type} [Scale R]

def batchRemovals (o : PruneOptions R) (batch : List (Candidate R)) : Removals :=
  batch.foldl (fun rs c => Removals.add rs (o.resolve c.function.filePath) [c.function.range]) []

def batchFiles (o : PruneOptions R) (batch : List (Candidate R)) : List String :=
  distinctTexts (batch.map fun c => o.resolve c.function.filePath)

/-- The failure of undoing a batch, named by the first file that could not be written. -/
def undoFailure : List Fault → Option Fault
  | [] => none
  | f :: fs =>
    some (.context (Decimal.digitText (fs.length + 1) ++ " file(s) not restored") f)

/-- Undo a batch: write its files as they were before it, and report its functions as skipped. -/
def undoBatch (plan : RunPlan R) (index : Nat) (batch : List (Candidate R)) (reason : String)
    (result : BatchOutcome) (s : RunState σ R) : BatchOutcome × RunState σ R :=
  let number := Decimal.digitText (index + 1)
  let (faults, disk) := writeAll plan.backup (Removals.of s.committed) result.files s.disk
  let failed := (undoFailure faults).toList.map fun f =>
    "batch " ++ number ++ " rollback failed, restore from " ++ plan.backup.dir ++ ": " ++ f.message
  ({ result with status := .rolledBack, error := reason },
    { s with
      disk
      outcome := { s.outcome with
        errors := s.outcome.errors ++ failed
        skipped := s.outcome.skipped ++ batch
        warnings := s.outcome.warnings ++ ["batch " ++ number ++ " rolled back: " ++ reason] } })

def keepBatch (removals : Removals) (batch : List (Candidate R)) (result : BatchOutcome)
    (s : RunState σ R) : BatchOutcome × RunState σ R :=
  ({ result with status := .committed },
    { s with
      committed := result.files.foldl (fun rs p => Removals.add rs p (removals.of p)) s.committed
      outcome := { s.outcome with
        deleted := s.outcome.deleted ++ batch
        after := result.verdict } })

/-- Delete one batch, check the code, and keep or undo the deletion. -/
def runBatch (env : Surroundings σ R) (plan : RunPlan R) (index : Nat)
    (batch : List (Candidate R)) (s : RunState σ R) : BatchOutcome × RunState σ R :=
  let removals := batchRemovals plan.options batch
  let result : BatchOutcome :=
    { index
      functions := batch.map (·.function.id)
      files := batchFiles plan.options batch
      status := .other "" }
  match writeUntilFailure plan.backup (fun p => Removals.of s.committed p ++ removals.of p)
      result.files s.disk with
  | (some f, disk) =>
    let outcome := { s.outcome with errors := s.outcome.errors ++ [f.message] }
    undoBatch plan index batch ("write failed: " ++ f.message) result { s with disk, outcome }
  | (none, disk) =>
    let (verdict, outer, disk) := env.validate s.outer disk
    let s := { s with outer, disk }
    let result := { result with verdict }
    if env.isCancelled s.outer then
      undoBatch plan index batch "cancelled during validation" result s
    else if verdict.isWorseThan plan.baseline then
      undoBatch plan index batch ("validation failed (" ++ verdict.label ++ ")") result s
    else keepBatch removals batch result s

def recordBatch (env : Surroundings σ R) (result : BatchOutcome) (s : RunState σ R) :
    RunState σ R :=
  { s with
    outer := env.finished result s.outer
    outcome := { s.outcome with batches := s.outcome.batches ++ [result] } }

/-- Report batches as skipped because the run was cancelled. -/
def skipBatches (env : Surroundings σ R) (o : PruneOptions R) :
    Nat → List (List (Candidate R)) → RunState σ R → RunState σ R
  | _, [], s => s
  | index, batch :: rest, s =>
    let result : BatchOutcome :=
      { index
        functions := batch.map (·.function.id)
        files := batchFiles o batch
        status := .skipped
        error := "cancelled" }
    let s := recordBatch env result s
    let s := { s with outcome := { s.outcome with skipped := s.outcome.skipped ++ batch } }
    skipBatches env o (index + 1) rest s

/-- Run batches until all are done or the run is cancelled. -/
def runBatches (env : Surroundings σ R) (plan : RunPlan R) :
    Nat → List (List (Candidate R)) → RunState σ R → RunState σ R
  | _, [], s => s
  | index, batch :: rest, s =>
    if env.isCancelled s.outer then
      let skipped := skipBatches env plan.options index (batch :: rest) s
      let note := "run cancelled; " ++ Decimal.digitText (rest.length + 1) ++ " batch(es) skipped"
      { skipped with
        outcome := { skipped.outcome with warnings := skipped.outcome.warnings ++ [note] } }
    else
      let (result, s) := runBatch env plan index batch s
      runBatches env plan (index + 1) rest (recordBatch env result s)

def touchedFiles (o : PruneOptions R) (candidates : List (Candidate R)) : List String :=
  candidates.map fun c => o.resolve c.function.filePath

def makeBackup (means : BackupMeans) (o : PruneOptions R) (backupId : String) (now : Timestamp)
    (candidates : List (Candidate R)) (disk : Disk) : Except Fault Backup × Disk :=
  Backup.create means backupId now (o.resolve o.backupDir) o.snapshotId
    (candidates.map (·.function.id)) (touchedFiles o candidates) disk

/-- Back up the files of all candidates and check the code before anything is deleted. -/
def prepare (env : Surroundings σ R) (o : PruneOptions R) (backupId : String) (now : Timestamp)
    (candidates : List (Candidate R)) (s : RunState σ R) :
    Except Fault (RunPlan R) × RunState σ R :=
  match makeBackup env.means o backupId now candidates s.disk with
  | (.error f, disk) => (.error (.context "failed to create backup" f), { s with disk })
  | (.ok backup, disk) =>
    let (baseline, outer, disk) := env.validate s.outer disk
    (.ok { options := o, backup, baseline },
      { s with
        outer := env.started (batches o.maxPerBatch candidates).length outer
        disk
        outcome := { s.outcome with
          backupPath := backup.dir
          executed := true
          before := baseline
          after := baseline } })

def execute (env : Surroundings σ R) (o : PruneOptions R) (backupId : String) (now : Timestamp)
    (candidates : List (Candidate R)) (s : RunState σ R) : Option Fault × RunState σ R :=
  match prepare env o backupId now candidates s with
  | (.error f, s) => (some f, s)
  | (.ok plan, s) => (none, runBatches env plan 0 (batches o.maxPerBatch candidates) s)

end Batches

/-! ## Whole runs -/

structure RunEnd (σ R : Type) where
  /-- What was done; nothing if the options were refused. -/
  outcome : Option (PruneOutcome R)
  fault : Option Fault := none
  outer : σ
  disk : Disk

/-- Select the candidates of a code base and ask whether they are to be deleted. The run ends here,
or goes on in the given state, in which nothing has been changed yet. -/
def startRun {σ : Type} (env : Surroundings σ Float) (o : PruneOptions Float)
    (fs : List FunctionRecord) (edges : List (CallEdge Float))
    (protector : Option (FunctionRecord → Evidence Float)) (outer : σ) (disk : Disk) :
    Except (RunEnd σ Float) (RunState σ Float) :=
  match o.problem? with
  | some p => .error { outcome := none, fault := some p.fault, outer, disk }
  | none =>
    let selection := select o fs edges protector
    let outcome : PruneOutcome Float :=
      { candidates := selection.candidates
        warnings := selection.warnings
          ++ selection.problems.map fun p => "skipped edge: " ++ p.fault.message }
    if !o.isExecuting || selection.candidates.isEmpty then
      .error { outcome := some outcome, outer, disk }
    else
      let (confirmed, outer) :=
        match env.confirm with
        | none => (true, outer)
        | some ask => ask selection.candidates outer
      if !confirmed then
        let note := "deletion not confirmed; nothing was changed"
        .error
          { outcome := some { outcome with warnings := outcome.warnings ++ [note] }, outer, disk }
      else if env.isCancelled outer then
        .error { outcome := some outcome, fault := some .cancelled, outer, disk }
      else .ok { outer, disk, outcome }

/-- Select the candidates of a code base and, if the options say so, delete them. -/
def prune {σ : Type} (env : Surroundings σ Float) (o : PruneOptions Float) (backupId : String)
    (now : Timestamp) (fs : List FunctionRecord) (edges : List (CallEdge Float))
    (protector : Option (FunctionRecord → Evidence Float)) (outer : σ) (disk : Disk) :
    RunEnd σ Float :=
  match startRun env o fs edges protector outer disk with
  | .error ended => ended
  | .ok s =>
    let (fault, s) := execute env o backupId now s.outcome.candidates s
    { outcome := some s.outcome, fault, outer := s.outer, disk := s.disk }

end Deadwood
