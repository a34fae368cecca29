import Deadwood.Decimal.Layout
import Deadwood.Fault
import Deadwood.Path
import Deadwood.PathPattern
import Deadwood.Scale

/-!
# Options of a deletion run

## Main definitions

* `PruneOptions`: what may be deleted, and how.
* `OptionProblem`, `PruneOptions.problem?`: values that are not allowed.
* `PruneOptions.resolve`: where a source file lies.
-/

namespace Deadwood

/-- What may be deleted, and how. -/
structure PruneOptions (R : Type) [Scale R] where
  snapshotId : String := ""
  /-- The directory that relative paths of source files start from. -/
  rootDir : String := ""
  /-- Calls below this confidence do not keep their targets alive. -/
  confidenceThreshold : R := 0.8
  /-- Candidates below this confidence are dropped. -/
  candidateMinConfidence : R := 0.5
  /-- Functions whose type evidence reaches this score are kept. -/
  protectionThreshold : R := 0.7
  maxPerBatch : Int := 5
  /-- Delete, and not only preview. -/
  execute : Bool := false
  /-- Only preview, even if `execute` is set. -/
  dryRun : Bool := false
  includeExports : Bool := false
  includeStaticMethods : Bool := false
  /-- Tests are kept, and keep what they call. -/
  excludeTests : Bool := true
  /-- Patterns for files in which nothing is deleted. -/
  excludePatterns : List String := []
  /-- Patterns for the names of further entry points. -/
  entryPatterns : List String := []
  backupDir : String := ".funcqc/backups"

/-- A value that is not allowed. -/
inductive OptionProblem (R : Type) where
  | outOfRange (field : String) (value : R)
  | batchTooSmall (size : Int)
  | noBackupDir
  | badPattern (field pattern : String)

/-- The failure that stands for a bad value. -/
def OptionProblem.fault : OptionProblem Float → Fault
  | outOfRange field value => .badOption field (Layout.message.text value) "must be between 0 and 1"
  | batchTooSmall size =>
    .badOption "max_functions_per_batch" (Decimal.intText size) "must be at least 1"
  | noBackupDir => .badOption "backup_dir" "" "required when executing"
  | badPattern field pattern => .badOption field pattern "syntax error in pattern"

namespace PruneOptions

variable {R : Type} [Scale R]

def isExecuting (o : PruneOptions R) : Bool :=
  o.execute && !o.dryRun

def problem? (o : PruneOptions R) : Option (OptionProblem R) :=
  if Scale.outside o.confidenceThreshold then
    some (.outOfRange "confidence_threshold" o.confidenceThreshold)
  else if Scale.outside o.candidateMinConfidence then
    some (.outOfRange "candidate_min_confidence" o.candidateMinConfidence)
  else if Scale.outside o.protectionThreshold then
    some (.outOfRange "protection_threshold" o.protectionThreshold)
  else if o.maxPerBatch < 1 then some (.batchTooSmall o.maxPerBatch)
  else if o.isExecuting && o.backupDir = "" then some .noBackupDir
  else
    match o.excludePatterns.find? (!PathPattern.isWellFormed ·) with
    | some p => some (.badPattern "exclude_patterns" p)
    | none =>
      (o.entryPatterns.find? fun p => (Glob.match? p "").isNone).map
        (.badPattern "entry_patterns" ·)

/-- Where a source file lies. -/
def resolve (o : PruneOptions R) (path : String) : String :=
  if Path.isAbsolute path || o.rootDir = "" then path else Path.join o.rootDir path

end PruneOptions

end Deadwood
