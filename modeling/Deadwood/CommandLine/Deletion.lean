import Deadwood.CommandLine.Analysis
import Deadwood.Pruning.Run
import Deadwood.Pruning.Outcome
import Deadwood.Shell.Run

/-!
# Deletion commands

The commands that change files: deleting functions, and bringing back what was deleted.

## Main definitions

* `deletionRun`, `deleteFunctions`: delete functions in batches.
* `restoreBackup`, `discardBackup`, `listBackups`: what becomes of backups.
* `backupRoot`, `shownBackups`: which backups are listed.
-/

namespace Deadwood.CommandLine

/-! ## Backups -/

def restoreBackup (dir : String) : Action Unit := do
  let (fault, disk) := Backup.restoreDir dir (← get).disk
  modify fun s => { s with disk }
  match fault with
  | some f => do
    Action.announce .error "Restore incomplete:"
    throw f
  | none => Action.announce .success ("Restored files from " ++ dir)

def discardBackup (dir : String) : Action Unit := do
  Action.onDisk (Backup.discardDir dir)
  Action.announce .success ("Backup discarded: " ++ dir)

/-- A mode of 32 bits in letters: one for each kind of file that the high bits name, or a dash if
there is none, and the permissions. -/
def modeText (mode : Nat) : String :=
  let isSet (bit : Nat) : Bool := mode / Nat.pow 2 bit % 2 = 1
  let kinds := ("dalTLDpSugct?".toList.zipIdx.filter fun (_, i) => isSet (31 - i)).map (·.1)
  String.ofList ((if kinds.isEmpty then ['-'] else kinds) ++
    "rwxrwxrwx".toList.zipIdx.map fun (c, i) => if isSet (8 - i) then c else '-')

def manifestListing (m : Manifest) : Toon :=
  let texts (ss : List String) : Toon := .list (ss.map .text)
  .object [("ID", .text m.id), ("SnapshotID", .text m.snapshotId),
    ("CreatedAt", .text m.createdAt.utc.text), ("Functions", texts (m.functions.getD [])),
    ("Files", .list (m.files.map fun f =>
      .object [("Path", .text f.path), ("Digest", .text f.digest),
        ("Size", .number (Decimal.intText f.size)), ("Mode", .text (modeText f.mode)),
        ("Blob", .text f.blob)]))]

def backupRow (b : Backup) : List Bytes :=
  let m := b.manifest
  [cell b.dir, cell m.createdAt.tableText, shorten 12 m.snapshotId,
    cell (Decimal.digitText (m.functions.getD []).length),
    cell (Decimal.digitText m.files.length)]

def backupRoot (flags : Given) (s : Settings) : String :=
  let dir := s.deletion.backupDir
  let root := flags.text "root"
  if flags.text "dir" ≠ "" then flags.text "dir"
  else if root ≠ "" && !Path.isAbsolute dir then Path.join root dir
  else dir

def shownBackups (flags : Given) (s : Settings) (d : Disk) : Except Fault (List Backup) :=
  Backup.all (backupRoot flags s) d

def listBackups (flags : Given) : Action Unit := do
  let settings ← loadSettings flags
  let backups ← Action.ofExcept (shownBackups flags settings (← get).disk)
  if backups.isEmpty then
    Action.announce .warning ("No backups in " ++ backupRoot flags settings)
  else
    let w ← Writer.make settings flags
    w.output {} <| .table
      { title := "Backups"
        headers := ["Path", "Created", "Snapshot", "Functions", "Files"]
        rows := backups.map backupRow
        data := some (.list (backups.map (·.manifest.toJson)))
        listing := some (.list (backups.map (manifestListing ·.manifest))) }

/-! ## Deleting -/

def question (count : Nat) : String :=
  "Delete " ++ Decimal.digitText count ++ " function(s)? [y/N] "

def saysYes (input : Bytes) : Bool :=
  let first := Text.ofUtf8Lossy (input.takeWhile (· != 10))
  ["y", "yes"].contains (Text.lower (Text.trim first))

def Workspace.checks (ws : Workspace) (flags : Given) : Checks :=
  let v := ws.settings.validation
  ⟨v.typeCheckCommand, v.testCommand, sourceRoot ws.snapshot flags, v.timeoutSeconds * 1000⟩

/-- What a run asks of this session. The state is what was asked so far. -/
def surroundings (flags : Given) (ws : Workspace) (input : Bytes) : Surroundings String Float where
  confirm :=
    if flags.isOn "yes" then none
    else some fun candidates asked => (saysYes input, asked ++ question candidates.length)
  validate asked d :=
    let (verdict, d) := (ws.checks flags).run Shell.run d
    (verdict, asked, d)

def batchRow (w : Writer) (b : BatchOutcome) : Action (List Bytes) := do
  let status ← w.severity b.status.name
  return [cell (Decimal.digitText (b.index + 1)), cell (Decimal.digitText b.functions.length),
    shorten 60 (Text.join ", " b.files), cell status, cell b.verdict.label]

def showPreview (w : Writer) (o : PruneOptions Float) (outcome : PruneOutcome Float) :
    Action Unit := do
  if outcome.candidates.isEmpty then Action.announce .success "No deletion candidates found"
  else
    w.output candidateShape (← candidateTable w "Deletion Preview" outcome.candidates)
    for warning in outcome.warnings do
      w.say .warning warning
    if !o.execute then w.say .info "Preview only. Re-run with --execute to delete."

def showDeletion (w : Writer) (outcome : PruneOutcome Float) : Action Unit := do
  let count (cs : List (Candidate Float)) : String := Decimal.digitText cs.length
  let rows ← outcome.batches.mapM (batchRow w)
  w.output candidateShape <| .table
    { title := "Deletion Batches"
      headers := ["Batch", "Functions", "Files", "Status", "Validation"]
      rows
      data := some (.list (outcome.batches.map (·.toJson))) }
  w.say .info ("Validation before: " ++ outcome.before.label ++ ", after: " ++ outcome.after.label)
  for warning in outcome.warnings do
    w.say .warning warning
  for error in outcome.errors do
    w.say .error error
  w.say .success ("Deleted " ++ count outcome.deleted ++ " of " ++ count outcome.candidates
    ++ " function(s); " ++ count outcome.skipped ++ " skipped")
  w.say .info ("Backup: " ++ outcome.backupPath ++ " (undo with 'funcqc restore "
    ++ outcome.backupPath ++ "')")

def showOutcome (flags : Given) (ws : Workspace) (o : PruneOptions Float)
    (outcome : PruneOutcome Float) : Action Unit := do
  let w ← Writer.make ws.settings flags
  if w.wantsData then w.output candidateShape (.raw outcome.toJson)
  else if outcome.executed then showDeletion w outcome
  else showPreview w o outcome

def deletionRun (flags : Given) (ws : Workspace) (s : Session) : RunEnd String Float :=
  prune (surroundings flags ws s.input) (pruneOptions flags ws) s.freshId s.now ws.functions
    ws.edges (some (evidenceFor flags ws)) "" s.disk

def runDeletion (flags : Given) : Action Unit := do
  let ws ← Workspace.load flags
  let ended := deletionRun flags ws (← get)
  modify fun s => { s with disk := ended.disk, asked := ended.outer }
  match ended.fault, ended.outcome with
  | some f, outcome =>
    Action.printAside ((Ending.failed f.message).message "Deleting")
    let backup := (outcome.map (·.backupPath)).getD ""
    if backup ≠ "" then Action.announce .warning ("Backup retained at " ++ backup)
    throw f
  | none, some outcome => showOutcome flags ws (pruneOptions flags ws) outcome
  | none, none => pure ()

def deleteFunctions (flags : Given) : Action Unit := do
  let settings ← loadSettings flags
  let given := flags.text "restore"
  let backup := if given = "" then settings.deletion.restore else given
  if backup ≠ "" then restoreBackup backup else runDeletion flags

end Deadwood.CommandLine
