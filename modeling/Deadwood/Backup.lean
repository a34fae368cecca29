import Deadwood.Disk.Replace
import Deadwood.Hash.Blake3
import Deadwood.Json.Printer
import Deadwood.Json.Reader
import Deadwood.Sorted.Quick
import Deadwood.Time
import Deadwood.Zstd

/-!
# Backups

A backup is a directory with the compressed contents of some files and a manifest that says where
they belong. Contents are named by their digest and checked against it whenever they are read.

## Main definitions

* `BackupFile`, `Manifest`, `Backup`: a backup and its files.
* `BackupStep`, `BackupMeans`: what making a backup depends on besides the disk.
* `Backup.create`, `Backup.open_`: make a backup, or read one.
* `Backup.content`, `Backup.restore`: the captured contents, and putting them back.
* `Backup.all`: the backups in a directory.
-/

namespace Deadwood

/-- A captured file. -/
structure BackupFile where
  path : String := ""
  digest : String := ""
  size : Int := 0
  mode : Nat := 0
  /-- Where its content lies in the backup. -/
  blob : String := ""
  deriving Repr, DecidableEq, Inhabited

/-- What a backup holds. -/
structure Manifest where
  id : String := ""
  snapshotId : String := ""
  createdAt : Timestamp := .zero
  /-- The functions that were to be deleted, if they are known. -/
  functions : Option (List String) := none
  /-- The captured files, if they are listed. -/
  fileList : Option (List BackupFile) := none
  deriving Repr, DecidableEq, Inhabited

/-- A backup in a directory. -/
structure Backup where
  dir : String
  manifest : Manifest
  deriving Repr, DecidableEq, Inhabited

/-- The steps of making a backup that the system may refuse. -/
inductive BackupStep where
  | makeDir (path : String)
  | stat (path : String)
  | openFile (path : String)
  | read (path : String)
  /-- A step of writing the compressed content of a file. -/
  | blob (path : String) (step : ReplaceStep)
  /-- A step of writing the manifest. -/
  | manifest (step : ReplaceStep)
  deriving Repr, DecidableEq

/-- What making a backup depends on besides the disk: how contents are compressed, and what the
system refuses. -/
structure BackupMeans where
  compress : Bytes → Bytes := Zstd.encode
  refused : BackupStep → Option Refusal := fun _ => none

/-! ## Manifests -/

open Json.Reader (at_)

def BackupFile.toJson (f : BackupFile) : Json :=
  .object [("path", .text f.path), ("digest", .text f.digest), ("size", .int f.size),
    ("mode", .nat f.mode), ("blob", .text f.blob)]

def BackupFile.reader : Json.Reader BackupFile :=
  .record [
    at_ "path" .text (·.path) ({ · with path := · }),
    at_ "digest" .text (·.digest) ({ · with digest := · }),
    at_ "size" .int (·.size) ({ · with size := · }),
    at_ "mode" (.natBelow 0x100000000) (·.mode) ({ · with mode := · }),
    at_ "blob" .text (·.blob) ({ · with blob := · })]

namespace Manifest

def files (m : Manifest) : List BackupFile :=
  m.fileList.getD []

def toJson (m : Manifest) : Json :=
  .object <|
    [("id", .text m.id)]
    ++ Json.textUnlessEmpty "snapshot_id" m.snapshotId
    ++ [("created_at", .text m.createdAt.text),
      ("functions", (m.functions.map Json.texts).getD .null),
      ("files", (m.fileList.map fun fs => Json.list (fs.map (·.toJson))).getD .null)]

def reader : Json.Reader Manifest :=
  .record [
    at_ "id" .text (·.id) ({ · with id := · }),
    at_ "snapshot_id" .text (·.snapshotId) ({ · with snapshotId := · }),
    at_ "created_at" Timestamp.reader (·.createdAt) ({ · with createdAt := · }),
    at_ "functions" (.list "" .text) (·.functions) ({ · with functions := · }),
    at_ "files" (.list {} BackupFile.reader) (·.fileList) ({ · with fileList := · })]

def parse? (bs : Bytes) : Option Manifest := do
  let v ← Json.parse? (Text.ofUtf8Lossy bs)
  reader [v] {}

/-- The captured file of a path. If there are several, the last one counts. -/
def file? (m : Manifest) (path : String) : Option BackupFile :=
  m.files.reverse.find? (·.path = path)

end Manifest

namespace Backup

def manifestPath (dir : String) : String :=
  Path.join dir "manifest.json"

/-- The captured paths in the order of the manifest. -/
def paths (b : Backup) : List String :=
  b.manifest.files.map (·.path)

/-! ## Making a backup -/

def capture (means : BackupMeans) (dir path : String) (d : Disk) : Except Fault BackupFile × Disk :=
  match Refusal.orElse (means.refused (.stat path)) "stat" path (d.stat path) with
  | .error f => (.error (.file "stat" path f), d)
  | .ok node =>
    match Refusal.orElse (means.refused (.openFile path)) "open" path
        (Refusal.orElse (means.refused (.read path)) "read" path (d.readFile path)) with
    | .error f => (.error (.file "read" path f), d)
    | .ok content =>
      let digest := Blake3.hex content
      let blob := "files/" ++ digest ++ ".zst"
      match d.writeSynced (means.refused <| .blob path ·) (Path.join dir blob)
          (means.compress content) with
      | (some f, d) => (.error f, d)
      | (none, d) =>
        (.ok { path, digest, size := content.length, mode := node.permissions, blob }, d)

/-- Capture files one after the other, up to the first failure. -/
def captureAll (means : BackupMeans) (dir : String) :
    List String → Disk → Except Fault (List BackupFile) × Disk
  | [], d => (.ok [], d)
  | p :: ps, d =>
    match capture means dir p d with
    | (.error f, d) => (.error f, d)
    | (.ok file, d) =>
      match captureAll means dir ps d with
      | (.error f, d) => (.error f, d)
      | (.ok files, d) => (.ok (file :: files), d)

/-- The failure of writing a manifest with a time that has no written form. -/
def unwritableTime : Fault :=
  .context "failed to encode backup manifest"
    (.other ("json: error calling MarshalJSON for type time.Time: "
      ++ "Time.MarshalJSON: year outside of range [0,9999]"))

/-- Capture some files in a new directory below `root`. The manifest is written last, so a backup
that failed half-way has none. -/
def create (means : BackupMeans) (id : String) (now : Timestamp) (root snapshotId : String)
    (functions paths : List String) (d : Disk) : Except Fault Backup × Disk :=
  let dir := Path.join root id
  match d.makeEach (means.refused <| .makeDir ·) (Disk.pathsTo (Path.join dir "files")) with
  | (some f, d) => (.error (.file "create backup dir" dir f), d)
  | (none, d) =>
    match captureAll means dir (distinctTexts paths) d with
    | (.error f, d) => (.error f, d)
    | (.ok files, d) =>
      let manifest : Manifest :=
        { id, snapshotId, createdAt := now.utc, functions := some functions,
          fileList := some files }
      if !manifest.createdAt.isWritable then (.error unwritableTime, d)
      else
        match d.replaceFileUnder (means.refused <| .manifest ·) Disk.tempDigits (manifestPath dir)
            (Text.utf8 manifest.toJson.pretty) 0o644 with
        | (some f, d) => (.error f, d)
        | (none, d) => (.ok ⟨dir, manifest⟩, d)

/-! ## Reading a backup -/

def open_ (dir : String) (d : Disk) : Except Fault Backup :=
  match d.readFile (manifestPath dir) with
  | .error f => .error (.file "read manifest" dir f)
  | .ok bs =>
    match Manifest.parse? bs with
    | none => .error (.context ("invalid backup manifest in " ++ dir) (.malformed "invalid JSON"))
    | some manifest => .ok ⟨dir, manifest⟩

/-- The content of a captured file, which must have the digest of the manifest. -/
def content (b : Backup) (path : String) (d : Disk) : Except Fault Bytes :=
  match b.manifest.file? path with
  | none => .error (.file "lookup backup" path .missing)
  | some file =>
    match d.readFile (Path.join b.dir file.blob) with
    | .error f => .error (.file "read backup blob" path f)
    | .ok blob =>
      match Zstd.decode blob with
      | .error p => .error (.file "decompress backup blob" path (.other p.message))
      | .ok content =>
        let digest := Blake3.hex content
        if digest = file.digest then .ok content
        else
          .error (.file "verify backup blob" path
            (.other ("digest mismatch: want " ++ file.digest ++ ", got " ++ digest)))

def modeOf (b : Backup) (path : String) : Nat :=
  ((b.manifest.file? path).map (·.mode)).getD 0

/-! ## Putting files back -/

/-- Put one file back, and check what is there then. -/
def restoreFile (b : Backup) (path : String) (d : Disk) : Option Fault × Disk :=
  match b.content path d with
  | .error f => (some f, d)
  | .ok content =>
    match d.replaceFile path content (b.modeOf path) with
    | (some f, d) => (some f, d)
    | (none, d) =>
      match d.readFile path with
      | .error f => (some (.file "verify restore" path f), d)
      | .ok written =>
        if some (Blake3.hex written) = (b.manifest.file? path).map (·.digest) then (none, d)
        else
          (some (.file "verify restore" path (.other "restored content does not match backup")), d)

/-- Put files back one after the other. A failure does not stop the others. -/
def restoreEach (b : Backup) : List String → Disk → List Fault × Disk
  | [], d => ([], d)
  | p :: ps, d =>
    let (failed, d) := b.restoreFile p d
    let (rest, d) := b.restoreEach ps d
    (failed.toList ++ rest, d)

/-- Put some files back, and all of them if none are named. -/
def restore (b : Backup) (paths : List String) (d : Disk) : Option Fault × Disk :=
  let (faults, d) := b.restoreEach (if paths.isEmpty then b.paths else paths) d
  (if faults.isEmpty then none else some (.several faults), d)

/-- Open the backup in a directory and put all its files back. -/
def restoreDir (dir : String) (d : Disk) : Option Fault × Disk :=
  match open_ dir d with
  | .error f => (some f, d)
  | .ok b => b.restore [] d

def discardDir (dir : String) (d : Disk) : Option Fault × Disk :=
  match open_ dir d with
  | .error f => (some f, d)
  | .ok b =>
    match d.removeTree b.dir with
    | .error f => (some (.file "discard backup" b.dir f), d)
    | .ok d => (none, d)

/-! ## Finding backups -/

/-- Newer backups come first; equally old ones are ordered by id. -/
def before (a b : Backup) : Bool :=
  if a.manifest.createdAt.nanos = b.manifest.createdAt.nanos then a.manifest.id < b.manifest.id
  else b.manifest.createdAt.nanos < a.manifest.createdAt.nanos

/-- The backups in the directories below `root`, newest first. Directories without a readable
manifest are passed over. -/
def all (root : String) (d : Disk) : Except Fault (List Backup) :=
  match d.list root with
  | .error f => if f.isMissing then .ok [] else .error (.file "list backups" root f)
  | .ok entries =>
    .ok (sortedBy before (entries.filterMap fun (name, node) =>
      match node with
      | .file _ _ => none
      | .directory => (open_ (Path.join root name) d).toOption))

end Backup

end Deadwood
