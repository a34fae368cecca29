import Deadwood.Code.Json
import Deadwood.Disk.Basic
import Deadwood.Json.Reader
import Deadwood.Text.Quoted
import Deadwood.Time

/-!
# Snapshots

A snapshot is what was extracted from a code base at one moment: its functions, its calls and its
type relations.

## Main definitions

* `SnapshotInfo`, `Snapshot`: a snapshot and its description.
* `SnapshotProblem`, `Snapshot.problem?`: what makes a snapshot unusable.
* `Snapshot.stamped`: a snapshot with an id and a creation time.
* `Snapshot.load`: the snapshot in a file.
-/

namespace Deadwood

/-- The description of a snapshot. -/
structure SnapshotInfo where
  id : String := ""
  label : String := ""
  rootDir : String := ""
  createdAt : Timestamp := .zero
  deriving Repr, DecidableEq, Inhabited

/-- A snapshot. The lists of functions and calls may be missing altogether. -/
structure Snapshot where
  info : SnapshotInfo := {}
  functionList : Option (List FunctionRecord) := none
  edgeList : Option (List (CallEdge Float)) := none
  types : List TypeDefinition := []
  members : List TypeMember := []
  overrides : List (MethodOverride Float) := []

namespace Snapshot

def functions (s : Snapshot) : List FunctionRecord :=
  s.functionList.getD []

def edges (s : Snapshot) : List (CallEdge Float) :=
  s.edgeList.getD []

end Snapshot

/-! ## Well-formedness -/

/-- What makes a snapshot unusable. Positions count from zero. -/
inductive SnapshotProblem where
  | noId (position : Nat) (name : String)
  | duplicateId (position : Nat) (id : String)
  | noCaller (position : Nat)
  | unknownCallKind (position : Nat) (kind : String)
  | unknownType (member type : String)
  | unknownOverrideKind (override kind : String)
  deriving Repr, DecidableEq

def SnapshotProblem.message : SnapshotProblem → String
  | noId i name => "function " ++ Decimal.digitText i ++ " (" ++ name ++ ") has no id"
  | duplicateId i id => "function " ++ Decimal.digitText i ++ " has duplicate id " ++ Text.quoted id
  | noCaller i => "call edge " ++ Decimal.digitText i ++ " has no caller"
  | unknownCallKind i kind =>
    "call edge " ++ Decimal.digitText i ++ " has unknown call type " ++ Text.quoted kind
  | unknownType member type =>
    "type member " ++ member ++ " references unknown type " ++ Text.quoted type
  | unknownOverrideKind id kind =>
    "method override " ++ id ++ " has unknown kind " ++ Text.quoted kind

namespace Snapshot

/-- The first function without an id or with an id that occurred before. -/
def functionProblem? : Nat → List String → List FunctionRecord → Option SnapshotProblem
  | _, _, [] => none
  | i, seen, f :: fs =>
    if f.id = "" then some (.noId i f.name)
    else if f.id ∈ seen then some (.duplicateId i f.id)
    else functionProblem? (i + 1) (f.id :: seen) fs

/-- The first call without a caller or of an unknown kind. -/
def edgeProblem? : Nat → List (CallEdge Float) → Option SnapshotProblem
  | _, [] => none
  | i, e :: es =>
    if e.caller = "" then some (.noCaller i)
    else if !e.kind.isKnown then some (.unknownCallKind i e.kind.name)
    else edgeProblem? (i + 1) es

/-- The first problem of a snapshot: functions, calls, members and overrides are looked at in this
order. -/
def problem? (s : Snapshot) : Option SnapshotProblem :=
  (functionProblem? 0 [] s.functions).or <|
  (edgeProblem? 0 s.edges).or <|
  ((s.members.find? fun m => !(s.types.map (·.id)).contains m.typeId).map
    fun m => SnapshotProblem.unknownType m.id m.typeId).or <|
  (s.overrides.find? (!·.kind.isKnown)).map fun o => .unknownOverrideKind o.id o.kind.name

/-- A snapshot with the given id and creation time where it has none of its own. Its types are
marked with its id. -/
def stamped (s : Snapshot) (id : String) (now : Timestamp) : Snapshot :=
  let id := if s.info.id = "" then id else s.info.id
  let createdAt := if s.info.createdAt.isZero then now.utc else s.info.createdAt
  { s with
    info := { s.info with id, createdAt }
    types := s.types.map fun t => { t with snapshotId := id } }

end Snapshot

/-! ## Written form -/

open Json.Reader (at_)

def SnapshotInfo.toJson (i : SnapshotInfo) : Json :=
  .object <|
    [("id", .text i.id)]
    ++ Json.textUnlessEmpty "label" i.label
    ++ Json.textUnlessEmpty "root_dir" i.rootDir
    ++ [("created_at", .text i.createdAt.text)]

def SnapshotInfo.reader : Json.Reader SnapshotInfo :=
  .record [
    at_ "id" .text (·.id) ({ · with id := · }),
    at_ "label" .text (·.label) ({ · with label := · }),
    at_ "root_dir" .text (·.rootDir) ({ · with rootDir := · }),
    at_ "created_at" Timestamp.reader (·.createdAt) ({ · with createdAt := · })]

namespace Snapshot

def toJson (s : Snapshot) : Json :=
  let listed {α : Type} (name : String) (write : α → Json) (as : List α) : List (String × Json) :=
    if as.isEmpty then [] else [(name, .list (as.map write))]
  .object <|
    [("snapshot", s.info.toJson),
      ("functions", (s.functionList.map fun fs => Json.list (fs.map (·.toJson))).getD .null),
      ("call_edges", (s.edgeList.map fun es => Json.list (es.map (·.toJson))).getD .null)]
    ++ listed "type_definitions" TypeDefinition.toJson s.types
    ++ listed "type_members" TypeMember.toJson s.members
    ++ listed "method_overrides" MethodOverride.toJson s.overrides

def reader : Json.Reader Snapshot :=
  .record [
    at_ "snapshot" SnapshotInfo.reader (·.info) ({ · with info := · }),
    at_ "functions" (.list .blank FunctionRecord.reader) (·.functionList)
      ({ · with functionList := · }),
    at_ "call_edges" (.list .blank CallEdge.reader) (·.edgeList) ({ · with edgeList := · }),
    at_ "type_definitions" (.list .blank TypeDefinition.reader) (fun s => some s.types)
      (fun s ts => { s with types := ts.getD [] }),
    at_ "type_members" (.list .blank TypeMember.reader) (fun s => some s.members)
      (fun s ms => { s with members := ms.getD [] }),
    at_ "method_overrides" (.list .blank MethodOverride.reader) (fun s => some s.overrides)
      (fun s os => { s with overrides := os.getD [] })]

/-- The snapshot in a text. What follows the first value is ignored. -/
def parse? (text : String) : Option Snapshot := do
  let (v, _) ← Json.first? text
  reader [v] {}

/-- The snapshot in a file, which must be well formed. -/
def load (path : String) (d : Disk) : Except Fault Snapshot :=
  let undecoded := Fault.context ("failed to decode snapshot file " ++ path)
  match d.readFile path with
  | .error (.system "read" p e) => .error (undecoded (.system "read" p e))
  | .error f => .error (.context "failed to open snapshot file" f)
  | .ok bs =>
    match parse? (Text.ofUtf8Lossy bs) with
    | none => .error (undecoded (.malformed "invalid JSON"))
    | some s =>
      match s.problem? with
      | some p => .error (.context ("invalid snapshot file " ++ path) (.other p.message))
      | none => .ok s

end Snapshot

end Deadwood
