import Deadwood.Json.Access
import Deadwood.Json.Printer
import Deadwood.Store.Relational

/-!
# Database files

The tables of a store lie in one file: a fixed header, and behind it the rows. A file without any
content holds empty tables. Other files are refused.

## Main definitions

* `Tables.toBytes`, `Tables.ofBytes?`: the content of the file.
* `Database.open_`, `Database.writeTo`: a database and its file.
-/

namespace Deadwood

open Json.Reader (at_)

def databaseHeader : Bytes :=
  Text.utf8 "SQLite format 3\x00"

def SnapshotRow.toJson (r : SnapshotRow) : Json :=
  .object [("id", .text r.id), ("label", .text r.label), ("root_dir", .text r.rootDir),
    ("created_at", .int r.createdAt)]

def SnapshotRow.reader : Json.Reader SnapshotRow :=
  .record [
    at_ "id" .text (·.id) ({ · with id := · }),
    at_ "label" .text (·.label) ({ · with label := · }),
    at_ "root_dir" .text (·.rootDir) ({ · with rootDir := · }),
    at_ "created_at" .int (·.createdAt) ({ · with createdAt := · })]

def Row.toJson {α : Type} (write : α → Json) (r : Row α) : Json :=
  .object [("snapshot", .text r.snapshotId), ("record", write r.record)]

def PlacedCall.toJson (c : PlacedCall) : Json :=
  .object [("position", .nat c.position), ("call", c.call.toJson)]

def PlacedCall.reader : Json.Reader PlacedCall :=
  .record [
    at_ "position" .int (·.position) (fun c i => { c with position := i.toNat }),
    at_ "call" CallEdge.reader (·.call) ({ · with call := · })]

def Json.rowsAt {α : Type} (v : Json) (name : String) (r : Json.Reader α) (blank : α) :
    List (Row α) :=
  (v.itemsAt name).map fun row =>
    ⟨row.textAt "snapshot", (row.get "record").read r blank⟩

namespace Tables

def toJson (t : Tables) : Json :=
  .object [
    ("snapshots", .list (t.snapshots.map (·.toJson))),
    ("functions", .list (t.functions.map (·.toJson FunctionRecord.toJson))),
    ("calls", .list (t.calls.map (·.toJson PlacedCall.toJson))),
    ("types", .list (t.types.map (·.toJson TypeDefinition.toJson))),
    ("members", .list (t.members.map (·.toJson TypeMember.toJson))),
    ("overrides", .list (t.overrides.map (·.toJson MethodOverride.toJson)))]

def ofJson (v : Json) : Tables where
  snapshots := v.recordsAt "snapshots" SnapshotRow.reader ⟨"", "", "", 0⟩
  functions := v.rowsAt "functions" FunctionRecord.reader .blank
  calls := v.rowsAt "calls" PlacedCall.reader ⟨0, .blank⟩
  types := v.rowsAt "types" TypeDefinition.reader .blank
  members := v.rowsAt "members" TypeMember.reader .blank
  overrides := v.rowsAt "overrides" MethodOverride.reader .blank

def toBytes (t : Tables) : Bytes :=
  databaseHeader ++ Text.utf8 t.toJson.compact

def ofBytes? (bs : Bytes) : Option Tables :=
  if bs.isEmpty then some {}
  else do
    let rest ← databaseHeader.isPrefixOf? bs
    let v ← Json.parse? (← Text.ofUtf8? rest)
    pure (ofJson v)

end Tables

namespace Database

/-- Whether a path stands for tables that no file holds. -/
def isTransient (path : String) : Bool :=
  path = "" || path = ":memory:"

def refused (reason : String) : Fault :=
  .context "failed to set pragma" (.other reason)

def writeTo (db : Database) (path : String) (d : Disk) : Disk :=
  if isTransient path then d
  else (d.writeFile path db.tables.toBytes 0o644).toOption.getD d

/-- Open the database in a file. The file and the directories above it are made if they are not
there. -/
def open_ (path : String) (d : Disk) : Except Fault (Database × Disk) :=
  if isTransient path then .ok ({}, d)
  else
    let dir := Path.dir path
    match if dir = "." then .ok d else d.makeDirs dir with
    | .error f => .error (.context "failed to create database directory" f)
    | .ok d =>
      match d.find path with
      | .ok (_, .file content _) =>
        match Tables.ofBytes? content with
        | some tables => .ok ({ tables }, d)
        | none => .error (refused "file is not a database (26)")
      | .ok (_, .directory) =>
        .error (refused "unable to open database file: out of memory (14)")
      | .error .noEntry => .ok ({}, writeTo {} path d)
      | .error _ => .error (refused "unable to open database file: out of memory (14)")

end Database

end Deadwood
