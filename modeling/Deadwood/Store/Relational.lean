import Deadwood.Store.Memory

/-!
# Snapshots in tables

A store that keeps the parts of snapshots in tables, whose rows are told apart by primary keys. The
rows of a snapshot are stored one after the other in one transaction, so that a snapshot is stored
completely or not at all. Creation times are kept as nanoseconds in a word of 64 bits. What is no
number becomes null in a column of numbers, and some columns must not be null.

## Main definitions

* `Row`, `Tables`: the tables.
* `columnOf`, `CallEdge.stored`, `MethodOverride.stored`: what columns keep of confidences.
* `NewRow`, `Tables.insert`, `Tables.insertAll`: storing rows.
* `Snapshot.rows`: the rows of a snapshot.
* `Database`: tables that can be closed, and the questions they answer.
-/

namespace Deadwood

/-! ## Tables -/

structure Row (α : Type) where
  snapshotId : String
  record : α

/-- What tells the rows of a table apart: the snapshot, and a key of the record. -/
def Row.primaryKey {α κ : Type} (key : α → κ) (r : Row α) : String × κ :=
  (r.snapshotId, key r.record)

structure SnapshotRow where
  id : String
  label : String
  rootDir : String
  createdAt : Int
  deriving Repr, DecidableEq

/-- A call with its position among the calls of its snapshot. -/
structure PlacedCall where
  position : Nat
  call : CallEdge Float

structure Tables where
  snapshots : List SnapshotRow := []
  functions : List (Row FunctionRecord) := []
  calls : List (Row PlacedCall) := []
  types : List (Row TypeDefinition) := []
  members : List (Row TypeMember) := []
  overrides : List (Row (MethodOverride Float)) := []

/-- What a column of numbers keeps: null for what is no number, and zero without its sign. -/
def columnOf (x : Float) : Option Float :=
  if x.isNaN then none else if 0 == x then some 0 else some x

def CallEdge.stored (e : CallEdge Float) : CallEdge Float :=
  { e with confidence := e.confidence.bind columnOf }

def MethodOverride.stored (o : MethodOverride Float) : MethodOverride Float :=
  { o with confidence := (columnOf o.confidence).getD 0 }

def SnapshotRow.ofInfo (i : SnapshotInfo) : SnapshotRow :=
  ⟨i.id, i.label, i.rootDir, Word.wrap i.createdAt.nanos⟩

def SnapshotRow.info (r : SnapshotRow) : SnapshotInfo :=
  ⟨r.id, r.label, r.rootDir, ⟨r.createdAt, 0⟩⟩

def recordsOf {α : Type} (id : String) (rows : List (Row α)) : List α :=
  (rows.filter (·.snapshotId = id)).map (·.record)

/-- All pairs of rows of two tables that belong together. -/
def joined {α β : Type} (on : α → β → Bool) (as : List α) (bs : List β) : List (α × β) :=
  as.flatMap fun a => (bs.filter (on a)).map fun b => (a, b)

/-! ## Storing rows -/

inductive NewRow where
  | snapshot (r : SnapshotRow)
  | function (r : Row FunctionRecord)
  | call (r : Row PlacedCall)
  | type (r : Row TypeDefinition)
  | member (r : Row TypeMember)
  | override (r : Row (MethodOverride Float))

def constraintFault (what problem code : String) : Fault :=
  .context ("failed to insert " ++ what)
    (.other ("constraint failed: " ++ problem ++ " (" ++ code ++ ")"))

/-- The failure of storing a row whose primary key is taken. -/
def uniqueFault (what : String) (columns : List String) : Fault :=
  constraintFault what ("UNIQUE constraint failed: " ++ Text.join ", " columns) "1555"

def NewRow.conflict : NewRow → Fault
  | snapshot _ => uniqueFault "snapshot" ["snapshots.id"]
  | function _ => uniqueFault "functions" ["functions.snapshot_id", "functions.id"]
  | call _ => uniqueFault "call edges" ["call_edges.snapshot_id", "call_edges.seq"]
  | type _ =>
    uniqueFault "type definitions" ["type_definitions.snapshot_id", "type_definitions.id"]
  | member _ => uniqueFault "type members" ["type_members.snapshot_id", "type_members.id"]
  | override _ =>
    uniqueFault "method overrides" ["method_overrides.snapshot_id", "method_overrides.id"]

/-- The failure of storing a row with a null that must not be there. -/
def NewRow.nullFault? : NewRow → Option Fault
  | override r =>
    if (columnOf r.record.confidence).isNone then
      some (constraintFault "method overrides"
        "NOT NULL constraint failed: method_overrides.confidence_score" "1299")
    else none
  | _ => none

namespace Tables

def isTaken (t : Tables) : NewRow → Bool
  | .snapshot r => (t.snapshots.map (·.id)).contains r.id
  | .function r => (t.functions.map (·.primaryKey (·.id))).contains (r.primaryKey (·.id))
  | .call r => (t.calls.map (·.primaryKey (·.position))).contains (r.primaryKey (·.position))
  | .type r => (t.types.map (·.primaryKey (·.id))).contains (r.primaryKey (·.id))
  | .member r => (t.members.map (·.primaryKey (·.id))).contains (r.primaryKey (·.id))
  | .override r => (t.overrides.map (·.primaryKey (·.id))).contains (r.primaryKey (·.id))

def add (t : Tables) : NewRow → Tables
  | .snapshot r => { t with snapshots := t.snapshots ++ [r] }
  | .function r => { t with functions := t.functions ++ [r] }
  | .call ⟨id, c⟩ => { t with calls := t.calls ++ [⟨id, { c with call := c.call.stored }⟩] }
  | .type r => { t with types := t.types ++ [r] }
  | .member r => { t with members := t.members ++ [r] }
  | .override ⟨id, o⟩ => { t with overrides := t.overrides ++ [⟨id, o.stored⟩] }

def insert (t : Tables) (r : NewRow) : Except Fault Tables :=
  match r.nullFault? with
  | some f => .error f
  | none => if t.isTaken r then .error r.conflict else .ok (t.add r)

/-- Store rows one after the other until one cannot be stored. Those before it are in the tables
then. -/
def insertAll : List NewRow → Tables → Except Fault Unit × Tables
  | [], t => (.ok (), t)
  | r :: rs, t =>
    match t.insert r with
    | .ok t => insertAll rs t
    | .error f => (.error f, t)

end Tables

def Snapshot.placedCalls (s : Snapshot) : List PlacedCall :=
  s.edges.mapIdx PlacedCall.mk

/-- The rows of a snapshot in the order in which they are stored. -/
def Snapshot.rows (s : Snapshot) : List NewRow :=
  .snapshot (.ofInfo s.info)
    :: s.functions.map (fun f => .function ⟨s.info.id, f⟩)
    ++ s.placedCalls.map (fun c => .call ⟨s.info.id, c⟩)
    ++ s.types.map (fun t => .type ⟨s.info.id, t⟩)
    ++ s.members.map (fun m => .member ⟨s.info.id, m⟩)
    ++ s.overrides.map (fun o => .override ⟨s.info.id, o⟩)

/-! ## Databases -/

/-- Tables that may be closed. -/
structure Database where
  tables : Tables := {}
  isOpen : Bool := true

namespace Database

def ensureOpen (db : Database) (what : String) : Except Fault Unit :=
  if db.isOpen then .ok () else .error (.context what (.other "sql: database is closed"))

def transact (rows : List NewRow) (db : Database) : Except Fault Unit × Database :=
  match db.ensureOpen "failed to begin transaction" with
  | .error f => (.error f, db)
  | .ok () =>
    match Tables.insertAll rows db.tables with
    | (.ok (), tables) => (.ok (), { db with tables })
    -- the rows that were stored before the failure are taken back
    | (.error f, _) => (.error f, db)

def save (r : SaveRequest) (db : Database) : Except Fault SnapshotInfo × Database :=
  match r.snapshot.problem? with
  | some p => (.error (.other p.message), db)
  | none =>
    match db.transact r.stamped.rows with
    | (.ok (), db) => (.ok r.stamped.info, db)
    | (.error f, db) => (.error f, db)

/-! ## Questions -/

def info (db : Database) (id : String) : Except Fault SnapshotInfo := do
  db.ensureOpen "failed to read snapshot"
  match db.tables.snapshots.find? (·.id = id) with
  | some r => return r.info
  | none => throw (.noSnapshot (some id))

/-- The rows of all snapshots, those with the largest creation times first. -/
def newestFirst (t : Tables) : List SnapshotRow :=
  t.snapshots.mergeSort fun a b =>
    if a.createdAt = b.createdAt then a.id ≤ b.id else b.createdAt < a.createdAt

def infos (db : Database) : Except Fault (List SnapshotInfo) := do
  db.ensureOpen "failed to list snapshots"
  return (newestFirst db.tables).map (·.info)

def latest (db : Database) : Except Fault SnapshotInfo := do
  db.ensureOpen "failed to read latest snapshot"
  match newestFirst db.tables with
  | [] => throw (.noSnapshot none)
  | r :: _ => return r.info

/-- Functions are ordered by file, then by line, then by id. -/
def functionBefore (f g : FunctionRecord) : Bool :=
  if f.filePath = g.filePath then
    if f.startLine = g.startLine then f.id ≤ g.id else f.startLine < g.startLine
  else f.filePath < g.filePath

def functions (db : Database) (id : String) : Except Fault (List FunctionRecord) := do
  let _ ← db.info id
  return (recordsOf id db.tables.functions).mergeSort functionBefore

def edges (db : Database) (id : String) : Except Fault (List (CallEdge Float)) := do
  let _ ← db.info id
  return ((recordsOf id db.tables.calls).mergeSort fun a b => a.position ≤ b.position).map (·.call)

def membersOf (db : Database) (id typeId : String) : Except Fault (List TypeMember) := do
  db.ensureOpen "failed to query type members"
  return ((recordsOf id db.tables.members).filter (·.typeId = typeId)).mergeSort
    fun a b => a.id ≤ b.id

/-- The overrides by methods whose body is a function, ordered by id. All of them must be of known
kinds. -/
def overridesOf (db : Database) (id functionId : String) :
    Except Fault (List (MethodOverride Float)) := do
  db.ensureOpen "failed to query method overrides"
  let methods := joined
    (fun o m => m.snapshotId = o.snapshotId && m.record.id = o.record.methodMemberId)
    db.tables.overrides db.tables.members
  let found := ((methods.filter fun p =>
    p.1.snapshotId = id && p.2.record.functionId = functionId).map (·.1.record)).mergeSort
      fun a b => a.id ≤ b.id
  match found.find? (!·.kind.isKnown) with
  | some o => throw (.other (SnapshotProblem.unknownOverrideKind o.id o.kind.name).message)
  | none => return found

/-- The classes with a method that implements an interface, ordered by id. -/
def implementorsOf (db : Database) (id interfaceId : String) :
    Except Fault (List TypeDefinition) := do
  db.ensureOpen "failed to query implementing classes"
  let sources := ((recordsOf id db.tables.overrides).filter fun o =>
    o.targetTypeId = interfaceId && o.kind = .implement).map (·.sourceTypeId)
  let found := (recordsOf id db.tables.types).filter fun t =>
    t.kind = .classType && sources.contains t.id
  return (found.mergeSort fun a b => a.id ≤ b.id).map fun t => { t with snapshotId := id }

def answer {α : Type} : StoreQuery α → Database → Except Fault α
  | .info id, db => db.info id
  | .infos, db => db.infos
  | .latest, db => db.latest
  | .functions id, db => db.functions id
  | .edges id, db => db.edges id
  | .members id typeId, db => db.membersOf id typeId
  | .overrides id functionId, db => db.overridesOf id functionId
  | .implementors id interfaceId, db => db.implementorsOf id interfaceId

instance : SnapshotStore Database where
  fresh := {}
  -- rows are copies, so it does not matter in which memory a snapshot lies
  attempt a := save a.request
  answer := answer

end Database

end Deadwood
