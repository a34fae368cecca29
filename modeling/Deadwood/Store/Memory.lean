import Deadwood.Sorted.Quick
import Deadwood.Store.Basic

/-!
# Snapshots in memory

A store that keeps snapshots as they were given, in the memory in which they lie.

## Main definitions

* `Snapshot.mark`: a snapshot some of whose types were marked again.
* `MemoryStore`, `MemoryStore.attempt`: the store and how it grows.
* `MemoryStore.get`, `MemoryStore.infos`, `MemoryStore.latest`: its snapshots.
* `Snapshot.membersOf`, `Snapshot.overridesOf`, `Snapshot.implementorsOf`: the type relations of a
  snapshot.
-/

namespace Deadwood

/-- Newer snapshots come first; equally old ones are ordered by id. -/
def SnapshotInfo.before (a b : SnapshotInfo) : Bool :=
  if a.createdAt.nanos = b.createdAt.nanos then a.id ≤ b.id
  else b.createdAt.nanos < a.createdAt.nanos

/-! ## Type relations -/

namespace Snapshot

def membersOf (s : Snapshot) (typeId : String) : List TypeMember :=
  s.members.filter (·.typeId = typeId)

/-- The overrides by methods whose body is a function, ordered by id. -/
def overridesOf (s : Snapshot) (functionId : String) : List (MethodOverride Float) :=
  let methods := (s.members.filter (·.functionId = functionId)).map (·.id)
  sortedBy (fun a b => a.id < b.id)
    (s.overrides.filter fun o => methods.contains o.methodMemberId)

/-- The classes with a method that implements an interface, ordered by id. -/
def implementorsOf (s : Snapshot) (interfaceId : String) : List TypeDefinition :=
  let sources := (s.overrides.filter fun o =>
    o.targetTypeId = interfaceId && o.kind = .implement).map (·.sourceTypeId)
  sortedBy (fun a b => a.id < b.id)
    (s.types.filter fun t => sources.contains t.id && t.kind = .classType)

end Snapshot

/-! ## The store -/

/-- A snapshot after the types at some positions were marked with an id. -/
def Snapshot.mark (id : String) (isShared : Nat → Bool) (s : Snapshot) : Snapshot :=
  { s with
    types := s.types.mapIdx fun i t => if isShared i then { t with snapshotId := id } else t }

/-- Snapshots with distinct ids. -/
structure MemoryStore where
  snapshots : List Snapshot := []

namespace MemoryStore

def get (m : MemoryStore) (id : String) : Except Fault Snapshot :=
  match m.snapshots.find? (·.info.id = id) with
  | some s => .ok s
  | none => .error (.noSnapshot (some id))

/-- Keep a snapshot. An id that is taken is refused, but not before the types are marked. -/
def attempt (a : SaveAttempt) (m : MemoryStore) : Except Fault SnapshotInfo × MemoryStore :=
  match a.request.snapshot.problem? with
  | some p => (.error (.other p.message), m)
  | none =>
    let s := a.request.stamped
    let m : MemoryStore := ⟨m.snapshots.map fun t => t.mark s.info.id (a.shared t.info.id)⟩
    match m.get s.info.id with
    | .ok _ => (.error (.other ("snapshot " ++ s.info.id ++ " already exists")), m)
    | .error _ => (.ok s.info, ⟨m.snapshots ++ [s]⟩)

def infos (m : MemoryStore) : List SnapshotInfo :=
  (m.snapshots.map (·.info)).mergeSort SnapshotInfo.before

def latest (m : MemoryStore) : Except Fault SnapshotInfo :=
  match m.infos with
  | [] => .error (.noSnapshot none)
  | i :: _ => .ok i

/-- The answer to a question. If there is no such snapshot, every question about it fails. -/
def answer {α : Type} : StoreQuery α → MemoryStore → Except Fault α
  | .info id, m => (m.get id).map (·.info)
  | .infos, m => .ok m.infos
  | .latest, m => m.latest
  | .functions id, m => (m.get id).map (·.functions)
  | .edges id, m => (m.get id).map (·.edges)
  | .members id typeId, m => (m.get id).map (·.membersOf typeId)
  | .overrides id functionId, m => (m.get id).map (·.overridesOf functionId)
  | .implementors id interfaceId, m => (m.get id).map (·.implementorsOf interfaceId)

instance : SnapshotStore MemoryStore where
  fresh := {}
  attempt := attempt
  answer := answer

end MemoryStore

end Deadwood
