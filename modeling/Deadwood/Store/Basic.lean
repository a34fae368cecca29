import Deadwood.Evidence.Query
import Deadwood.Snapshot

/-!
# Stores of snapshots

A store is given snapshots one after the other and answers questions about them. A snapshot without
an id or a creation time gets them when it is saved. Its types are marked with its id where they
lie, which may be in the same memory as types of a snapshot that was saved before.

## Main definitions

* `SaveRequest`: a snapshot that is to be saved.
* `StoreQuery`: what can be asked of a store.
* `SaveAttempt`: the memory in which the types of such a snapshot lie.
* `SnapshotStore`: stores, by what they do.
* `SnapshotStore.attemptAll`, `SnapshotStore.saveAll`: a store after a history of saves.
-/

namespace Deadwood

/-- A snapshot that is to be saved, and the id and the time that it gets if it has none. -/
structure SaveRequest where
  snapshot : Snapshot
  freshId : String := ""
  now : Timestamp := .zero

def SaveRequest.stamped (r : SaveRequest) : Snapshot :=
  r.snapshot.stamped r.freshId r.now

/-- Which types of the saved snapshots lie in the same memory as types of one that is to be saved,
by the ids of the snapshots and the positions of the types. -/
abbrev Sharing := String → Nat → Bool

/-- An attempt to save a snapshot that may share memory with saved ones. -/
structure SaveAttempt where
  request : SaveRequest
  shared : Sharing

/-- An attempt to save a snapshot that shares no memory. -/
def SaveAttempt.own (r : SaveRequest) : SaveAttempt :=
  ⟨r, fun _ _ => false⟩

/-- One question, with the type of its answer. Most are about one snapshot, and some of these about
one of its functions or types. -/
inductive StoreQuery : Type → Type where
  | info (id : String) : StoreQuery SnapshotInfo
  | infos : StoreQuery (List SnapshotInfo)
  | latest : StoreQuery SnapshotInfo
  | functions (id : String) : StoreQuery (List FunctionRecord)
  | edges (id : String) : StoreQuery (List (CallEdge Float))
  | members (id typeId : String) : StoreQuery (List TypeMember)
  | overrides (id functionId : String) : StoreQuery (List (MethodOverride Float))
  | implementors (id interfaceId : String) : StoreQuery (List TypeDefinition)

/-- The snapshot that a question is about, if it is about one. -/
def StoreQuery.snapshot? {α : Type} : StoreQuery α → Option String
  | infos | latest => none
  | info id | functions id | edges id => some id
  | members id _ | overrides id _ | implementors id _ => some id

class SnapshotStore (σ : Type) where
  /-- The store that holds nothing. -/
  fresh : σ
  /-- Try to save a snapshot. -/
  attempt : SaveAttempt → σ → Except Fault SnapshotInfo × σ
  answer {α : Type} : StoreQuery α → σ → Except Fault α

namespace SnapshotStore

variable {σ : Type} [SnapshotStore σ]

/-- Try to save a snapshot that shares no memory. -/
def save (r : SaveRequest) (s : σ) : Except Fault SnapshotInfo × σ :=
  attempt (.own r) s

/-- A store after some attempts, one after the other. -/
def attemptAll (as : List SaveAttempt) (s : σ) : σ :=
  as.foldl (fun s a => (attempt a s).2) s

/-- A store after some attempts to save snapshots that share no memory, one after the other. -/
def saveAll (rs : List SaveRequest) (s : σ) : σ :=
  rs.foldl (fun s r => (save r s).2) s

def typeSource (s : σ) (id : String) : TypeSource Float :=
  { overridesOf := fun key => answer (.overrides id key) s
    membersOf := fun key => answer (.members id key) s
    implementorsOf := fun key => answer (.implementors id key) s }

end SnapshotStore

end Deadwood
