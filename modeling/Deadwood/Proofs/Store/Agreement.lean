import Deadwood.Proofs.Evidence.Session
import Deadwood.Proofs.Scale
import Deadwood.Proofs.Store.Acceptance

/-!
# Both stores answer alike

A store in memory looks through the lists of a snapshot, a database goes through tables that hold
the rows of all snapshots. Of a snapshot that both accepted, they tell the same. Functions and
members come in another order from a database, which makes no difference to the evidence, since
members are looked up by their ids.

## Main definitions

* `SnapshotStore.Accepted`: an attempt to save a snapshot succeeds in a history.
* `FunctionRecord.Precedes`: the order of the functions in a database.

## Main results

* `TypeFacts.evidence_congr`: evidence depends on members through look-ups only.
* `stores_answer_alike`: both stores agree.
-/

namespace Deadwood

open SnapshotStore

/-! ## Functions in order -/

/-- The order by file, then by line, then by id. -/
@[grind] def FunctionRecord.Precedes (f g : FunctionRecord) : Prop :=
  f.filePath < g.filePath ∨
    f.filePath = g.filePath ∧ (f.startLine < g.startLine ∨
      f.startLine = g.startLine ∧ f.id < g.id)

namespace Database

theorem pairwise_precedes_functions {fs : List FunctionRecord} (hids : (fs.map (·.id)).Nodup) :
    (fs.mergeSort functionBefore).Pairwise FunctionRecord.Precedes := by
  refine pairwise_mergeSort_of_nodup ?_ ?_ ?_ hids
  · intro f g h
    grind [functionBefore]
  · intro f g
    grind [functionBefore]
  · intro f g
    grind [functionBefore]

end Database

/-! ## Evidence -/

/-- Classed evidence with confidences as columns keep them. -/
def storedClassed (all : List (Classed Float)) : List (Classed Float) :=
  all.map fun p => (p.1, p.2.stored)

@[simp] theorem EvidenceGroup.ofClass_stored (c : EvidenceClass) (all : List (Classed Float)) :
    ofClass c (storedClassed all) = ofClass c all := by
  unfold ofClass storedClassed
  rw [List.filter_map, List.foldl_map]
  rfl

/-- No evidence depends on a confidence. -/
@[simp] theorem Evidence.weigh_stored (id : String) (all : List (Classed Float))
    (classes : List String) :
    (weigh id (storedClassed all) classes : Evidence Float) = weigh id all classes := by
  have hsignatures : signaturesOf (storedClassed all) = signaturesOf all := by
    simp [signaturesOf, storedClassed, Function.comp_def, MethodOverride.stored]
  unfold weigh
  simp only [EvidenceGroup.ofClass_stored, hsignatures]

/-- Evidence depends on members only in that they are looked up by their ids, and not at all on the
confidences of overrides. -/
theorem TypeFacts.evidence_congr {t t' : TypeFacts Float}
    (hoverrides : ∀ id, t'.overridesOf id = (t.overridesOf id).map (·.stored))
    (hmembers : ∀ typeId id,
      (t'.membersOf typeId).find? (·.id = id) = (t.membersOf typeId).find? (·.id = id))
    (himplementors : t'.implementorsOf = t.implementorsOf) (id : String) :
    t'.evidence id = t.evidence id := by
  have hclass : ∀ o : MethodOverride Float, t'.classOf o.stored = t.classOf o := by
    intro o
    unfold classOf replacesAbstract
    rw [hmembers]
    rfl
  have hall : t'.allOf id = storedClassed (t.allOf id) := by
    unfold allOf classed storedClassed
    rw [hoverrides, List.flatMap_map, List.map_flatMap]
    simp only [hclass, List.map_map]
    rfl
  have hinterfaces : EvidenceSession.interfaceIds (t'.allOf id) =
      EvidenceSession.interfaceIds (t.allOf id) := by
    rw [hall, EvidenceSession.interfaceIds, storedClassed, List.filterMap_map]
    rfl
  unfold evidence classNames implementors
  rw [hinterfaces, himplementors, hall, Evidence.weigh_stored]

/-! ## Agreement -/

/-- In a history of attempts, one to save a snapshot succeeds. -/
def SnapshotStore.Accepted (σ : Type) [SnapshotStore σ] (rs : List SaveRequest) (r : SaveRequest) :
    Prop :=
  ∃ past later, rs = past ++ r :: later ∧ ∃ i, (save r (saveAll past fresh : σ)).1 = .ok i

theorem SnapshotStore.View.holds_of_accepted {σ : Type} [SnapshotStore σ] {Demand : Snapshot → Prop}
    {keep : Snapshot → Snapshot} (v : View σ Demand keep) {rs : List SaveRequest} {r : SaveRequest}
    (h : Accepted σ rs r) :
    Demand r.stamped ∧ ∃ ss, v.Holds (saveAll rs fresh) ss ∧ keep r.stamped ∈ ss := by
  obtain ⟨past, later, rfl, i, hsave⟩ := h
  obtain ⟨ss, hss⟩ := v.exists_holds (isApart_of_mem_own past)
  rw [saveAll_eq] at hsave
  obtain ⟨-, hfits, hnow⟩ := v.attempt_eq_ok hss (SaveAttempt.isApart_own r) hsave
  obtain ⟨ts, hlater⟩ := v.holds_attemptAll hnow (isApart_of_mem_own later)
  have hall : saveAll (past ++ r :: later) (fresh : σ) =
      attemptAll (later.map .own) (attempt (.own r) (attemptAll (past.map .own) fresh)).2 := by
    rw [saveAll_eq, List.map_append, attemptAll, List.foldl_append]
    rfl
  rw [hall]
  exact ⟨hfits.demand, _, hlater, List.mem_append_left ts (List.mem_append_right ss (.head _))⟩

/-- The type relations of a snapshot. -/
def Snapshot.typeFacts (s : Snapshot) : TypeFacts Float :=
  ⟨s.overridesOf, s.membersOf, s.implementorsOf⟩

theorem MemoryStore.Holds.typeSource_eq {m : MemoryStore} {ss : List Snapshot} {s : Snapshot}
    (h : m.Holds ss) (hs : s ∈ ss) : typeSource m s.info.id = s.typeFacts.source := by
  unfold typeSource TypeFacts.source
  congr 1
  · exact funext fun functionId => h.map_get hs (·.overridesOf functionId)
  · exact funext fun typeId => h.map_get hs (·.membersOf typeId)
  · exact funext fun interfaceId => h.map_get hs (·.implementorsOf interfaceId)

theorem Database.Holds.typeSource_eq {db : Database} {ss : List Snapshot} {s : Snapshot}
    (h : db.Holds ss) (hs : s ∈ ss) :
    typeSource db s.info.id = TypeFacts.source { s.typeFacts with
      membersOf := fun typeId => (s.membersOf typeId).mergeSort fun a b => a.id ≤ b.id } := by
  unfold typeSource TypeFacts.source
  congr 1
  · exact funext fun functionId => h.overridesOf_eq hs functionId
  · exact funext fun typeId => h.membersOf_eq hs typeId
  · exact funext fun interfaceId => h.implementorsOf_eq hs interfaceId

/-! ### What tables keep -/

/-- A number is kept as an equal one. -/
theorem beq_of_columnOf {x : Float} (hx : x.isNaN = false) :
    ∃ y, columnOf x = some y ∧ (y == x) = true := by
  unfold columnOf
  rw [hx, if_neg Bool.false_ne_true]
  split_ifs with hzero
  · exact ⟨0, rfl, hzero⟩
  · exact ⟨x, rfl, Float.beq_self hx⟩

theorem Snapshot.overridesOf_stored {s : Snapshot} (h : s.HasDistinctIds) (functionId : String) :
    s.stored.overridesOf functionId = (s.overridesOf functionId).map (·.stored) := by
  have hkeys : ∀ p : MethodOverride Float → Bool, ((s.overrides.filter p).map (·.id)).Nodup :=
    fun p => h.overrides.sublist (List.filter_sublist.map _)
  have hfilter : ∀ ids : List String,
      s.stored.overrides.filter (fun o => ids.contains o.methodMemberId) =
        (s.overrides.filter fun o => ids.contains o.methodMemberId).map (·.stored) :=
    fun ids => List.filter_map
  simp only [overridesOf, members_stored, hfilter]
  rw [sortedBy_key (hkeys _), sortedBy_key]
  · exact (List.map_mergeSort (f := MethodOverride.stored) fun _ _ _ _ => rfl).symm
  · rw [List.map_map]
    exact hkeys _

@[simp] theorem Snapshot.implementorsOf_stored (s : Snapshot) :
    s.stored.implementorsOf = s.implementorsOf := by
  funext interfaceId
  have hsources : (s.stored.overrides.filter fun o =>
      o.targetTypeId = interfaceId && o.kind = .implement).map (·.sourceTypeId) =
      (s.overrides.filter fun o =>
        o.targetTypeId = interfaceId && o.kind = .implement).map (·.sourceTypeId) := by
    change ((s.overrides.map (·.stored)).filter _).map _ = _
    rw [List.filter_map, List.map_map]
    rfl
  unfold implementorsOf
  rw [hsources]
  rfl

end Deadwood
