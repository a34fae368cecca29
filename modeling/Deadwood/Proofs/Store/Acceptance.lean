import Deadwood.Proofs.Store.History

/-!
# Which snapshots a store takes

Both stores refuse a snapshot with which something is wrong and one whose id is taken. The tables of
a database also have primary keys, one for each kind of record, and a column that must not be null.
For functions the key repeats what makes a snapshot sound; for types, members and overrides the
tables demand more, and there the stores differ.

## Main definitions

* `SnapshotStore.Knows`: there is a snapshot with some id.
* `SnapshotStore.Takes`: a snapshot can be saved.

## Main results

* `SnapshotStore.View.takes_iff`: what a store takes.
* `stores_take_same_iff_isStorable`: when both stores take a snapshot or both refuse it.
-/

namespace Deadwood

namespace SnapshotStore

variable {σ : Type} [SnapshotStore σ]

/-- A store can describe a snapshot with the given id. -/
def Knows (x : σ) (id : String) : Prop :=
  ∃ i, answer (.info id) x = .ok i

/-- A store saves a snapshot when it is given one. -/
def Takes (x : σ) (r : SaveRequest) : Prop :=
  ∃ i, (save r x).1 = .ok i

theorem View.takes_iff {Demand : Snapshot → Prop} {keep : Snapshot → Snapshot}
    (v : View σ Demand keep) (past : List SaveRequest) (r : SaveRequest) :
    let x : σ := saveAll past fresh
    Takes x r ↔ r.snapshot.IsSound ∧ Demand r.stamped ∧ ¬ Knows x r.stamped.info.id := by
  rw [← Snapshot.problem?_eq_none, saveAll_eq]
  exact v.keepsSnapshots.attempt_eq_ok_iff (isApart_of_mem_own _) (SaveAttempt.isApart_own r)

end SnapshotStore

/-- A snapshot gets no other ids for its parts when it is saved. -/
@[simp] theorem SaveRequest.isStorable_stamped (r : SaveRequest) :
    r.stamped.IsStorable ↔ r.snapshot.IsStorable := by
  have htypes : r.stamped.types.map (·.id) = r.snapshot.types.map (·.id) := by
    simp [SaveRequest.stamped, Snapshot.stamped]
  rw [Snapshot.isStorable_iff, Snapshot.isStorable_iff, Snapshot.hasDistinctIds_iff,
    Snapshot.hasDistinctIds_iff, htypes]
  rfl

open SnapshotStore

/-- Of a store in memory and a database that know snapshots of the same ids, the first takes every
sound snapshot with a new id, and the second takes of these the ones without repeated ids among
their types, members and overrides whose overrides have numbers as confidences. So the two agree on
a snapshot unless it is sound and new and not of this kind, and then it is the database that refuses
it. -/
theorem stores_take_same_iff_isStorable (past past' : List SaveRequest) (r : SaveRequest)
    (hsame : ∀ id, Knows (saveAll past fresh : MemoryStore) id ↔
      Knows (saveAll past' fresh : Database) id) :
    let m : MemoryStore := saveAll past fresh
    let db : Database := saveAll past' fresh
    let id := r.stamped.info.id
    (Takes m r ↔ r.snapshot.IsSound ∧ ¬ Knows m id) ∧
    (Takes db r ↔ r.snapshot.IsSound ∧ ¬ Knows db id ∧ r.snapshot.IsStorable) ∧
    ((Takes m r ↔ Takes db r) ↔
      (r.snapshot.IsSound → ¬ Knows m id → r.snapshot.IsStorable)) := by
  intro m db id
  have hm : Takes m r ↔ r.snapshot.IsSound ∧ ¬ Knows m id := by
    simpa using MemoryStore.view.takes_iff past r
  have hdb : Takes db r ↔ r.snapshot.IsSound ∧ ¬ Knows db id ∧ r.snapshot.IsStorable := by
    have h := Database.view.takes_iff past' r
    rw [r.isStorable_stamped] at h
    exact h.trans (and_congr_right fun _ => and_comm)
  have hid : Knows m id ↔ Knows db id := hsame id
  refine ⟨hm, hdb, ?_⟩
  rw [hm, hdb, hid]
  tauto

/-- A type is defined twice. Both stores know one other snapshot, and only the store in memory takes
this one. -/
theorem stores_take_same_iff_isStorable_type_twice :
    let first : SaveRequest := { snapshot := { info := { id := "v1" } } }
    let point : TypeDefinition := { id := "Point", kind := .classType }
    let next : SaveRequest :=
      { snapshot := { info := { id := "v2" }, types := [point, point] } }
    let m : MemoryStore := saveAll [first] fresh
    let db : Database := saveAll [first] fresh
    (∀ id, Knows m id ↔ Knows db id) ∧ Takes m next ∧ ¬ Takes db next := by
  intro first point next m db
  have hfirst := SaveAttempt.isApart_own first
  have hm := (MemoryStore.view.attempt_eq_ok MemoryStore.view.holds_fresh hfirst rfl).2.2
  have hdb := (Database.view.attempt_eq_ok Database.view.holds_fresh hfirst rfl).2.2
  have hsame : ∀ id, Knows m id ↔ Knows db id := fun _ =>
    (MemoryStore.view.info_eq_ok hm).trans (Database.view.info_eq_ok hdb).symm
  have hnew : ¬ Knows m "v2" := fun h =>
    absurd ((MemoryStore.view.info_eq_ok hm).mp h) (by decide)
  obtain ⟨htakes, htakes', -⟩ := stores_take_same_iff_isStorable [first] [first] next hsame
  refine ⟨hsame, htakes.mpr ⟨Snapshot.problem?_eq_none.mp rfl, hnew⟩, fun h => ?_⟩
  have hids : ["Point", "Point"].Nodup := (htakes'.mp h).2.2.types
  exact absurd hids (by decide)

end Deadwood
