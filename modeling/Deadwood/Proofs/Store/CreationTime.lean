import Deadwood.Proofs.Store.History

/-!
# Creation times in tables

A database keeps a creation time as nanoseconds in a word of 64 bits, on a clock without offset. So
it keeps exactly the instants from 1677 to 2262, and any other comes back as one of these. If all
creation times of its snapshots fit in, it lists the snapshots as a store in memory does: the newest
first, and those of the same time by their ids. Otherwise it does not.

## Main definitions

* `Timestamp.FitsWord`, `Timestamp.inWord`: the instants that a word can tell, and what it tells.
* `SnapshotInfo.Precedes`: the order of snapshots.

## Main results

* `SnapshotStore.View.holds_stamped`: a store after saves of snapshots that fit in.
* `creation_times_kept_iff`: the creation times and the lists of snapshots of both stores.
-/

namespace Deadwood

open SnapshotStore

/-! ## Instants -/

theorem Word.wrap_eq_self {i : Int} : wrap i = i ↔ -bound ≤ i ∧ i < bound := by
  constructor
  · intro h
    unfold wrap at h
    rw [Int.bmod_def] at h
    unfold count at h
    unfold bound
    omega
  · rintro ⟨hlow, hhigh⟩
    exact wrap_of_bounds hlow hhigh

namespace Timestamp

/-- The nanoseconds of an instant fit into a word. -/
def FitsWord (t : Timestamp) : Prop :=
  -Word.bound ≤ t.nanos ∧ t.nanos < Word.bound

/-- What a word tells of an instant. -/
def inWord (t : Timestamp) : Timestamp :=
  ⟨Word.wrap t.nanos, 0⟩

theorem nanos_inWord {t : Timestamp} : t.inWord.nanos = t.nanos ↔ t.FitsWord :=
  Word.wrap_eq_self

theorem inWord_eq_utc {t : Timestamp} : t.inWord = t.utc ↔ t.FitsWord := by
  rw [← nanos_inWord]
  simp [inWord, utc]

theorem fitsWord_inWord (t : Timestamp) : t.inWord.FitsWord := by
  unfold FitsWord inWord Word.wrap Word.bound
  dsimp only
  rw [Int.bmod_def]
  unfold Word.count
  omega

end Timestamp

/-! ## The order of snapshots -/

namespace SnapshotInfo

/-- The order by time, the newest first, then by id. -/
@[grind] def Precedes (i j : SnapshotInfo) : Prop :=
  j.createdAt.nanos < i.createdAt.nanos ∨ j.createdAt.nanos = i.createdAt.nanos ∧ i.id < j.id

/-- The description with what a word tells of the time. -/
def inWord (i : SnapshotInfo) : SnapshotInfo :=
  { i with createdAt := i.createdAt.inWord }

/-- The description with the time on a clock without offset. -/
def utc (i : SnapshotInfo) : SnapshotInfo :=
  { i with createdAt := i.createdAt.utc }

theorem pairwise_precedes_infos {is : List SnapshotInfo} (hids : (is.map (·.id)).Nodup) :
    (is.mergeSort before).Pairwise Precedes := by
  refine pairwise_mergeSort_of_nodup ?_ ?_ ?_ hids
  · intro i j k
    grind [before]
  · intro i j
    grind [before]
  · intro i j
    grind [before]

/-- The order is the same with all times in words exactly if all of them fit. -/
theorem mergeSort_inWord {is : List SnapshotInfo} :
    (is.map inWord).mergeSort before = (is.mergeSort before).map utc ↔
      ∀ i ∈ is, i.createdAt.FitsWord := by
  constructor
  · intro heq i hi
    have hmem : i.utc ∈ (is.map inWord).mergeSort before := by
      rw [heq]
      exact List.mem_map_of_mem (List.mem_mergeSort.mpr hi)
    obtain ⟨j, -, hj⟩ := List.mem_map.mp (List.mem_mergeSort.mp hmem)
    have htime : j.createdAt.inWord = i.createdAt.utc := congrArg SnapshotInfo.createdAt hj
    have hfits := j.createdAt.fitsWord_inWord
    rwa [htime] at hfits
  · intro hfits
    have hutc : is.map inWord = is.map utc := by
      refine List.map_congr_left fun i hi => ?_
      simp only [inWord, utc, Timestamp.inWord_eq_utc.mpr (hfits i hi)]
    have hsort : (is.mergeSort before).map utc = (is.map utc).mergeSort before :=
      List.map_mergeSort fun _ _ _ _ => rfl
    rw [hutc, hsort]

end SnapshotInfo

/-! ## Saving snapshots that fit in -/

theorem SnapshotStore.View.holds_stamped {σ : Type} [SnapshotStore σ] {Demand : Snapshot → Prop}
    {keep : Snapshot → Snapshot} (v : View σ Demand keep) {x : σ} {ss : List Snapshot}
    (h : v.Holds x ss) {rs : List SaveRequest}
    (hsound : ∀ r ∈ rs, r.snapshot.problem? = none ∧ Demand r.stamped)
    (hids : ((ss ++ rs.map (keep ·.stamped)).map (·.info.id)).Nodup) :
    v.Holds (saveAll rs x) (ss ++ rs.map (keep ·.stamped)) := by
  induction rs generalizing x ss with
  | nil => simpa [saveAll] using h
  | cons r rs ih =>
    have hsplit : ss ++ (r :: rs).map (keep ·.stamped) =
        (ss ++ [keep r.stamped]) ++ rs.map (keep ·.stamped) := by simp
    rw [hsplit] at hids ⊢
    obtain ⟨hfirst, hrest⟩ := List.forall_mem_cons.mp hsound
    have hfits : r.Fits Demand ss := by
      refine ⟨hfirst.1, hfirst.2, ?_⟩
      rw [List.map_append] at hids
      simpa [v.info_keep] using (nodup_keys_concat.mp hids.of_append_left).2
    change v.Holds (saveAll rs (attempt (.own r) x).2) _
    rcases v.attempt_cases h (SaveAttempt.isApart_own r) with ⟨hunfit, -⟩ | ⟨-, x', hsave, hx'⟩
    · exact absurd hfits hunfit
    · rw [hsave]
      exact ih hx' hrest hids

/-! ## Lists of snapshots -/

theorem Database.Holds.infos_eq {db : Database} {ss : List Snapshot} (h : db.Holds ss) :
    db.infos = .ok (((ss.map (·.info)).map (·.inWord)).mergeSort SnapshotInfo.before) := by
  have hsort : (newestFirst db.tables).map (·.info) =
      (db.tables.snapshots.map (·.info)).mergeSort SnapshotInfo.before :=
    List.map_mergeSort fun _ _ _ _ => rfl
  unfold infos
  rw [ensureOpen_eq h.isOpen, hsort, h.tables_eq, Tables.ofSnapshots, List.map_map, List.map_map]
  rfl

theorem Database.latest_eq {db : Database} {is : List SnapshotInfo} (hopen : db.isOpen = true)
    (hinfos : db.infos = .ok is) {i : SnapshotInfo} (hi : i ∈ is.head?) : db.latest = .ok i := by
  unfold infos at hinfos
  unfold latest
  rw [ensureOpen_eq hopen] at hinfos ⊢
  obtain rfl : (newestFirst db.tables).map (·.info) = is := Except.ok.inj hinfos
  cases hrows : newestFirst db.tables with
  | nil => simp [hrows] at hi
  | cons row rows =>
    obtain rfl : row.info = i := by simpa [hrows] using hi
    rfl

theorem MemoryStore.latest_eq {m : MemoryStore} {i : SnapshotInfo} (hi : i ∈ m.infos.head?) :
    m.latest = .ok i := by
  unfold latest
  cases hinfos : m.infos with
  | nil => simp [hinfos] at hi
  | cons first rest =>
    obtain rfl : first = i := by simpa [hinfos] using hi
    rfl

/-- A snapshot with a creation time keeps it when it is saved. -/
theorem SaveRequest.info_stamped {r : SaveRequest}
    (h : r.snapshot.info.createdAt.isZero = false) :
    r.stamped.info = { r.stamped.info with createdAt := r.snapshot.info.createdAt } := by
  simp [stamped, Snapshot.stamped, h]

/-- A database keeps exactly the creation times that fit into a word. It lists its snapshots by the
times that it keeps, as a store in memory does by the real ones, and both lists are the same exactly
if all times fit. -/
theorem creation_times_kept_iff (rs : List SaveRequest)
    (hsound : ∀ r ∈ rs, r.snapshot.problem? = none ∧ r.stamped.IsStorable)
    (hids : (rs.map (·.stamped.info.id)).Nodup)
    (htimes : ∀ r ∈ rs, r.snapshot.info.createdAt.isZero = false) :
    let m : MemoryStore := saveAll rs fresh
    let db : Database := saveAll rs fresh
    let real (r : SaveRequest) : SnapshotInfo :=
      { r.stamped.info with createdAt := r.snapshot.info.createdAt }
    (∀ r ∈ rs, answer (.info r.stamped.info.id) db = .ok (real r).inWord ∧
      ((real r).inWord.createdAt.nanos = (real r).createdAt.nanos ↔
        (real r).createdAt.FitsWord)) ∧
    ∃ is js, answer .infos db = .ok is ∧ answer .infos m = .ok js ∧
      is.Perm (rs.map fun r => (real r).inWord) ∧ is.Pairwise SnapshotInfo.Precedes ∧
      js.Perm (rs.map real) ∧ js.Pairwise SnapshotInfo.Precedes ∧
      (∀ i ∈ is.head?, answer .latest db = .ok i) ∧ (∀ j ∈ js.head?, answer .latest m = .ok j) ∧
      (is = js.map SnapshotInfo.utc ↔ ∀ r ∈ rs, (real r).createdAt.FitsWord) := by
  intro m db real
  have hm : m.Holds (rs.map (id ·.stamped)) :=
    MemoryStore.view.holds_stamped MemoryStore.holds_fresh (fun r hr => ⟨(hsound r hr).1, trivial⟩)
      (by simpa [Function.comp_def] using hids)
  have hdb : db.Holds (rs.map (·.stamped.stored)) :=
    Database.view.holds_stamped Database.holds_fresh hsound
      (by simpa [Function.comp_def] using hids)
  have hstamped : ∀ r ∈ rs, r.stamped.info = real r := fun r hr =>
    SaveRequest.info_stamped (htimes r hr)
  have hreal : (rs.map (id ·.stamped)).map (·.info) = rs.map real := by
    rw [List.map_map]
    exact List.map_congr_left hstamped
  have hreal' : (rs.map (·.stamped.stored)).map (·.info) = rs.map real := by
    rw [List.map_map]
    exact List.map_congr_left hstamped
  have hinfos := hdb.infos_eq
  have hinfos' : m.infos = (rs.map real).mergeSort SnapshotInfo.before := by
    rw [MemoryStore.infos, hm.snapshots_eq, hreal]
  rw [hreal'] at hinfos
  have hids'' : ((rs.map real).map (·.id)).Nodup := by simpa [Function.comp_def] using hids
  refine ⟨?_, _, _, hinfos, congrArg Except.ok hinfos', ?_, ?_, List.mergeSort_perm _ _,
    SnapshotInfo.pairwise_precedes_infos hids'', ?_, ?_, ?_⟩
  · intro r hr
    refine ⟨?_, Timestamp.nanos_inWord⟩
    have hinfo : db.info r.stamped.info.id = .ok r.stamped.info.inWord :=
      hdb.info_eq (s := r.stamped.stored) (List.mem_map_of_mem hr)
    exact hinfo.trans (congrArg (fun i => Except.ok i.inWord) (hstamped r hr))
  · have hkept : (rs.map real).map (·.inWord) = rs.map fun r => (real r).inWord := List.map_map
    rw [← hkept]
    exact List.mergeSort_perm _ _
  · refine SnapshotInfo.pairwise_precedes_infos ?_
    simpa [SnapshotInfo.inWord, Function.comp_def] using hids
  · exact fun i hi => Database.latest_eq hdb.isOpen hinfos hi
  · intro j hj
    exact MemoryStore.latest_eq (hinfos' ▸ hj)
  · rw [SnapshotInfo.mergeSort_inWord]
    simp

/-- The last instant that fits into a word, and the next one. -/
theorem creation_times_kept_iff_end_of_range :
    let request (id : String) (nanos : Int) : SaveRequest :=
      { snapshot := { info := { id, createdAt := ⟨nanos, 60⟩ } } }
    let rs := [request "last" 9223372036854775807, request "next" 9223372036854775808]
    (∀ r ∈ rs, r.snapshot.problem? = none ∧ r.stamped.IsStorable) ∧
    (rs.map (·.stamped.info.id)).Nodup ∧
    (∀ r ∈ rs, r.snapshot.info.createdAt.isZero = false) ∧
    ∃ is js, answer .infos (saveAll rs fresh : Database) = .ok is ∧
      answer .infos (saveAll rs fresh : MemoryStore) = .ok js ∧ is ≠ js.map SnapshotInfo.utc := by
  intro request rs
  have hsound : ∀ r ∈ rs, r.snapshot.problem? = none ∧ r.stamped.IsStorable := by
    intro r hr
    have hr : r = request "last" 9223372036854775807 ∨ r = request "next" 9223372036854775808 := by
      simpa [rs] using hr
    rcases hr with rfl | rfl <;> exact ⟨rfl, ⟨.nil, .nil, .nil⟩, nofun⟩
  have hids : (rs.map (·.stamped.info.id)).Nodup := by decide
  have htimes : ∀ r ∈ rs, r.snapshot.info.createdAt.isZero = false := by decide
  obtain ⟨-, is, js, hdb, hm, -, -, -, -, -, -, hsame⟩ :=
    creation_times_kept_iff rs hsound hids htimes
  refine ⟨hsound, hids, htimes, is, js, hdb, hm, fun heq => ?_⟩
  have hfits := hsame.mp heq (request "next" 9223372036854775808) (by simp [rs])
  exact absurd hfits.2 (by decide)

end Deadwood
