import Deadwood.Proofs.Store.Tables

/-!
# What stores hold

A store holds a list of snapshots with different ids, those that it accepted, as far as it keeps
them. An attempt to save a snapshot adds it to the list or leaves the store as it is, unless it
marks types that lie in the memory of another snapshot. What a store answers about a snapshot that
it holds is read off that snapshot alone.

## Main definitions

* `Snapshot.IsSound`: snapshots with which nothing is wrong.
* `SaveRequest.Fits`: the snapshots that a store can take.
* `SaveAttempt.IsApart`: attempts that touch no other snapshot.
* `MemoryStore.Holds`, `Database.Holds`: the snapshots that a store holds.

## Main results

* `Snapshot.problem?_eq_none`: which snapshots have no problem.
* `MemoryStore.Holds.attempt_cases`, `Database.Holds.save_cases`: what an attempt to save can do.
* `MemoryStore.Holds.get_eq`: a snapshot in memory.
* `Database.Holds.info_eq`, `Database.Holds.functions_eq`, `Database.Holds.edges_eq`,
  `Database.Holds.membersOf_eq`, `Database.Holds.overridesOf_eq`,
  `Database.Holds.implementorsOf_eq`: what tables answer about a snapshot.
-/

namespace Deadwood

/-! ## Snapshots that are saved -/

/-- A snapshot can be saved beside others: it is sound, it meets the demands of the store, and its
id is new. -/
structure SaveRequest.Fits (Demand : Snapshot → Prop) (r : SaveRequest) (ss : List Snapshot) :
    Prop where
  sound : r.snapshot.problem? = none
  demand : Demand r.stamped
  isNew : r.stamped.info.id ∉ ss.map (·.info.id)

theorem SaveRequest.not_fits {Demand : Snapshot → Prop} {r : SaveRequest} {ss : List Snapshot}
    {p : SnapshotProblem} (h : r.snapshot.problem? = some p) : ¬ r.Fits Demand ss := by
  intro hfits
  rw [hfits.sound] at h
  cases h

/-- Types share memory only with those of a snapshot of the same id, as if one snapshot is saved
again. -/
def SaveAttempt.IsApart (a : SaveAttempt) : Prop :=
  ∀ id i, a.shared id i → id = a.request.stamped.info.id

theorem SaveAttempt.isApart_own (r : SaveRequest) : (own r).IsApart :=
  fun _ _ h => absurd h Bool.false_ne_true

namespace Snapshot

variable {s : Snapshot}

/-- A snapshot with which nothing is wrong. Only functions are held to have an id, and one each. -/
structure IsSound (s : Snapshot) : Prop where
  nodup_functions : (s.functions.map (·.id)).Nodup
  functionId_ne : ∀ f ∈ s.functions, f.id ≠ ""
  caller_ne : ∀ e ∈ s.edges, e.caller ≠ ""
  isKnown_call : ∀ e ∈ s.edges, e.kind.isKnown
  isDefined_type : ∀ m ∈ s.members, m.typeId ∈ s.types.map (·.id)
  isKnown_override : ∀ o ∈ s.overrides, o.kind.isKnown

theorem functionProblem?_eq_none {i : Nat} {seen : List String} {fs : List FunctionRecord} :
    functionProblem? i seen fs = none ↔
      (fs.map (·.id)).Nodup ∧ ∀ f ∈ fs, f.id ≠ "" ∧ f.id ∉ seen := by
  induction fs generalizing i seen with
  | nil => simp [functionProblem?]
  | cons f fs ih =>
    unfold functionProblem?
    split_ifs with hempty hseen
    · simp [hempty]
    · simp [hseen]
    · rw [ih]
      grind

theorem edgeProblem?_eq_none {i : Nat} {es : List (CallEdge Float)} :
    edgeProblem? i es = none ↔ ∀ e ∈ es, e.caller ≠ "" ∧ e.kind.isKnown := by
  induction es generalizing i with
  | nil => simp [edgeProblem?]
  | cons e es ih =>
    unfold edgeProblem?
    split_ifs with hempty hkind
    · simp [hempty]
    · simp [Bool.eq_false_of_not_eq_true' hkind]
    · rw [ih]
      simp_all

theorem problem?_eq_none : s.problem? = none ↔ s.IsSound := by
  simp only [problem?, Option.or_eq_none_iff, functionProblem?_eq_none, edgeProblem?_eq_none,
    Option.map_eq_none_iff, List.find?_eq_none, Bool.not_eq_true', Bool.not_eq_false,
    List.contains_iff_mem]
  constructor
  · rintro ⟨⟨hnodup, hids⟩, hedges, hmembers, hoverrides⟩
    exact ⟨hnodup, fun f hf => (hids f hf).1, fun e he => (hedges e he).1,
      fun e he => (hedges e he).2, hmembers, hoverrides⟩
  · intro h
    exact ⟨⟨h.nodup_functions, fun f hf => ⟨h.functionId_ne f hf, List.not_mem_nil⟩⟩,
      fun e he => ⟨h.caller_ne e he, h.isKnown_call e he⟩, h.isDefined_type, h.isKnown_override⟩

end Snapshot

/-- A snapshot as a store saves it. -/
structure Snapshot.IsAdmitted (s : Snapshot) : Prop where
  nodup_functions : (s.functions.map (·.id)).Nodup
  isKnown_kind : ∀ o ∈ s.overrides, o.kind.isKnown = true
  snapshotId_eq : ∀ d ∈ s.types, d.snapshotId = s.info.id

theorem SaveRequest.isAdmitted_stamped {r : SaveRequest} (h : r.snapshot.problem? = none) :
    r.stamped.IsAdmitted where
  nodup_functions := (Snapshot.problem?_eq_none.mp h).nodup_functions
  isKnown_kind := (Snapshot.problem?_eq_none.mp h).isKnown_override
  snapshotId_eq d hd := by
    obtain ⟨d, -, rfl⟩ := List.mem_map.mp hd
    rfl

theorem Snapshot.IsAdmitted.stored {s : Snapshot} (h : s.IsAdmitted) : s.stored.IsAdmitted where
  nodup_functions := h.nodup_functions
  isKnown_kind o ho := by
    obtain ⟨o, hmem, rfl⟩ := List.mem_map.mp ho
    exact h.isKnown_kind o hmem
  snapshotId_eq := h.snapshotId_eq

/-- Marking types with the id that they have changes nothing. -/
theorem Snapshot.IsAdmitted.mark_eq {s : Snapshot} (h : s.IsAdmitted) {id : String}
    {isShared : Nat → Bool} (hown : ∀ i, isShared i → s.info.id = id) :
    s.mark id isShared = s := by
  have hmark : ∀ d ∈ s.types, s.info.id = id → { d with snapshotId := id } = d := by
    intro d hd heq
    rw [← heq, ← h.snapshotId_eq d hd]
  have htypes : (s.types.mapIdx fun i t => if isShared i then { t with snapshotId := id } else t) =
      s.types := by
    refine List.ext_getElem (by simp) fun i hi hi' => ?_
    rw [List.getElem_mapIdx]
    split_ifs with hshared
    · exact hmark _ (List.getElem_mem _) (hown i hshared)
    · rfl
  rw [mark, htypes]

/-! ## Memory -/

namespace MemoryStore

variable {m : MemoryStore} {ss : List Snapshot} {s : Snapshot}

/-- A store in memory holds exactly some snapshots. -/
structure Holds (m : MemoryStore) (ss : List Snapshot) : Prop where
  snapshots_eq : m.snapshots = ss
  nodup_ids : (ss.map (·.info.id)).Nodup
  isAdmitted : ∀ s ∈ ss, s.IsAdmitted

theorem holds_fresh : Holds {} [] :=
  ⟨rfl, .nil, by simp⟩

theorem Holds.get_eq (h : m.Holds ss) (hs : s ∈ ss) : m.get s.info.id = .ok s := by
  have hfind : m.snapshots.find? (·.info.id = s.info.id) = some s := by
    rw [h.snapshots_eq]
    exact (find?_key_eq_some h.nodup_ids).mpr ⟨hs, rfl⟩
  rw [get, hfind]

theorem Holds.map_get {α : Type} (h : m.Holds ss) (hs : s ∈ ss) (part : Snapshot → α) :
    (m.get s.info.id).map part = .ok (part s) := by
  rw [h.get_eq hs]
  rfl

theorem Holds.get_eq_error (h : m.Holds ss) {id : String} (hid : id ∉ ss.map (·.info.id)) :
    ∃ f, m.get id = .error f := by
  have hfind : m.snapshots.find? (·.info.id = id) = none := by
    rw [h.snapshots_eq]
    exact find?_key_eq_none hid
  rw [get, hfind]
  exact ⟨_, rfl⟩

/-- Types that lie apart are not marked again. -/
theorem Holds.map_mark (h : m.Holds ss) {a : SaveAttempt} (ha : a.IsApart) :
    m.snapshots.map (fun s => s.mark a.request.stamped.info.id (a.shared s.info.id)) =
      m.snapshots := by
  rw [h.snapshots_eq]
  refine (List.map_congr_left fun s hs => ?_).trans (List.map_id _)
  exact (h.isAdmitted s hs).mark_eq fun i hi => ha _ i hi

/-- An attempt to save a snapshot fails without any effect, or adds the snapshot. -/
theorem Holds.attempt_cases (h : m.Holds ss) {a : SaveAttempt} (ha : a.IsApart) :
    (¬ a.request.Fits (fun _ => True) ss ∧ ∃ f, m.attempt a = (.error f, m)) ∨
      (a.request.Fits (fun _ => True) ss ∧ ∃ m',
        m.attempt a = (.ok a.request.stamped.info, m') ∧ m'.Holds (ss ++ [a.request.stamped])) := by
  unfold attempt
  split
  · rename_i p hproblem
    exact .inl ⟨SaveRequest.not_fits hproblem, _, rfl⟩
  · rename_i hsound
    dsimp only
    rw [h.map_mark ha]
    by_cases hid : a.request.stamped.info.id ∈ ss.map (·.info.id)
    · obtain ⟨s, hs, heq⟩ := List.mem_map.mp hid
      rw [← heq, h.get_eq hs]
      exact .inl ⟨fun hfits => hfits.isNew hid, _, rfl⟩
    · obtain ⟨f, hf⟩ := h.get_eq_error hid
      rw [hf]
      refine .inr ⟨⟨hsound, trivial, hid⟩, _, rfl, by rw [h.snapshots_eq], ?_, ?_⟩
      · exact nodup_keys_concat.mpr ⟨h.nodup_ids, by simpa using hid⟩
      · exact List.forall_mem_append.mpr
          ⟨h.isAdmitted, List.forall_mem_singleton.mpr (SaveRequest.isAdmitted_stamped hsound)⟩

end MemoryStore

/-! ## Tables -/

namespace Database

variable {db : Database} {ss : List Snapshot} {s : Snapshot}

/-- An open database holds exactly some snapshots. -/
structure Holds (db : Database) (ss : List Snapshot) : Prop where
  isOpen : db.isOpen = true
  tables_eq : db.tables = .ofSnapshots ss
  isKeyed : db.tables.IsKeyed
  isAdmitted : ∀ s ∈ ss, s.IsAdmitted

theorem holds_fresh : Holds {} [] :=
  ⟨rfl, rfl, Tables.isKeyed_empty, by simp⟩

theorem ensureOpen_eq (h : db.isOpen = true) (what : String) : db.ensureOpen what = .ok () :=
  if_pos h

namespace Holds

theorem nodup_ids (h : db.Holds ss) : (ss.map (·.info.id)).Nodup :=
  (Tables.isKeyed_ofSnapshots.mp (h.tables_eq ▸ h.isKeyed)).1

theorem hasDistinctIds (h : db.Holds ss) (hs : s ∈ ss) : s.HasDistinctIds :=
  ((Tables.isKeyed_ofSnapshots.mp (h.tables_eq ▸ h.isKeyed)).2 s hs).2

/-- A sound snapshot fits in exactly if it has no nulls and no primary key is there twice with
it. -/
theorem fits_iff (h : db.Holds ss) {r : SaveRequest} (hsound : r.snapshot.problem? = none) :
    r.Fits Snapshot.IsStorable ss ↔ (Tables.ofSnapshots (ss ++ [r.stamped.stored])).IsKeyed ∧
      ∀ row ∈ r.stamped.rows, row.nullFault? = none := by
  have hfunctions := (SaveRequest.isAdmitted_stamped hsound).nodup_functions
  have hold := (Tables.isKeyed_ofSnapshots.mp (h.tables_eq ▸ h.isKeyed)).2
  rw [Tables.isKeyed_ofSnapshots, nodup_keys_concat, Tables.nullFault?_rows]
  constructor
  · intro hfits
    refine ⟨⟨⟨h.nodup_ids, by simpa using hfits.isNew⟩, ?_⟩, hfits.demand.isNumber⟩
    exact List.forall_mem_append.mpr ⟨hold, List.forall_mem_singleton.mpr
      ⟨hfunctions, Snapshot.hasDistinctIds_stored.mpr hfits.demand.toHasDistinctIds⟩⟩
  · rintro ⟨⟨⟨-, hnew⟩, hdistinct⟩, hnumbers⟩
    have hids := (hdistinct r.stamped.stored (by simp)).2
    exact ⟨hsound, ⟨Snapshot.hasDistinctIds_stored.mp hids, hnumbers⟩, by simpa using hnew⟩

/-- An attempt to save a snapshot fails without any effect, or adds the snapshot. -/
theorem save_cases (h : db.Holds ss) (r : SaveRequest) :
    (¬ r.Fits Snapshot.IsStorable ss ∧ ∃ f, db.save r = (.error f, db)) ∨
      (r.Fits Snapshot.IsStorable ss ∧
        ∃ db', db.save r = (.ok r.stamped.info, db') ∧ db'.Holds (ss ++ [r.stamped.stored])) := by
  unfold save
  split
  · rename_i p hproblem
    exact .inl ⟨SaveRequest.not_fits hproblem, _, rfl⟩
  · rename_i hsound
    have hstored : r.stamped.rows.foldl Tables.add db.tables =
        .ofSnapshots (ss ++ [r.stamped.stored]) := by
      rw [h.tables_eq, Tables.ofSnapshots_concat]
    unfold transact
    rw [ensureOpen_eq h.isOpen]
    dsimp only
    cases hinsert : Tables.insertAll r.stamped.rows db.tables with
    | mk outcome tables =>
      cases outcome with
      | error f =>
        refine .inl ⟨fun hfits => ?_, f, rfl⟩
        have hkeyed := (h.fits_iff hsound).mp hfits
        rw [(Tables.insertAll_eq_ok h.isKeyed).mpr ⟨hstored.symm, hkeyed⟩] at hinsert
        cases hinsert
      | ok _ =>
        obtain ⟨rfl, hkeyed, hnull⟩ := (Tables.insertAll_eq_ok h.isKeyed).mp hinsert
        rw [hstored] at hkeyed ⊢
        refine .inr ⟨(h.fits_iff hsound).mpr ⟨hkeyed, hnull⟩, _, rfl, h.isOpen, rfl, hkeyed, ?_⟩
        exact List.forall_mem_append.mpr ⟨h.isAdmitted,
          List.forall_mem_singleton.mpr (SaveRequest.isAdmitted_stamped hsound).stored⟩

/-! ### Records -/

theorem records_functions (h : db.Holds ss) (hs : s ∈ ss) :
    recordsOf s.info.id db.tables.functions = s.functions := by
  rw [h.tables_eq]
  exact recordsOf_flatMap h.nodup_ids (·.functions) hs

theorem records_calls (h : db.Holds ss) (hs : s ∈ ss) :
    recordsOf s.info.id db.tables.calls = s.placedCalls := by
  rw [h.tables_eq]
  exact recordsOf_flatMap h.nodup_ids (·.placedCalls) hs

theorem records_types (h : db.Holds ss) (hs : s ∈ ss) :
    recordsOf s.info.id db.tables.types = s.types := by
  rw [h.tables_eq]
  exact recordsOf_flatMap h.nodup_ids (·.types) hs

theorem records_members (h : db.Holds ss) (hs : s ∈ ss) :
    recordsOf s.info.id db.tables.members = s.members := by
  rw [h.tables_eq]
  exact recordsOf_flatMap h.nodup_ids (·.members) hs

theorem records_overrides (h : db.Holds ss) (hs : s ∈ ss) :
    recordsOf s.info.id db.tables.overrides = s.overrides := by
  rw [h.tables_eq]
  exact recordsOf_flatMap h.nodup_ids (·.overrides) hs

/-! ### Answers -/

theorem info_eq (h : db.Holds ss) (hs : s ∈ ss) :
    db.info s.info.id = .ok (SnapshotRow.ofInfo s.info).info := by
  have hfind : db.tables.snapshots.find? (·.id = s.info.id) = some (.ofInfo s.info) := by
    refine (find?_key_eq_some h.isKeyed.snapshots).mpr ⟨?_, rfl⟩
    rw [h.tables_eq]
    exact List.mem_map.mpr ⟨s, hs, rfl⟩
  unfold info
  rw [ensureOpen_eq h.isOpen, hfind]
  rfl

theorem info_eq_error (h : db.Holds ss) {id : String} (hid : id ∉ ss.map (·.info.id)) :
    ∃ f, db.info id = .error f := by
  have hfind : db.tables.snapshots.find? (·.id = id) = none := by
    refine find?_key_eq_none ?_
    rw [h.tables_eq]
    simpa [Tables.ofSnapshots, SnapshotRow.ofInfo] using hid
  unfold info
  rw [ensureOpen_eq h.isOpen, hfind]
  exact ⟨_, rfl⟩

theorem functions_eq (h : db.Holds ss) (hs : s ∈ ss) :
    db.functions s.info.id = .ok (s.functions.mergeSort functionBefore) := by
  unfold functions
  rw [h.info_eq hs, h.records_functions hs]
  rfl

theorem edges_eq (h : db.Holds ss) (hs : s ∈ ss) : db.edges s.info.id = .ok s.edges := by
  have hplaced : s.placedCalls.Pairwise fun a b => decide (a.position ≤ b.position) = true := by
    rw [Snapshot.placedCalls, List.pairwise_iff_getElem]
    intro i j hi hj hij
    simpa using Nat.le_of_lt hij
  have hcalls : s.placedCalls.map (·.call) = s.edges := by
    simp [Snapshot.placedCalls, List.mapIdx_eq_zipIdx_map, Function.comp_def]
  unfold edges
  rw [h.info_eq hs, h.records_calls hs, List.mergeSort_of_pairwise hplaced, hcalls]
  rfl

theorem membersOf_eq (h : db.Holds ss) (hs : s ∈ ss) (typeId : String) :
    db.membersOf s.info.id typeId =
      .ok ((s.membersOf typeId).mergeSort fun a b => a.id ≤ b.id) := by
  unfold membersOf
  rw [ensureOpen_eq h.isOpen, h.records_members hs]
  rfl

/-- The overrides that a join with the members finds are those by the methods of the snapshot. -/
theorem joined_eq (h : db.Holds ss) (hs : s ∈ ss) (functionId : String) :
    ((joined (fun o m => m.snapshotId = o.snapshotId && m.record.id = o.record.methodMemberId)
        db.tables.overrides db.tables.members).filter fun p =>
          p.1.snapshotId = s.info.id && p.2.record.functionId = functionId).map (·.1.record) =
      s.overrides.filter fun o =>
        ((s.members.filter (·.functionId = functionId)).map (·.id)).contains o.methodMemberId := by
  have hunique : ∀ o ∈ db.tables.overrides, (db.tables.members.filter fun m =>
      m.snapshotId = o.snapshotId && m.record.id = o.record.methodMemberId).length ≤ 1 := by
    intro o _
    have hone := length_filter_key_le_one h.isKeyed.members (o.snapshotId, o.record.methodMemberId)
    simpa [Row.primaryKey] using hone
  -- a member of another snapshot is no partner, so only the members of this one count
  have hpartner : ∀ o : Row (MethodOverride Float), (db.tables.members.any fun m =>
      (m.snapshotId = o.snapshotId && m.record.id = o.record.methodMemberId) &&
        (o.snapshotId = s.info.id && m.record.functionId = functionId)) =
      (o.snapshotId = s.info.id && ((s.members.filter (·.functionId = functionId)).map
        (·.id)).contains o.record.methodMemberId) := by
    intro o
    rw [Bool.eq_iff_iff, ← h.records_members hs]
    simp only [List.any_eq_true, Bool.and_eq_true, decide_eq_true_eq, List.contains_iff_mem,
      List.mem_map, List.mem_filter, mem_recordsOf]
    constructor
    · rintro ⟨m, hm, ⟨hsame, hmethod⟩, hid, hfunction⟩
      exact ⟨hid, m.record, ⟨hid ▸ hsame ▸ hm, hfunction⟩, hmethod⟩
    · rintro ⟨hid, m, ⟨hm, hfunction⟩, hmethod⟩
      exact ⟨_, hm, ⟨hid.symm, hmethod⟩, hid, hfunction⟩
  calc _ = (((joined (fun o m => m.snapshotId = o.snapshotId &&
          m.record.id = o.record.methodMemberId) db.tables.overrides db.tables.members).filter
            fun p => p.1.snapshotId = s.info.id && p.2.record.functionId = functionId).map
              (·.1)).map (·.record) := by rw [List.map_map]; rfl
    _ = (db.tables.overrides.filter fun o => o.snapshotId = s.info.id &&
          ((s.members.filter (·.functionId = functionId)).map (·.id)).contains
            o.record.methodMemberId).map (·.record) := by
      rw [map_joined hunique]
      simp only [hpartner]
    _ = _ := by rw [← h.records_overrides hs, filter_recordsOf]

theorem overridesOf_eq (h : db.Holds ss) (hs : s ∈ ss) (functionId : String) :
    db.overridesOf s.info.id functionId = .ok (s.overridesOf functionId) := by
  have hkeys : ((s.overrides.filter fun o => ((s.members.filter (·.functionId = functionId)).map
      (·.id)).contains o.methodMemberId).map (·.id)).Nodup :=
    (h.hasDistinctIds hs).overrides.sublist (List.filter_sublist.map _)
  have hknown : (s.overridesOf functionId).find? (!·.kind.isKnown) = none := by
    rw [List.find?_eq_none]
    intro o ho
    have hmem := (List.mem_filter.mp (mem_sortedBy.mp ho)).1
    simp [(h.isAdmitted s hs).isKnown_kind _ hmem]
  have hfound : (s.overrides.filter fun o => ((s.members.filter (·.functionId = functionId)).map
      (·.id)).contains o.methodMemberId).mergeSort (fun a b => a.id ≤ b.id) =
      s.overridesOf functionId := (sortedBy_key hkeys).symm
  simp only [overridesOf, ensureOpen_eq h.isOpen, h.joined_eq hs, hfound, hknown]
  rfl

theorem implementorsOf_eq (h : db.Holds ss) (hs : s ∈ ss) (interfaceId : String) :
    db.implementorsOf s.info.id interfaceId = .ok (s.implementorsOf interfaceId) := by
  have hkeys : ∀ p : TypeDefinition → Bool, ((s.types.filter p).map (·.id)).Nodup := fun p =>
    (h.hasDistinctIds hs).types.sublist (List.filter_sublist.map _)
  -- the types of a saved snapshot are marked with its id already
  have hmarked : (s.implementorsOf interfaceId).map (fun t => { t with snapshotId := s.info.id }) =
      s.implementorsOf interfaceId := by
    refine (List.map_congr_left fun t ht => ?_).trans (List.map_id _)
    have hmem := (List.mem_filter.mp (mem_sortedBy.mp ht)).1
    rw [← (h.isAdmitted s hs).snapshotId_eq _ hmem]
    rfl
  unfold implementorsOf
  rw [ensureOpen_eq h.isOpen, h.records_overrides hs, h.records_types hs]
  rw [← hmarked, Snapshot.implementorsOf, sortedBy_key (hkeys _)]
  simp only [Bool.and_comm]
  rfl

end Holds

end Database

end Deadwood
