import Deadwood.Proofs.Keyed
import Deadwood.Store.Relational

/-!
# Rows and snapshots

Rows are stored one after the other, each only if its primary key is new. So no two rows of a table
ever have the same primary key, and if all rows of a snapshot are stored, the tables grow by exactly
these rows, as far as columns can keep them. The tables of a history of snapshots hold the rows of
each of them, and since they have different ids, the records of each of them can be told from the
others.

## Main definitions

* `Snapshot.stored`: what tables keep of a snapshot.
* `Snapshot.IsStorable`: what tables demand of a snapshot.
* `Tables.IsKeyed`: no primary key is there twice.
* `Tables.ofSnapshots`: the tables that hold some snapshots.

## Main results

* `Tables.insertAll_eq_ok`: storing rows.
* `Tables.ofSnapshots_concat`: storing one more snapshot.
* `recordsOf_flatMap`: the records of one snapshot among several.
* `map_joined`: a join with at most one partner for every row.
-/

namespace Deadwood

/-! ## Records of one snapshot -/

section Records

variable {α β κ : Type} {id : String} {rows : List (Row α)}

@[simp] theorem recordsOf_append (rows rows' : List (Row α)) :
    recordsOf id (rows ++ rows') = recordsOf id rows ++ recordsOf id rows' := by
  simp [recordsOf]

@[simp] theorem recordsOf_map_same (id : String) (as : List α) :
    recordsOf id (as.map (Row.mk id)) = as := by
  simp [recordsOf, List.filter_map, Function.comp_def]

theorem recordsOf_map_other {id' : String} (h : id' ≠ id) (as : List α) :
    recordsOf id (as.map (Row.mk id')) = [] := by
  simp [recordsOf, List.filter_map, Function.comp_def, h]

@[simp, grind =] theorem mem_recordsOf {a : α} : a ∈ recordsOf id rows ↔ ⟨id, a⟩ ∈ rows := by
  simp only [recordsOf, List.mem_map, List.mem_filter, decide_eq_true_eq]
  constructor
  · rintro ⟨r, ⟨hr, rfl⟩, rfl⟩
    exact hr
  · exact fun h => ⟨⟨id, a⟩, ⟨h, rfl⟩, rfl⟩

/-- Primary keys that differ leave different keys to the records of one snapshot. -/
theorem nodup_keys_recordsOf {key : α → κ} (h : (rows.map (·.primaryKey key)).Nodup) :
    ((recordsOf id rows).map key).Nodup := by
  have hown : ((rows.filter (·.snapshotId = id)).map (·.primaryKey key)).Nodup :=
    h.sublist (List.filter_sublist.map _)
  have hpairs : (rows.filter (·.snapshotId = id)).map (·.primaryKey key) =
      ((recordsOf id rows).map key).map (Prod.mk id) := by
    simp only [recordsOf, List.map_map]
    refine List.map_congr_left fun r hr => ?_
    have hid : r.snapshotId = id := by simpa using (List.mem_filter.mp hr).2
    simp [Row.primaryKey, hid]
  rw [hpairs] at hown
  exact hown.of_map

/-- Of some snapshots with different ids, each has its own records. -/
theorem recordsOf_flatMap {ss : List Snapshot} (hids : (ss.map (·.info.id)).Nodup)
    (parts : Snapshot → List α) {s : Snapshot} (hs : s ∈ ss) :
    recordsOf s.info.id (ss.flatMap fun s => (parts s).map (Row.mk s.info.id)) = parts s := by
  induction ss with
  | nil => cases hs
  | cons first rest ih =>
    obtain ⟨hfirst, hrest⟩ := List.nodup_cons.mp hids
    rw [List.flatMap_cons, recordsOf_append]
    rcases List.mem_cons.mp hs with rfl | hmem
    · have hothers : recordsOf s.info.id
          (rest.flatMap fun s => (parts s).map (Row.mk s.info.id)) = [] := by
        rw [List.eq_nil_iff_forall_not_mem]
        intro a ha
        obtain ⟨other, hother, hrow⟩ := List.mem_flatMap.mp (mem_recordsOf.mp ha)
        obtain ⟨b, -, hb⟩ := List.mem_map.mp hrow
        exact hfirst (List.mem_map.mpr ⟨other, hother, congrArg Row.snapshotId hb⟩)
      rw [recordsOf_map_same, hothers, List.append_nil]
    · have hne : first.info.id ≠ s.info.id := by
        intro heq
        exact hfirst (List.mem_map.mpr ⟨s, hmem, heq.symm⟩)
      rw [recordsOf_map_other hne, List.nil_append, ih hrest hmem]

theorem filter_recordsOf (p : α → Bool) :
    (recordsOf id rows).filter p =
      (rows.filter fun r => r.snapshotId = id && p r.record).map (·.record) := by
  simp [recordsOf, List.filter_map, List.filter_filter, Function.comp_def, Bool.and_comm]

/-- A row with at most one partner stays once in a join, or goes. -/
theorem map_joined {as : List α} {bs : List β} {on : α → β → Bool} {p : α × β → Bool}
    (hunique : ∀ a ∈ as, (bs.filter (on a)).length ≤ 1) :
    ((joined on as bs).filter p).map (·.1) =
      as.filter fun a => bs.any fun b => on a b && p (a, b) := by
  induction as with
  | nil => rfl
  | cons a as ih =>
    obtain ⟨hone, hrest⟩ := List.forall_mem_cons.mp hunique
    have hfirst : (((bs.filter (on a)).map fun b => (a, b)).filter p).map (·.1) =
        if bs.any fun b => on a b && p (a, b) then [a] else [] := by
      have hany : (bs.any fun b => on a b && p (a, b)) =
          (bs.filter (on a)).any fun b => p (a, b) := List.any_filter.symm
      rw [hany]
      rcases Nat.le_one_iff_eq_zero_or_eq_one.mp hone with hnone | hpartner
      · rw [List.length_eq_zero_iff.mp hnone]
        rfl
      · obtain ⟨b, hb⟩ := List.length_eq_one_iff.mp hpartner
        rw [hb]
        cases hp : p (a, b) <;> simp [hp]
    rw [joined, List.flatMap_cons, List.filter_append, List.map_append, hfirst, List.filter_cons]
    change _ ++ ((joined on as bs).filter p).map (·.1) = _
    rw [ih hrest]
    split <;> rfl

end Records

/-- No two types, members or overrides of a snapshot have the same id. -/
@[mk_iff] structure Snapshot.HasDistinctIds (s : Snapshot) : Prop where
  types : (s.types.map (·.id)).Nodup
  members : (s.members.map (·.id)).Nodup
  overrides : (s.overrides.map (·.id)).Nodup

/-- A snapshot that fits into tables: its ids differ, and the confidences of its overrides are
numbers. -/
@[mk_iff] structure Snapshot.IsStorable (s : Snapshot) : Prop extends s.HasDistinctIds where
  isNumber : ∀ o ∈ s.overrides, o.confidence.isNaN = false

/-- What tables keep of a snapshot. -/
def Snapshot.stored (s : Snapshot) : Snapshot :=
  { s with
    edgeList := s.edgeList.map fun es => es.map (·.stored)
    overrides := s.overrides.map (·.stored) }

@[simp] theorem Snapshot.info_stored (s : Snapshot) : s.stored.info = s.info := rfl

@[simp] theorem Snapshot.functions_stored (s : Snapshot) : s.stored.functions = s.functions := rfl

@[simp] theorem Snapshot.types_stored (s : Snapshot) : s.stored.types = s.types := rfl

@[simp] theorem Snapshot.members_stored (s : Snapshot) : s.stored.members = s.members := rfl

@[simp] theorem Snapshot.edges_stored (s : Snapshot) : s.stored.edges = s.edges.map (·.stored) := by
  unfold edges stored
  cases s.edgeList <;> rfl

@[simp] theorem columnOf_isNone {x : Float} : (columnOf x).isNone = x.isNaN := by
  unfold columnOf
  split_ifs with hnan hzero
  · exact hnan.symm
  · exact (Bool.eq_false_iff.mpr hnan).symm
  · exact (Bool.eq_false_iff.mpr hnan).symm

@[simp] theorem Snapshot.hasDistinctIds_stored {s : Snapshot} :
    s.stored.HasDistinctIds ↔ s.HasDistinctIds := by
  have hoverrides : s.stored.overrides.map (·.id) = s.overrides.map (·.id) := List.map_map
  rw [hasDistinctIds_iff, hasDistinctIds_iff, hoverrides]
  rfl

namespace Tables

variable {t t' : Tables} {r : NewRow}

/-! ## Storing rows -/

/-- No two rows of a table have the same primary key. -/
@[mk_iff] structure IsKeyed (t : Tables) : Prop where
  snapshots : (t.snapshots.map (·.id)).Nodup
  functions : (t.functions.map (·.primaryKey (·.id))).Nodup
  calls : (t.calls.map (·.primaryKey (·.position))).Nodup
  types : (t.types.map (·.primaryKey (·.id))).Nodup
  members : (t.members.map (·.primaryKey (·.id))).Nodup
  overrides : (t.overrides.map (·.primaryKey (·.id))).Nodup

theorem isKeyed_empty : ({} : Tables).IsKeyed :=
  ⟨.nil, .nil, .nil, .nil, .nil, .nil⟩

/-- A further row must have a new primary key. -/
theorem isKeyed_add : (t.add r).IsKeyed ↔ t.IsKeyed ∧ t.isTaken r = false := by
  cases r <;> simp only [isKeyed_iff, add, isTaken, nodup_keys_concat] <;> tauto

theorem isKeyed_of_foldl {rs : List NewRow} (h : (rs.foldl add t).IsKeyed) : t.IsKeyed := by
  induction rs generalizing t with
  | nil => exact h
  | cons r rs ih => exact (isKeyed_add.mp (ih h)).1

@[grind =] theorem insert_eq_ok :
    t.insert r = .ok t' ↔ r.nullFault? = none ∧ t.isTaken r = false ∧ t' = t.add r := by
  unfold insert
  cases hnull : r.nullFault? with
  | some f => simp
  | none =>
    dsimp only
    split
    · rename_i htaken
      simp [htaken]
    · rename_i hnew
      rw [Except.ok.injEq, eq_comm]
      simp [hnew]

/-- Rows can be stored exactly if they have no nulls and no primary key is there twice then. -/
theorem insertAll_eq_ok {rs : List NewRow} (ht : t.IsKeyed) :
    insertAll rs t = (.ok (), t') ↔
      t' = rs.foldl add t ∧ t'.IsKeyed ∧ ∀ r ∈ rs, r.nullFault? = none := by
  induction rs generalizing t with
  | nil =>
    constructor
    · rintro ⟨⟩
      exact ⟨rfl, ht, by simp⟩
    · rintro ⟨rfl, -⟩
      rfl
  | cons r rs ih =>
    unfold insertAll
    rw [List.forall_mem_cons]
    split
    · rename_i hstored
      obtain ⟨hnull, hnew, rfl⟩ := insert_eq_ok.mp hstored
      rw [ih (isKeyed_add.mpr ⟨ht, hnew⟩), List.foldl_cons]
      simp [hnull]
    · rename_i f htaken
      constructor
      · rintro ⟨⟩
      · rintro ⟨rfl, hkeyed, hnull, -⟩
        have hnew := (isKeyed_add.mp (isKeyed_of_foldl hkeyed)).2
        rw [insert_eq_ok.mpr ⟨hnull, hnew, rfl⟩] at htaken
        cases htaken

theorem nullFault?_rows {s : Snapshot} :
    (∀ r ∈ s.rows, r.nullFault? = none) ↔ ∀ o ∈ s.overrides, o.confidence.isNaN = false := by
  simp only [Snapshot.rows, List.cons_append, List.mem_cons, List.mem_append, List.mem_map]
  constructor
  · intro h o ho
    have hnull := h (.override ⟨s.info.id, o⟩) (by simp [ho])
    simpa [NewRow.nullFault?] using hnull
  · rintro h r (rfl | ((((⟨f, -, rfl⟩ | ⟨c, -, rfl⟩) | ⟨d, -, rfl⟩) | ⟨m, -, rfl⟩) | ⟨o, ho, rfl⟩))
    all_goals first
      | rfl
      | simp only [NewRow.nullFault?, columnOf_isNone, h o ho, Bool.false_eq_true, if_false]

/-! ## Storing snapshots -/

/-- The tables that hold some snapshots. -/
def ofSnapshots (ss : List Snapshot) : Tables where
  snapshots := ss.map fun s => .ofInfo s.info
  functions := ss.flatMap fun s => s.functions.map (Row.mk s.info.id)
  calls := ss.flatMap fun s => s.placedCalls.map (Row.mk s.info.id)
  types := ss.flatMap fun s => s.types.map (Row.mk s.info.id)
  members := ss.flatMap fun s => s.members.map (Row.mk s.info.id)
  overrides := ss.flatMap fun s => s.overrides.map (Row.mk s.info.id)

/-- Rows of snapshots with different ids have different primary keys, if those of each of them
have. -/
theorem nodup_primaryKeys {α κ : Type} {key : α → κ} {ss : List Snapshot}
    (hids : (ss.map (·.info.id)).Nodup) (parts : Snapshot → List α) :
    ((ss.flatMap fun s => (parts s).map (Row.mk s.info.id)).map (·.primaryKey key)).Nodup ↔
      ∀ s ∈ ss, ((parts s).map key).Nodup := by
  constructor
  · intro h s hs
    rw [← recordsOf_flatMap hids parts hs]
    exact nodup_keys_recordsOf h
  · intro h
    rw [List.map_flatMap, List.nodup_flatMap]
    have hkeys : ∀ s : Snapshot, ((parts s).map (Row.mk s.info.id)).map (·.primaryKey key) =
        ((parts s).map key).map (Prod.mk s.info.id) := by
      simp [Row.primaryKey]
    simp only [hkeys]
    constructor
    · intro s hs
      exact (h s hs).map (Prod.mk_right_injective _)
    · refine (List.pairwise_map.mp hids).imp fun hne k hk hk' => hne ?_
      obtain ⟨a, -, rfl⟩ := List.mem_map.mp hk
      obtain ⟨b, -, hb⟩ := List.mem_map.mp hk'
      exact (congrArg Prod.fst hb).symm

theorem isKeyed_ofSnapshots {ss : List Snapshot} :
    (ofSnapshots ss).IsKeyed ↔
      (ss.map (·.info.id)).Nodup ∧
        ∀ s ∈ ss, (s.functions.map (·.id)).Nodup ∧ s.HasDistinctIds := by
  have hrows : ((ofSnapshots ss).snapshots.map (·.id)).Nodup ↔ (ss.map (·.info.id)).Nodup := by
    simp [ofSnapshots, SnapshotRow.ofInfo, Function.comp_def]
  have hpositions : ∀ s : Snapshot, (s.placedCalls.map (·.position)).Nodup := by
    intro s
    simp [Snapshot.placedCalls, List.mapIdx_eq_zipIdx_map, Function.comp_def, List.nodup_range']
  rw [isKeyed_iff, hrows]
  refine and_congr_right fun hids => ?_
  simp only [ofSnapshots, nodup_primaryKeys hids, hpositions, Snapshot.hasDistinctIds_iff]
  grind

/-- Records of one snapshot are added at the end of their table. The tables are given by the rows of
that table, since all others stay. -/
theorem foldl_add {α : Type} {row : Row α → NewRow} (tables : List (Row α) → Tables)
    (keep : α → α) (hadd : ∀ rows id a,
      (tables rows).add (row ⟨id, a⟩) = tables (rows ++ [⟨id, keep a⟩])) (id : String)
    (as : List α) (rows : List (Row α)) :
    (as.map fun a => row ⟨id, a⟩).foldl add (tables rows) =
      tables (rows ++ (as.map keep).map (Row.mk id)) := by
  induction as generalizing rows with
  | nil => simp
  | cons a as ih => rw [List.map_cons, List.foldl_cons, hadd, ih, List.append_assoc]; rfl

@[simp] theorem placedCalls_stored (s : Snapshot) :
    s.stored.placedCalls = s.placedCalls.map fun c => { c with call := c.call.stored } := by
  simp [Snapshot.placedCalls, List.mapIdx_eq_zipIdx_map, List.zipIdx_map]

theorem ofSnapshots_concat (ss : List Snapshot) (s : Snapshot) :
    s.rows.foldl add (ofSnapshots ss) = ofSnapshots (ss ++ [s.stored]) := by
  have hfunctions : ∀ t : Tables, (s.functions.map fun f => .function ⟨s.info.id, f⟩).foldl add t =
      { t with functions := t.functions ++ (s.functions.map id).map (Row.mk s.info.id) } := fun t =>
    foldl_add (fun rows => { t with functions := rows }) id (fun _ _ _ => rfl) _ _ t.functions
  have hcalls : ∀ t : Tables, (s.placedCalls.map fun c => .call ⟨s.info.id, c⟩).foldl add t =
      { t with calls := t.calls ++ s.stored.placedCalls.map (Row.mk s.info.id) } := fun t => by
    rw [placedCalls_stored]
    exact foldl_add (fun rows => { t with calls := rows }) _ (fun _ _ _ => rfl) _ _ t.calls
  have htypes : ∀ t : Tables, (s.types.map fun d => .type ⟨s.info.id, d⟩).foldl add t =
      { t with types := t.types ++ (s.types.map id).map (Row.mk s.info.id) } := fun t =>
    foldl_add (fun rows => { t with types := rows }) id (fun _ _ _ => rfl) _ _ t.types
  have hmembers : ∀ t : Tables, (s.members.map fun m => .member ⟨s.info.id, m⟩).foldl add t =
      { t with members := t.members ++ (s.members.map id).map (Row.mk s.info.id) } := fun t =>
    foldl_add (fun rows => { t with members := rows }) id (fun _ _ _ => rfl) _ _ t.members
  have hoverrides : ∀ t : Tables, (s.overrides.map fun o => .override ⟨s.info.id, o⟩).foldl add t =
      { t with overrides := t.overrides ++ s.stored.overrides.map (Row.mk s.info.id) } := fun t =>
    foldl_add (fun rows => { t with overrides := rows }) _ (fun _ _ _ => rfl) _ _ t.overrides
  simp only [Snapshot.rows, List.cons_append, List.foldl_cons, List.foldl_append, hfunctions,
    hcalls, htypes, hmembers, hoverrides, List.map_id]
  simp [ofSnapshots, add]

end Tables

end Deadwood
