import Deadwood.Proofs.Store.Holds

/-!
# Histories of stores

A store is given one snapshot after the other, and some of the attempts fail. Whatever happens, a
failed attempt leaves no trace, and what was saved once is answered for in the same way for ever.
This is so as long as no attempt marks types in the memory of another snapshot. Both kinds of stores
are followed in the same way: by the snapshots that they hold.

## Main definitions

* `SnapshotStore.Serves`: a store answers for a snapshot.
* `SnapshotStore.View`: stores that can be followed by the snapshots they hold.
* `SnapshotStore.KeepsSnapshots`: failed attempts leave no trace, saved snapshots stay.

## Main results

* `SnapshotStore.View.holds_attemptAll`: a store after a history.
* `saved_snapshots_stay`: both stores keep their snapshots.
-/

namespace Deadwood

namespace SnapshotStore

/-! ## Answers for a snapshot -/

/-- A store answers for a snapshot with all that is in it. -/
structure Serves {σ : Type} [SnapshotStore σ] (x : σ) (s : Snapshot) : Prop where
  info : ∃ createdAt, answer (.info s.info.id) x = .ok { s.info with createdAt }
  functions : ∃ fs, answer (.functions s.info.id) x = .ok fs ∧ fs.Perm s.functions
  edges : answer (.edges s.info.id) x = .ok s.edges
  members : ∀ typeId, ∃ ms,
    answer (.members s.info.id typeId) x = .ok ms ∧ ms.Perm (s.membersOf typeId)
  overrides : ∀ functionId,
    answer (.overrides s.info.id functionId) x = .ok (s.overridesOf functionId)
  implementors : ∀ interfaceId,
    answer (.implementors s.info.id interfaceId) x = .ok (s.implementorsOf interfaceId)

/-! ## Following a store -/

/-- What it means that a store holds some snapshots, so that attempts to save snapshots can be
followed. The store may demand something of the snapshots that it saves, and keep them in its own
way. -/
structure View (σ : Type) [SnapshotStore σ] (Demand : Snapshot → Prop)
    (keep : Snapshot → Snapshot) where
  Holds : σ → List Snapshot → Prop
  info_keep (s : Snapshot) : (keep s).info = s.info
  holds_fresh : Holds fresh []
  attempt_cases {x : σ} {ss : List Snapshot} (h : Holds x ss) {a : SaveAttempt} (ha : a.IsApart) :
    (¬ a.request.Fits Demand ss ∧ ∃ f, attempt a x = (.error f, x)) ∨
      (a.request.Fits Demand ss ∧ ∃ x', attempt a x = (.ok a.request.stamped.info, x') ∧
        Holds x' (ss ++ [keep a.request.stamped]))
  serves {x : σ} {ss : List Snapshot} {s : Snapshot} (h : Holds x ss) (hs : s ∈ ss) : Serves x s
  info_eq_error {x : σ} {ss : List Snapshot} {id : String} (h : Holds x ss)
    (hid : id ∉ ss.map (·.info.id)) : ∃ f, answer (.info id) x = .error f
  /-- The answers about a snapshot depend on nothing else. -/
  answer_eq {x y : σ} {ss ts : List Snapshot} {s : Snapshot} {α : Type} {q : StoreQuery α}
    (hx : Holds x ss) (hy : Holds y ts) (hs : s ∈ ss) (ht : s ∈ ts)
    (hq : q.snapshot? = some s.info.id) : answer q x = answer q y

namespace View

variable {σ : Type} [SnapshotStore σ] {Demand : Snapshot → Prop} {keep : Snapshot → Snapshot}
  (v : View σ Demand keep) {x : σ} {ss : List Snapshot}

/-- A store never loses a snapshot. -/
theorem holds_attemptAll (h : v.Holds x ss) {as : List SaveAttempt} (has : ∀ a ∈ as, a.IsApart) :
    ∃ ts, v.Holds (attemptAll as x) (ss ++ ts) := by
  induction as generalizing x ss with
  | nil => exact ⟨[], by simpa [attemptAll] using h⟩
  | cons a as ih =>
    obtain ⟨ha, has⟩ := List.forall_mem_cons.mp has
    change ∃ ts, v.Holds (attemptAll as (attempt a x).2) (ss ++ ts)
    rcases v.attempt_cases h ha with ⟨-, f, hsave⟩ | ⟨-, x', hsave, hx'⟩
    · rw [hsave]
      exact ih h has
    · rw [hsave]
      obtain ⟨ts, hts⟩ := ih hx' has
      exact ⟨keep a.request.stamped :: ts, by simpa using hts⟩

theorem exists_holds {as : List SaveAttempt} (has : ∀ a ∈ as, a.IsApart) :
    ∃ ss, v.Holds (attemptAll as fresh) ss := by
  obtain ⟨ss, hss⟩ := v.holds_attemptAll v.holds_fresh has
  exact ⟨ss, by simpa using hss⟩

/-- There is a snapshot with an id if the store can describe it. -/
theorem info_eq_ok (h : v.Holds x ss) {id : String} :
    (∃ i, answer (.info id) x = .ok i) ↔ id ∈ ss.map (·.info.id) := by
  constructor
  · rintro ⟨i, hi⟩
    by_contra hid
    obtain ⟨f, hf⟩ := v.info_eq_error h hid
    rw [hf] at hi
    cases hi
  · intro hid
    obtain ⟨s, hs, rfl⟩ := List.mem_map.mp hid
    obtain ⟨createdAt, hinfo⟩ := (v.serves h hs).info
    exact ⟨_, hinfo⟩

theorem attempt_eq_ok (h : v.Holds x ss) {a : SaveAttempt} (ha : a.IsApart) {i : SnapshotInfo}
    (hsave : (attempt a x).1 = .ok i) :
    i = a.request.stamped.info ∧ a.request.Fits Demand ss ∧
      v.Holds (attempt a x).2 (ss ++ [keep a.request.stamped]) := by
  rcases v.attempt_cases h ha with ⟨-, f, hfailed⟩ | ⟨hfits, x', hsaved, hx'⟩
  · rw [hfailed] at hsave
    cases hsave
  · rw [hsaved] at hsave ⊢
    exact ⟨(Except.ok.inj hsave).symm, hfits, hx'⟩

end View

/-! ## Keeping snapshots -/

theorem isApart_of_mem_own (rs : List SaveRequest) :
    ∀ a ∈ rs.map SaveAttempt.own, a.IsApart := by
  intro a ha
  obtain ⟨r, -, rfl⟩ := List.mem_map.mp ha
  exact SaveAttempt.isApart_own r

theorem saveAll_eq {σ : Type} [SnapshotStore σ] (rs : List SaveRequest) (x : σ) :
    saveAll rs x = attemptAll (rs.map .own) x := by
  rw [attemptAll, List.foldl_map]
  rfl

/-- Of any attempts to save snapshots, none of which marks the types of another snapshot, the failed
ones leave no trace, and what the others saved stays. -/
structure KeepsSnapshots (σ : Type) [SnapshotStore σ] (Demand : Snapshot → Prop)
    (keep : Snapshot → Snapshot) : Prop where
  /-- A snapshot can be saved unless something is wrong with it or its id is taken. -/
  attempt_eq_ok_iff {past : List SaveAttempt} (hpast : ∀ a ∈ past, a.IsApart) {a : SaveAttempt}
    (ha : a.IsApart) :
    let x : σ := attemptAll past fresh
    (∃ i, (attempt a x).1 = .ok i) ↔
      a.request.snapshot.problem? = none ∧ Demand a.request.stamped ∧
        ¬ ∃ i, answer (.info a.request.stamped.info.id) x = .ok i
  /-- After a failed attempt, all is as if it had never been made. -/
  failed {past : List SaveAttempt} (hpast : ∀ a ∈ past, a.IsApart) {a : SaveAttempt}
    (ha : a.IsApart) (f : Fault) :
    let x : σ := attemptAll past fresh
    (attempt a x).1 = .error f → ∀ (later : List SaveAttempt) (α : Type) (q : StoreQuery α),
      answer q (attemptAll later (attempt a x).2) = answer q (attemptAll later x)
  /-- What is saved is there, and no later attempt changes an answer about it. -/
  saved {past : List SaveAttempt} (hpast : ∀ a ∈ past, a.IsApart) {a : SaveAttempt}
    (ha : a.IsApart) (i : SnapshotInfo) :
    let x : σ := attemptAll past fresh
    (attempt a x).1 = .ok i →
      i = a.request.stamped.info ∧ Serves (attempt a x).2 (keep a.request.stamped) ∧
        ∀ later : List SaveAttempt, (∀ b ∈ later, b.IsApart) → ∀ (α : Type) (q : StoreQuery α),
          q.snapshot? = some i.id →
            answer q (attemptAll later (attempt a x).2) = answer q (attempt a x).2

theorem View.keepsSnapshots {σ : Type} [SnapshotStore σ] {Demand : Snapshot → Prop}
    {keep : Snapshot → Snapshot} (v : View σ Demand keep) : KeepsSnapshots σ Demand keep where
  attempt_eq_ok_iff hpast a ha := by
    intro x
    obtain ⟨ss, hss⟩ := v.exists_holds hpast
    rw [v.info_eq_ok hss]
    rcases v.attempt_cases hss ha with ⟨hunfit, f, hsave⟩ | ⟨hfits, x', hsave, -⟩
    · refine ⟨?_, fun h => absurd ⟨h.1, h.2.1, h.2.2⟩ hunfit⟩
      rintro ⟨i, hi⟩
      rw [hsave] at hi
      cases hi
    · exact ⟨fun _ => ⟨hfits.sound, hfits.demand, hfits.isNew⟩, fun _ => ⟨_, by rw [hsave]⟩⟩
  failed hpast a ha f := by
    intro x hfailed later α q
    obtain ⟨ss, hss⟩ := v.exists_holds hpast
    rcases v.attempt_cases hss ha with ⟨-, f', hsave⟩ | ⟨-, x', hsave, -⟩
    · rw [hsave]
    · rw [hsave] at hfailed
      cases hfailed
  saved hpast a ha i := by
    intro x hsave
    obtain ⟨ss, hss⟩ := v.exists_holds hpast
    obtain ⟨rfl, -, hnow⟩ := v.attempt_eq_ok hss ha hsave
    have hmem : keep a.request.stamped ∈ ss ++ [keep a.request.stamped] := by simp
    refine ⟨rfl, v.serves hnow hmem, ?_⟩
    intro later hlater α q hq
    obtain ⟨ts, hheld⟩ := v.holds_attemptAll hnow hlater
    rw [← v.info_keep] at hq
    exact v.answer_eq hheld hnow (List.mem_append_left ts hmem) hmem hq

end SnapshotStore

/-! ## Both stores -/

open SnapshotStore

namespace MemoryStore

theorem Holds.answer_eq {m m' : MemoryStore} {ss ts : List Snapshot} {s : Snapshot} {α : Type}
    {q : StoreQuery α} (h : m.Holds ss) (h' : m'.Holds ts) (hs : s ∈ ss) (ht : s ∈ ts)
    (hq : q.snapshot? = some s.info.id) : answer q m = answer q m' := by
  have hget : m.get s.info.id = m'.get s.info.id := (h.get_eq hs).trans (h'.get_eq ht).symm
  cases q with
  | infos => cases hq
  | latest => cases hq
  | info id | functions id | edges id | members id _ | overrides id _ | implementors id _ =>
    obtain rfl := Option.some.inj hq
    simp only [answer, hget]

/-- What a store in memory holds. -/
def view : View MemoryStore (fun _ => True) id where
  Holds := Holds
  info_keep _ := rfl
  holds_fresh := holds_fresh
  attempt_cases := Holds.attempt_cases
  serves h hs :=
    { info := ⟨_, h.map_get hs (·.info)⟩
      functions := ⟨_, h.map_get hs (·.functions), .refl _⟩
      edges := h.map_get hs (·.edges)
      members := fun typeId => ⟨_, h.map_get hs (·.membersOf typeId), .refl _⟩
      overrides := fun functionId => h.map_get hs (·.overridesOf functionId)
      implementors := fun interfaceId => h.map_get hs (·.implementorsOf interfaceId) }
  info_eq_error h hid := by
    obtain ⟨f, hf⟩ := h.get_eq_error hid
    exact ⟨f, congrArg (Except.map Snapshot.info) hf⟩
  answer_eq := Holds.answer_eq

end MemoryStore

namespace Database

theorem Holds.answer_eq {db db' : Database} {ss ts : List Snapshot} {s : Snapshot} {α : Type}
    {q : StoreQuery α} (h : db.Holds ss) (h' : db'.Holds ts) (hs : s ∈ ss) (ht : s ∈ ts)
    (hq : q.snapshot? = some s.info.id) : answer q db = answer q db' := by
  cases q with
  | infos => cases hq
  | latest => cases hq
  | info id | functions id | edges id | members id _ | overrides id _ | implementors id _ =>
    obtain rfl := Option.some.inj hq
    simp only [answer, h.info_eq hs, h'.info_eq ht, h.functions_eq hs, h'.functions_eq ht,
      h.edges_eq hs, h'.edges_eq ht, h.membersOf_eq hs, h'.membersOf_eq ht, h.overridesOf_eq hs,
      h'.overridesOf_eq ht, h.implementorsOf_eq hs, h'.implementorsOf_eq ht]

/-- What a database holds. -/
def view : View Database Snapshot.IsStorable Snapshot.stored where
  Holds := Holds
  info_keep _ := rfl
  holds_fresh := holds_fresh
  attempt_cases h a _ := h.save_cases a.request
  serves h hs :=
    { info := ⟨_, h.info_eq hs⟩
      functions := ⟨_, h.functions_eq hs, List.mergeSort_perm _ _⟩
      edges := h.edges_eq hs
      members := fun typeId => ⟨_, h.membersOf_eq hs typeId, List.mergeSort_perm _ _⟩
      overrides := h.overridesOf_eq hs
      implementors := h.implementorsOf_eq hs }
  info_eq_error h hid := h.info_eq_error hid
  answer_eq := Holds.answer_eq

end Database

end Deadwood
