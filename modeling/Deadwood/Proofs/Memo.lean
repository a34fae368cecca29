import Deadwood.Memo
import Deadwood.Proofs.Assoc
import Mathlib.Data.Finset.Card
import Mathlib.Logic.Function.Basic

/-!
# Calls that share a memo table

Several callers may ask one table for values at the same time. A call looks its key up; if nothing
is remembered it computes a value and then offers it to the table, which keeps the first value that
it is offered for a key. Each of these steps is indivisible, but between them other calls may take
steps of their own, so several calls may compute different values for one key. They all answer the
same one nevertheless.

## Main definitions

* `MemoCall`, `MemoCall.advance`: a call and its steps.
* `SharedMemo`, `SharedMemo.run`: a table and its calls, and how they go on under a schedule.
* `SharedMemo.offers`: the values that are offered in the course of a schedule.

## Main results

* `SharedMemo.Agrees.step`, `SharedMemo.Agrees.run`: the invariant of one step and of a run.
* `shared_memo_calls_agree`: calls for one key agree, whatever the schedule is.
-/

namespace Deadwood

/-! ## Tables -/

namespace Memo

variable {α κ : Type} [DecidableEq κ] {m : Memo α κ} {key k : κ} {value : α}

@[simp, grind =] theorem get?_set (m : Memo α κ) (key k : κ) (v : α) :
    (m.set key v).get? k = if k = key then some v else m.get? k :=
  lookup_assign key k v m.entries

theorem isSome_get?_set (v : α) (h : (m.get? k).isSome) : ((m.set key v).get? k).isSome := by
  rw [get?_set]
  split_ifs
  · rfl
  · exact h

/-- A table remembers what it is offered only if it remembers nothing else. -/
@[grind =] theorem get?_store (m : Memo α κ) (key k : κ) (value : α) :
    (m.store key value).2.get? k = (m.get? k).or (if k = key then some value else none) := by
  unfold store
  cases h : m.get? key with
  | some v =>
    by_cases hk : k = key
    · simp [hk, h]
    · simp [hk]
  | none =>
    by_cases hk : k = key
    · simp [hk, h]
    · simp [hk]

/-- The answer to an offer is what is remembered then. -/
@[simp] theorem get?_store_same (m : Memo α κ) (key : κ) (value : α) :
    (m.store key value).2.get? key = some (m.store key value).1 := by
  unfold store
  cases h : m.get? key with
  | some v => exact h
  | none => simp

theorem get?_store_of_some (h : m.get? k = some value) (key : κ) (v : α) :
    (m.store key v).2.get? k = some value := by
  simp [get?_store, h]

theorem nodup_store (h : (m.entries.map (·.1)).Nodup) (key : κ) (value : α) :
    ((m.store key value).2.entries.map (·.1)).Nodup := by
  unfold store
  cases m.get? key with
  | some v => exact h
  | none => exact nodup_keys_assign h

theorem mem_keys_iff : k ∈ m.entries.map (·.1) ↔ (m.get? k).isSome := by
  unfold get?
  generalize m.entries = entries
  induction entries with
  | nil => simp
  | cons e rest ih =>
    obtain ⟨k₀, v₀⟩ := e
    by_cases h : k = k₀ <;> simp_all [lookup_cons_if]

end Memo

/-! ## Calls -/

/-- A call for a key. What its computation comes to is given with it: whatever that depends on, it
has one result in the course of things. -/
structure MemoCall (κ α : Type) where
  key : κ
  result : α

/-- How far a call is. -/
inductive MemoStage (α : Type) where
  | waiting
  /-- Nothing was remembered. -/
  | missed
  | computed (value : α)
  | answered (value : α)
  deriving DecidableEq

/-- The next step of a call. -/
def MemoCall.advance {κ α : Type} [DecidableEq κ] (c : MemoCall κ α) :
    MemoStage α → Memo α κ → MemoStage α × Memo α κ
  | .waiting, m =>
    match m.get? c.key with
    | some v => (.answered v, m)
    | none => (.missed, m)
  | .missed, m => (.computed c.result, m)
  | .computed v, m => (.answered (m.store c.key v).1, (m.store c.key v).2)
  | .answered v, m => (.answered v, m)

/-- A table and the calls that are made on it. -/
structure SharedMemo (ι κ α : Type) where
  memo : Memo α κ := {}
  stage : ι → MemoStage α := fun _ => .waiting

namespace SharedMemo

variable {ι κ α : Type} [DecidableEq κ] (calls : ι → MemoCall κ α) {s : SharedMemo ι κ α}
  {offered : List (κ × α)}

/-- The table remembers the first offer for each key, and what a call has answered is what is
remembered for its key. -/
structure Agrees (s : SharedMemo ι κ α) (offered : List (κ × α)) : Prop where
  table : ∀ k, s.memo.get? k = offered.lookup k
  answers : ∀ i v, s.stage i = .answered v → s.memo.get? (calls i).key = some v
  nodup : (s.memo.entries.map (·.1)).Nodup

theorem agrees_initial : Agrees calls ({} : SharedMemo ι κ α) [] :=
  ⟨fun _ => rfl, fun _ _ h => by simp at h, .nil⟩

/-- A table has as many entries as there are keys for which something was offered. -/
theorem Agrees.size_eq (h : Agrees calls s offered) :
    s.memo.size = (offered.map (·.1)).toFinset.card := by
  have hkeys : (s.memo.entries.map (·.1)).toFinset = (offered.map (·.1)).toFinset := by
    ext k
    have hoffered : k ∈ offered.map (·.1) ↔ (offered.lookup k).isSome :=
      Memo.mem_keys_iff (m := ⟨offered⟩)
    rw [List.mem_toFinset, List.mem_toFinset, Memo.mem_keys_iff, hoffered, h.table]
  rw [← hkeys, List.toFinset_card_of_nodup h.nodup, List.length_map]
  rfl

/-! ### One step -/

variable [DecidableEq ι]

/-- One call takes its next step. -/
def step (s : SharedMemo ι κ α) (i : ι) : SharedMemo ι κ α :=
  let (stage, memo) := (calls i).advance (s.stage i) s.memo
  { memo, stage := Function.update s.stage i stage }

/-- What a call offers to the table with its next step. -/
def offer (s : SharedMemo ι κ α) (i : ι) : List (κ × α) :=
  match s.stage i with
  | .computed v => [((calls i).key, v)]
  | _ => []

@[simp] theorem stage_step_of_ne {i j : ι} (h : j ≠ i) :
    (step calls s i).stage j = s.stage j :=
  Function.update_of_ne h _ _

/-- A step leaves the table as it is, and answers nothing but what is remembered there; or it offers
a value, and answers what is remembered then. -/
theorem step_cases (s : SharedMemo ι κ α) (i : ι) :
    ((step calls s i).memo = s.memo ∧ offer calls s i = [] ∧
        ∀ v, (step calls s i).stage i = .answered v →
          s.stage i = .answered v ∨ s.memo.get? (calls i).key = some v) ∨
      ∃ w, offer calls s i = [((calls i).key, w)] ∧
        (step calls s i).memo = (s.memo.store (calls i).key w).2 ∧
        (step calls s i).stage i = .answered (s.memo.store (calls i).key w).1 := by
  unfold step offer
  cases s.stage i with
  | waiting => cases hk : s.memo.get? (calls i).key <;> simp [MemoCall.advance, hk]
  | missed => simp [MemoCall.advance]
  | computed w => simp [MemoCall.advance]
  | answered w => simp [MemoCall.advance]

/-- What is remembered once is remembered for ever. -/
theorem get?_step (s : SharedMemo ι κ α) (i : ι) {k : κ} {v : α} (h : s.memo.get? k = some v) :
    (step calls s i).memo.get? k = some v := by
  rcases step_cases calls s i with ⟨hmemo, -⟩ | ⟨w, -, hmemo, -⟩ <;> rw [hmemo]
  · exact h
  · exact Memo.get?_store_of_some h _ w

theorem Agrees.step (h : Agrees calls s offered) (i : ι) :
    Agrees calls (step calls s i) (offered ++ offer calls s i) := by
  have hothers : ∀ j v, j ≠ i → (SharedMemo.step calls s i).stage j = .answered v →
      (SharedMemo.step calls s i).memo.get? (calls j).key = some v := by
    intro j v hj hv
    rw [stage_step_of_ne calls hj] at hv
    exact get?_step calls s i (h.answers j v hv)
  rcases step_cases calls s i with ⟨hmemo, hoffer, hanswer⟩ | ⟨w, hoffer, hmemo, hanswer⟩
  · refine ⟨fun k => ?_, fun j v hv => ?_, hmemo ▸ h.nodup⟩
    · rw [hmemo, hoffer, List.append_nil, h.table]
    · by_cases hj : j = i
      · subst hj
        rw [hmemo]
        exact (hanswer v hv).elim (h.answers j v) id
      · exact hothers j v hj hv
  · refine ⟨fun k => ?_, fun j v hv => ?_, hmemo ▸ Memo.nodup_store h.nodup _ w⟩
    · rw [hmemo, hoffer, Memo.get?_store, h.table, List.lookup_append, lookup_cons_if,
        List.lookup_nil]
    · by_cases hj : j = i
      · subst hj
        obtain rfl : (s.memo.store (calls j).key w).1 = v := by simpa [hanswer] using hv
        rw [hmemo, Memo.get?_store_same]
      · exact hothers j v hj hv

/-! ### Runs -/

/-- Calls take steps in the order of a schedule. -/
def run (s : SharedMemo ι κ α) (schedule : List ι) : SharedMemo ι κ α :=
  schedule.foldl (step calls) s

/-- All that is offered in the course of a schedule, in this order. -/
def offers : SharedMemo ι κ α → List ι → List (κ × α)
  | _, [] => []
  | s, i :: rest => offer calls s i ++ offers (step calls s i) rest

@[simp] theorem run_append (s : SharedMemo ι κ α) (first later : List ι) :
    run calls s (first ++ later) = run calls (run calls s first) later :=
  List.foldl_append

theorem Agrees.run (h : Agrees calls s offered) (schedule : List ι) :
    Agrees calls (run calls s schedule) (offered ++ offers calls s schedule) := by
  induction schedule generalizing s offered with
  | nil => simpa [SharedMemo.run, offers] using h
  | cons i rest ih =>
    have := ih (h.step calls i)
    rwa [List.append_assoc] at this

theorem get?_run (s : SharedMemo ι κ α) (schedule : List ι) {k : κ} {v : α}
    (h : s.memo.get? k = some v) : (run calls s schedule).memo.get? k = some v := by
  induction schedule generalizing s with
  | nil => exact h
  | cons i rest ih => exact ih _ (get?_step calls s i h)

/-- How many more steps a call needs. -/
def remaining : MemoStage α → Nat
  | .waiting => 3
  | .missed => 2
  | .computed _ => 1
  | .answered _ => 0

theorem remaining_step (s : SharedMemo ι κ α) (i j : ι) :
    remaining ((step calls s i).stage j) ≤ remaining (s.stage j) - if i = j then 1 else 0 := by
  by_cases hj : i = j
  · subst hj
    unfold step
    cases hstage : s.stage i with
    | waiting => cases hw : s.memo.get? (calls i).key <;> simp [MemoCall.advance, hw, remaining]
    | missed => simp [MemoCall.advance, remaining]
    | computed w => simp [MemoCall.advance, remaining]
    | answered w => simp [MemoCall.advance, remaining]
  · simp [Ne.symm hj, hj]

theorem remaining_run (s : SharedMemo ι κ α) (schedule : List ι) (j : ι) :
    remaining ((run calls s schedule).stage j) ≤ remaining (s.stage j) - schedule.count j := by
  induction schedule generalizing s with
  | nil => simp [run]
  | cons i rest ih =>
    have hfirst := remaining_step calls s i j
    have hrest := ih (step calls s i)
    rw [List.count_cons]
    change remaining ((run calls (step calls s i) rest).stage j) ≤ _
    by_cases hij : i = j
    · simp [hij] at hfirst hrest ⊢
      omega
    · simp [hij] at hfirst hrest ⊢
      omega

/-- A call that no other call interrupts does what `Memo.getOrCompute` does. -/
theorem run_alone (i : ι) (h : s.stage i = .waiting) :
    let alone := s.memo.getOrCompute (calls i).key fun m => ((calls i).result, m)
    (run calls s [i, i, i]).memo = alone.2 ∧
      (run calls s [i, i, i]).stage i = .answered alone.1 := by
  cases hk : s.memo.get? (calls i).key with
  | none => simp [run, step, h, MemoCall.advance, hk, Memo.getOrCompute]
  | some v => simp [run, step, h, MemoCall.advance, hk, Memo.getOrCompute]

end SharedMemo

/-- However the steps of some calls on an empty table are interleaved, the table remembers for every
key the value that was offered first, for ever, and nothing else; every call that has an answer
answers that value, so that calls for one key agree. A call has its answer after three steps of its
own, and one that is not interrupted does what `Memo.getOrCompute` does. -/
theorem shared_memo_calls_agree {ι κ α : Type} [DecidableEq ι] [DecidableEq κ]
    (calls : ι → MemoCall κ α) (schedule : List ι) :
    let s := SharedMemo.run calls {} schedule
    let offered := SharedMemo.offers calls {} schedule
    (∀ i j v w, (calls i).key = (calls j).key → s.stage i = .answered v →
      s.stage j = .answered w → v = w) ∧
    (∀ i v, s.stage i = .answered v → offered.lookup (calls i).key = some v) ∧
    (∀ k, s.memo.get? k = offered.lookup k) ∧
    (∀ later k v, s.memo.get? k = some v →
      (SharedMemo.run calls {} (schedule ++ later)).memo.get? k = some v) ∧
    s.memo.size = (offered.map (·.1)).toFinset.card ∧
    (∀ i, 3 ≤ schedule.count i → ∃ v, s.stage i = .answered v) ∧
    ∀ i, s.stage i = .waiting →
      let alone := s.memo.getOrCompute (calls i).key fun m => ((calls i).result, m)
      let after := SharedMemo.run calls {} (schedule ++ [i, i, i])
      after.memo = alone.2 ∧ after.stage i = .answered alone.1 := by
  intro s offered
  have agrees : SharedMemo.Agrees calls s offered := by
    simpa using (SharedMemo.agrees_initial calls).run calls schedule
  have hanswer : ∀ i v, s.stage i = .answered v → offered.lookup (calls i).key = some v :=
    fun i v hv => (agrees.table _).symm.trans (agrees.answers i v hv)
  refine ⟨fun i j v w hkey hv hw => ?_, hanswer, agrees.table, fun later k v hv => ?_,
    agrees.size_eq, fun i hi => ?_, fun i hi => ?_⟩
  · have hsame := hanswer j w hw
    rw [← hkey, hanswer i v hv] at hsame
    exact Option.some.inj hsame
  · rw [SharedMemo.run_append]
    exact SharedMemo.get?_run calls s later hv
  · have hleft : SharedMemo.remaining (s.stage i) ≤ 3 - schedule.count i :=
      SharedMemo.remaining_run calls {} schedule i
    have hnone : SharedMemo.remaining (s.stage i) = 0 := by omega
    cases hstage : s.stage i with
    | answered v => exact ⟨v, rfl⟩
    | waiting | missed | computed v => simp [hstage, SharedMemo.remaining] at hnone
  · rw [SharedMemo.run_append]
    exact SharedMemo.run_alone calls i hi

/-- Two calls find nothing and compute different values. The one that computes later offers first,
and both answer its value. -/
example :
    let calls : Fin 2 → MemoCall String Nat := fun i => ⟨"k", i⟩
    let s := SharedMemo.run calls {} [0, 1, 0, 1, 1, 0]
    s.stage 0 = .answered 1 ∧ s.stage 1 = .answered 1 ∧ s.memo.size = 1 := by
  decide

end Deadwood
