import Deadwood.Proofs.Pruning.Safeguard
import Deadwood.Proofs.Pruning.Source

/-!
# Which batches of a run are kept

Committed ranges never make a later write fail, so batches do not get into each other's way. Whether
one of a run is kept is up to its functions, its check, and whether the run is cancelled.

## Main definitions

* `CanDeleteAll`: batches whose files can be written.
* `EntersBatches`: a run that comes to its batches.

## Main results

* `CanDeleteAll.fitting_batchStates`: committed ranges lie within the files.
* `exists_cancelled_of_getElem?_eq_none`: why batches of a run are left out.
* `result_of_runBatches`: the result of every batch of a run.
* `prune_keeps_batch_iff`: when a batch of a whole run is kept.
-/

namespace Deadwood

open Disk (HasRoom)

variable {σ R : Type}

section Batches

variable [Scale R] {env : Surroundings σ R} {plan : RunPlan R} {o : PruneOptions R}
  {batch : List (Candidate R)} {before : Disk} {s : RunState σ R}

/-! ## All batches of a run -/

/-- The files of every batch can be written when its turn comes. -/
def CanDeleteAll (before : Disk) (env : Surroundings σ R) (plan : RunPlan R) (index : Nat)
    (groups : List (List (Candidate R))) (s : RunState σ R) : Prop :=
  ∀ (k : Nat) (t : RunState σ R) (batch : List (Candidate R)),
    (batchStates env plan index groups s)[k]? = some t → env.isCancelled t.outer = false →
      groups[k]? = some batch → t.CanDelete before plan batch

/-- Committed ranges lie within the files at all times. -/
theorem CanDeleteAll.fitting_batchStates {groups : List (List (Candidate R))} {index : Nat}
    (hwrites : CanDeleteAll before env plan index groups s) (hs : s.Fitting before) :
    ∀ t ∈ batchStates env plan index groups s, t.Fitting before := by
  induction groups generalizing index s with
  | nil => simpa [batchStates] using hs
  | cons batch rest ih =>
    unfold CanDeleteAll at hwrites
    unfold batchStates at hwrites ⊢
    split_ifs at hwrites ⊢ with hcancelled
    · simpa using hs
    · simp only at hwrites ⊢
      have hbatch : s.CanDelete before plan batch :=
        hwrites 0 s batch rfl (Bool.eq_false_iff.mpr hcancelled) rfl
      refine List.forall_mem_cons.mpr ⟨hs, ih ?_ (hbatch.fitting_runBatch hs env index)⟩
      exact fun k t batch' ht => hwrites (k + 1) t batch' (by simpa using ht)

theorem skipBatches_batches (env : Surroundings σ R) (o : PruneOptions R) (index : Nat)
    (groups : List (List (Candidate R))) (s : RunState σ R) :
    (skipBatches env o index groups s).outcome.batches =
      s.outcome.batches ++ groups.mapIdx fun i batch => skippedOutcome o (index + i) batch := by
  induction groups generalizing index s with
  | nil => simp [skipBatches]
  | cons batch rest ih =>
    have hpass : (passBatch env batch (skippedOutcome o index batch) s).outcome.batches =
        s.outcome.batches ++ [skippedOutcome o index batch] := rfl
    rw [skipBatches_cons, ih, hpass, List.mapIdx_cons, List.append_assoc]
    simp [Nat.add_comm, Nat.add_left_comm]

/-- The states of a run come to an end before a batch only if the run is cancelled. -/
theorem exists_cancelled_of_getElem?_eq_none {index k : Nat} {groups : List (List (Candidate R))}
    (hk : groups[k]? = some batch) (hend : (batchStates env plan index groups s)[k]? = none) :
    ∃ j t, j < k ∧ (batchStates env plan index groups s)[j]? = some t ∧
      env.isCancelled t.outer := by
  induction groups generalizing index k s with
  | nil => simp at hk
  | cons first rest ih =>
    unfold batchStates at hend ⊢
    split_ifs at hend ⊢ with hcancelled
    · cases k with
      | zero => simp at hend
      | succ k => exact ⟨0, s, k.succ_pos, rfl, hcancelled⟩
    · cases k with
      | zero => simp at hend
      | succ k =>
        obtain ⟨j, t, hj, ht, hstop⟩ := ih (by simpa using hk) (by simpa using hend)
        exact ⟨j + 1, t, Nat.succ_lt_succ hj, by simpa using ht, hstop⟩

/-- The result of a batch is that of running it in the state in which its turn came; or the batch
was skipped, since the run was cancelled by then. -/
theorem result_of_runBatches (env : Surroundings σ R) (plan : RunPlan R) (index : Nat)
    (s : RunState σ R) {groups : List (List (Candidate R))} {k : Nat}
    (hk : groups[k]? = some batch) :
    let states := batchStates env plan index groups s
    ∃ result, (runBatches env plan index groups s).outcome.batches[s.outcome.batches.length + k]? =
        some result ∧
      ((∃ t, states[k]? = some t ∧ env.isCancelled t.outer = false ∧
          result = (runBatch env plan (index + k) batch t).1) ∨
        result.status = .skipped ∧ ∀ t, states[k]? = some t → env.isCancelled t.outer) := by
  induction groups generalizing index k s with
  | nil => simp at hk
  | cons first rest ih =>
    unfold batchStates runBatches
    split_ifs with hcancelled
    · refine ⟨skippedOutcome plan.options (index + k) batch, ?_, .inr ⟨rfl, fun t ht => ?_⟩⟩
      · simp only [skipBatches_batches]
        rw [List.getElem?_append_right (Nat.le_add_right _ _), Nat.add_sub_cancel_left,
          List.getElem?_mapIdx, hk]
        rfl
      · obtain rfl : t = s := List.mem_singleton.mp (List.mem_of_getElem? ht)
        exact hcancelled
    · have hsame : (runBatch env plan index first s).2.outcome.batches = s.outcome.batches :=
        (runBatch_cases env plan index first s).1
      simp only
      generalize hrun : runBatch env plan index first s = r at hsame ⊢
      obtain ⟨result, s'⟩ := r
      have hbatches : (recordBatch env result s').outcome.batches =
          s.outcome.batches ++ [result] := congrArg (· ++ [result]) hsame
      cases k with
      | zero =>
        obtain rfl : first = batch := by simpa using hk
        obtain ⟨results, hresults, -⟩ :=
          runBatches_logged env plan (index + 1) rest (recordBatch env result s') []
        refine ⟨result, ?_, .inl ⟨s, rfl, Bool.eq_false_iff.mpr hcancelled, ?_⟩⟩
        · simp [hresults, hbatches]
        · simp [hrun]
      | succ k =>
        have hindex : index + (k + 1) = index + 1 + k := by omega
        have hplace : s.outcome.batches.length + (k + 1) =
            (recordBatch env result s').outcome.batches.length + k := by
          rw [hbatches, List.length_append, List.length_singleton]
          omega
        rw [hindex, hplace]
        exact ih (index + 1) (recordBatch env result s') (by simpa using hk)

section Preparation

variable {backupId : String} {now : Timestamp} {candidates : List (Candidate R)}
  {s₀ : RunState σ R}

/-- A run is prepared only with a backup, and nothing is deleted by that. -/
theorem prepare_eq_ok (hprepare : prepare env o backupId now candidates s = (.ok plan, s₀)) :
    makeBackup env.means o backupId now candidates s.disk =
        (.ok plan.backup, backedUp env.means o backupId now candidates s.disk) ∧
      plan.options = o ∧ s₀.committed = s.committed ∧ s₀.outcome.batches = s.outcome.batches ∧
      s₀.outcome.before = plan.baseline := by
  cases hattempt : attempt env.means o backupId now candidates s.disk with
  | error f =>
    rw [prepare_of_error (makeBackup_of_attempt hattempt)] at hprepare
    simp at hprepare
  | ok b =>
    have hmade := makeBackup_of_attempt hattempt
    generalize backedUp env.means o backupId now candidates s.disk = d₀ at hmade ⊢
    rw [prepare_of_ok hmade] at hprepare
    obtain ⟨rfl, rfl⟩ : _ ∧ _ := by simpa using hprepare
    exact ⟨hmade, rfl, rfl, rfl, rfl⟩

theorem RunAssumptions.canDeleteAll (h : RunAssumptions env o backupId now candidates s.disk)
    (hcommitted : s.committed = []) (hbatches : s.outcome.batches = [])
    (room : ∀ p ∈ touchedFiles o candidates, HasRoom p)
    (hprepare : prepare env o backupId now candidates s = (.ok plan, s₀))
    (hsame : ∀ p ∈ touchedFiles o candidates,
      before.readFile p = (backedUp env.means o backupId now candidates s.disk).readFile p) :
    CanDeleteAll before env plan 0 (batches o.maxPerBatch candidates) s₀ := by
  obtain ⟨hmade, rfl, -⟩ := prepare_eq_ok hprepare
  obtain ⟨-, g⟩ := h.groundwork hmade
  obtain ⟨hsound, -⟩ := h.sound_executeStates hcommitted hbatches hmade
  rw [executeStates_of_prepare hprepare] at hsound
  intro k t batch ht _ hbatch
  exact g.canDelete (hsound t (List.mem_of_getElem? ht)).1
    (fun p hp => mem_touchedFiles (List.mem_of_getElem? hbatch) hp) room hsame

end Preparation

end Batches

/-! ## Whole runs -/

section Whole

variable {env : Surroundings σ Float} {o : PruneOptions Float} {backupId : String} {now : Timestamp}
  {fs : List FunctionRecord} {edges : List (CallEdge Float)}
  {protector : Option (FunctionRecord → Evidence Float)} {outer : σ} {disk : Disk}

/-- A run has made its backup and comes to its first batch in some state. -/
def EntersBatches (env : Surroundings σ Float) (o : PruneOptions Float) (backupId : String)
    (now : Timestamp) (fs : List FunctionRecord) (edges : List (CallEdge Float))
    (protector : Option (FunctionRecord → Evidence Float)) (outer : σ) (disk : Disk)
    (plan : RunPlan Float) (s₀ : RunState σ Float) : Prop :=
  ∃ s, startRun env o fs edges protector outer disk = .ok s ∧
    prepare env o backupId now (select o fs edges protector).candidates s = (.ok plan, s₀)

/-- An executed run comes to its batches, and ends with what they report. -/
theorem exists_entersBatches {out : PruneOutcome Float}
    (hout : (prune env o backupId now fs edges protector outer disk).outcome = some out)
    (hexecuted : out.executed) :
    ∃ plan s₀, EntersBatches env o backupId now fs edges protector outer disk plan s₀ ∧
      plan.options = o ∧ plan.baseline = out.before ∧ s₀.committed = [] ∧
      s₀.outcome.batches = [] ∧
      (runBatches env plan 0 (batches o.maxPerBatch (select o fs edges protector).candidates)
        s₀).outcome = out := by
  rcases startRun_blank env o fs edges protector outer disk with
    ⟨ended, hstart, hnot⟩ | ⟨s, hstart, -, hcandidates, -, hidle⟩
  · rw [prune, hstart] at hout
    simp [hnot out hout] at hexecuted
  obtain ⟨hrun, -⟩ := prune_of_startRun hstart backupId now
  rw [hcandidates, hout] at hrun
  rcases prepare_blank env o backupId now (select o fs edges protector).candidates s with
    ⟨f, s', hprepare, hsame⟩ | ⟨plan, s₀, hprepare, -⟩
  · have hfailed : (execute env o backupId now (select o fs edges protector).candidates s).2 =
        s' := by
      unfold execute
      rw [hprepare]
    rw [hfailed] at hrun
    obtain rfl : out = s'.outcome := Option.some.inj hrun
    simp [hsame, hidle] at hexecuted
  · rw [execute_of_prepare hprepare] at hrun
    obtain rfl := Option.some.inj hrun
    obtain ⟨-, hoptions, hcommitted, hbatches, hbefore⟩ := prepare_eq_ok hprepare
    obtain ⟨_, hended, -⟩ | ⟨s', hstart', -, hblank, hnone, -⟩ :=
      startRun_cases env o fs edges protector outer disk
    · simp [hstart] at hended
    · obtain rfl : s = s' := Except.ok.inj (hstart.symm.trans hstart')
      refine ⟨plan, s₀, ⟨s, hstart, hprepare⟩, hoptions, ?_, hcommitted.trans hblank,
        hbatches.trans hnone, rfl⟩
      exact hbefore.symm.trans (sameStart_runBatches env plan 0 _ s₀).before.symm

end Whole

namespace Overlap

/-- Nothing is in the way of the writes of the run on two functions that share a line. -/
theorem canDeleteAll {plan : RunPlan Float} {s₀ : RunState Unit Float}
    (henters : EntersBatches env options "b1" .zero functions [] none () disk plan s₀) :
    CanDeleteAll disk env plan 0
      (batches options.maxPerBatch (select options functions [] none).candidates) s₀ := by
  obtain ⟨s, hstart, hprepare⟩ := henters
  obtain ⟨s', hstart', hdisk, hcommitted, hbatches, -⟩ := startRun_eq
  obtain rfl : s = s' := Except.ok.inj (hstart.symm.trans hstart')
  rw [select_candidates] at hprepare ⊢
  have assumed := runAssumptions
  have hfile : ∀ p ∈ touchedFiles options candidates, p = "a.go" := by simp [touchedFiles_eq]
  have hsame : ∀ p ∈ touchedFiles options candidates, disk.readFile p =
      (backedUp env.means options "b1" .zero candidates s.disk).readFile p := by
    intro p hp
    rw [hfile p hp, hdisk, readFile_backedUp assumed.new readFile_eq, readFile_eq]
  rw [← hdisk] at assumed
  refine assumed.canDeleteAll hcommitted hbatches (fun p hp => ?_) hprepare hsame
  rw [hfile p hp]
  decide

end Overlap

/-- A batch of an executed run is kept if and only if the run is not cancelled before it or during
its check, its functions lie within their files, and its check says nothing worse than the one
before the first batch. Batches are left out only once the run is cancelled. With other ranges
committed before it, a batch ends in the same way, so long as its check says the same. Here `before`
is a disk with the contents that were captured, and writing fails because of ranges only. -/
theorem prune_keeps_batch_iff (env : Surroundings σ Float) (o : PruneOptions Float)
    (backupId : String) (now : Timestamp) (fs : List FunctionRecord) (edges : List (CallEdge Float))
    (protector : Option (FunctionRecord → Evidence Float)) (outer : σ) (disk before : Disk)
    (out : PruneOutcome Float)
    (hout : (prune env o backupId now fs edges protector outer disk).outcome = some out)
    (hexecuted : out.executed)
    (writes : ∀ plan s₀, EntersBatches env o backupId now fs edges protector outer disk plan s₀ →
      CanDeleteAll before env plan 0
        (batches o.maxPerBatch (select o fs edges protector).candidates) s₀) :
    let groups := batches o.maxPerBatch (select o fs edges protector).candidates
    ∃ plan s₀, EntersBatches env o backupId now fs edges protector outer disk plan s₀ ∧
      ∀ k batch, groups[k]? = some batch →
        let states := batchStates env plan 0 groups s₀
        ∃ result, out.batches[k]? = some result ∧
          (result.status = .committed ↔
            ∃ t, states[k]? = some t ∧ env.isCancelled t.outer = false ∧
              (∀ c ∈ batch, c.IsWithin o before) ∧
              env.isCancelled (checkBatch env plan batch t).2.1 = false ∧
              (checkBatch env plan batch t).1.isWorseThan out.before = false) ∧
          (states[k]? = none → ∃ j t, j < k ∧ states[j]? = some t ∧ env.isCancelled t.outer) ∧
          ∀ t, states[k]? = some t → env.isCancelled t.outer = false →
            ∀ t' : RunState σ Float, t'.Fitting before → t'.CanDelete before plan batch →
              env.isCancelled (checkBatch env plan batch t').2.1 =
                env.isCancelled (checkBatch env plan batch t).2.1 →
              (checkBatch env plan batch t').1.isWorseThan out.before =
                (checkBatch env plan batch t).1.isWorseThan out.before →
              (runBatch env plan k batch t').1.status = result.status := by
  intro groups
  obtain ⟨plan, s₀, henters, rfl, hbefore, hcommitted, hnone, hrun⟩ :=
    exists_entersBatches hout hexecuted
  have hwrites := writes plan s₀ henters
  have hfitting := hwrites.fitting_batchStates (by simp [RunState.Fitting, hcommitted, Fits])
  refine ⟨plan, s₀, henters, fun k batch hk => ?_⟩
  intro states
  obtain ⟨result, hresult, hcases⟩ := result_of_runBatches env plan 0 s₀ hk
  rw [hrun, hnone, List.length_nil, Nat.zero_add] at hresult
  simp only [Nat.zero_add] at hcases
  have hran : ∀ t, states[k]? = some t → env.isCancelled t.outer = false →
      result = (runBatch env plan k batch t).1 := by
    intro t ht hgoes
    rcases hcases with ⟨t', ht', -, hresult⟩ | ⟨-, hover⟩
    · obtain rfl : t = t' := Option.some.inj (ht.symm.trans ht')
      exact hresult
    · simp [hover t ht] at hgoes
  have hready : ∀ t, states[k]? = some t → env.isCancelled t.outer = false →
      t.CanDelete before plan batch ∧ t.Fitting before :=
    fun t ht hgoes => ⟨hwrites k t batch ht hgoes hk, hfitting t (List.mem_of_getElem? ht)⟩
  rw [← hbefore]
  refine ⟨result, hresult, ⟨fun hkept => ?_, ?_⟩, exists_cancelled_of_getElem?_eq_none hk, ?_⟩
  · rcases hcases with ⟨t, ht, hgoes, rfl⟩ | ⟨hskipped, -⟩
    · obtain ⟨hdelete, hfits⟩ := hready t ht hgoes
      exact ⟨t, ht, hgoes, (hdelete.committed_iff (fun p _ => hfits p) k).mp hkept⟩
    · simp [hskipped] at hkept
  · rintro ⟨t, ht, hgoes, hreasons⟩
    obtain ⟨hdelete, hfits⟩ := hready t ht hgoes
    rw [hran t ht hgoes]
    exact (hdelete.committed_iff (fun p _ => hfits p) k).mpr hreasons
  · intro t ht hgoes t' hfits' hdelete' hcancelled hworse
    obtain ⟨hdelete, hfits⟩ := hready t ht hgoes
    rw [hran t ht hgoes]
    exact hdelete.status_eq hfits hdelete' hfits' hcancelled hworse k

/-- Of two functions that share a line, the deletion of the first is kept, and that of the second is
undone because of its check. -/
theorem prune_keeps_batch_iff_overlap :
    ∃ out, (prune Overlap.env Overlap.options "b1" .zero Overlap.functions [] none ()
        Overlap.disk).outcome = some out ∧ out.executed ∧
      out.batches.map (·.status) = [.committed, .rolledBack] ∧
      ∃ plan s₀, EntersBatches Overlap.env Overlap.options "b1" .zero Overlap.functions [] none ()
          Overlap.disk plan s₀ ∧
        let states := batchStates Overlap.env plan 0
          (batches 1 (select Overlap.options Overlap.functions [] none).candidates) s₀
        (∃ t, states[0]? = some t ∧ (checkBatch Overlap.env plan
          [candidateFor [] Overlap.setup .isolated] t).1.isWorseThan out.before = false) ∧
        ∀ t, states[1]? = some t → (checkBatch Overlap.env plan
          [candidateFor [] Overlap.helper .isolated] t).1.isWorseThan out.before := by
  obtain ⟨out, hout, hexecuted, hstatus, -⟩ := Overlap.exists_outcome
  obtain ⟨plan, s₀, henters, hall⟩ := prune_keeps_batch_iff Overlap.env Overlap.options "b1" .zero
    Overlap.functions [] none () Overlap.disk Overlap.disk out hout hexecuted
    fun plan s₀ henters => Overlap.canDeleteAll henters
  have hgroups := Overlap.batches_eq
  rw [← Overlap.select_candidates] at hgroups
  have hstatusAt : ∀ (k : Nat) (result : BatchOutcome), out.batches[k]? = some result →
      [BatchStatus.committed, .rolledBack][k]? = some result.status := by
    intro k result hresult
    rw [← hstatus, List.getElem?_map, hresult]
    rfl
  refine ⟨out, hout, hexecuted, hstatus, plan, s₀, henters, ?_, fun t ht => ?_⟩
  · obtain ⟨result, hresult, hkept, -⟩ := hall 0 _ (congrArg (·[0]?) hgroups)
    have hcommitted : result.status = .committed :=
      (Option.some.inj (hstatusAt 0 result hresult)).symm
    obtain ⟨t, ht, -, -, -, hnotWorse⟩ := hkept.mp hcommitted
    exact ⟨t, ht, hnotWorse⟩
  · obtain ⟨result, hresult, hkept, -⟩ := hall 1 _ (congrArg (·[1]?) hgroups)
    have hundone : result.status = .rolledBack :=
      (Option.some.inj (hstatusAt 1 result hresult)).symm
    have hwithin : ∀ c ∈ [candidateFor [] Overlap.helper .isolated],
        c.IsWithin Overlap.options Overlap.disk := by
      intro c hc
      obtain rfl := List.mem_singleton.mp hc
      exact ⟨Overlap.content, Overlap.resolve_eq ▸ Overlap.readFile_eq, by decide⟩
    by_contra hnotWorse
    have hcommitted := hkept.mpr ⟨t, ht, rfl, hwithin, rfl, Bool.eq_false_iff.mpr hnotWorse⟩
    simp [hundone] at hcommitted

end Deadwood
