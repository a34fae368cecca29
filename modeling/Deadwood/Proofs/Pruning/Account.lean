import Deadwood.Proofs.Pruning.Run

/-!
# What a run reports

Every candidate of a run is in exactly one batch, and every batch ends in exactly one way: it was
kept, it was undone, or it was skipped because the run was cancelled before it. The outside is told
once how many batches there are and then once of every batch, as soon as it ended. This holds
whatever the checks say, whichever files cannot be written, and whenever the run is cancelled, also
if it is cancelled by what the outside does when it is told of a batch.

## Main definitions

* `leftCandidates`: the candidates of the batches that were not kept.
* `PruneOutcome.Covers`: an outcome that says what became of some batches.
* `PruneOutcome.IsComplete`: an outcome that says what became of all candidates.
* `ProgressCall`, `Surroundings.logged`: what the outside is told, written down.

## Main results

* `covers_runBatches`: what the batches of a run report.
* `runBatches_logged`: what the outside is told of them.
* `prune_accounts_for_candidates`: both for a whole run.
-/

namespace Deadwood

variable {σ R : Type}

/-! ## Groups -/

theorem length_of_mem_groupsOf {α : Type} {n : Nat} {as g : List α} (h : g ∈ groupsOf n as) :
    1 ≤ g.length ∧ g.length ≤ max 1 n := by
  fun_induction groupsOf n as with
  | case1 => simp at h
  | case2 a as ih =>
    rcases List.mem_cons.mp h with rfl | h
    · simp only [List.length_cons, List.length_take]
      omega
    · exact ih h

/-- The candidates of the batches that were not kept. -/
def leftCandidates (groups : List (List (Candidate R))) (results : List BatchOutcome) :
    List (Candidate R) :=
  ((groups.zip results).filter (·.2.status ≠ .committed)).flatMap (·.1)

theorem leftCandidates_append {groups : List (List (Candidate R))} {results : List BatchOutcome}
    (h : results.length = groups.length) (batch : List (Candidate R)) (result : BatchOutcome) :
    leftCandidates (groups ++ [batch]) (results ++ [result]) =
      leftCandidates groups results ++ if result.status = .committed then [] else batch := by
  rw [leftCandidates, List.zip_append h.symm, List.filter_append, List.flatMap_append,
    ← leftCandidates]
  by_cases hr : result.status = .committed <;> simp [hr]

theorem kept_append_left_perm {groups : List (List (Candidate R))} {results : List BatchOutcome}
    (h : results.length = groups.length) :
    (keptCandidates groups results ++ leftCandidates groups results).Perm groups.flatten := by
  have hsplit := List.filter_append_perm (fun g : List (Candidate R) × BatchOutcome =>
    decide (g.2.status = .committed)) (groups.zip results)
  have hgroups : (groups.zip results).flatMap (·.1) = groups.flatten := by
    rw [List.flatMap_def, List.map_fst_zip (by omega)]
  rw [← hgroups, keptCandidates, leftCandidates, ← List.flatMap_append]
  refine List.Perm.flatMap_right _ ?_
  simpa using hsplit

/-! ## Outcomes -/

/-- One more batch is reported: it is listed with its result, and its candidates are deleted if it
was kept and skipped if it was not. -/
structure PruneOutcome.Extends (out out' : PruneOutcome R) (batch : List (Candidate R))
    (result : BatchOutcome) : Prop where
  index : result.index = out.batches.length
  functions : result.functions = batch.map (·.function.id)
  candidates : out'.candidates = out.candidates
  batches : out'.batches = out.batches ++ [result]
  deleted : out'.deleted = out.deleted ++ if result.status = .committed then batch else []
  skipped : out'.skipped = out.skipped ++ if result.status = .committed then [] else batch

/-- An outcome that says of some batches, in order, how they ended. -/
structure PruneOutcome.Covers (done : List (List (Candidate R))) (out : PruneOutcome R) :
    Prop where
  indices : out.batches.map (·.index) = List.range done.length
  functions : out.batches.map (·.functions) = done.map (·.map (·.function.id))
  deleted : out.deleted = keptCandidates done out.batches
  skipped : out.skipped = leftCandidates done out.batches

namespace PruneOutcome.Covers

variable {done : List (List (Candidate R))} {out out' : PruneOutcome R}

theorem length_eq (h : out.Covers done) : out.batches.length = done.length := by
  simpa using congrArg List.length h.indices

theorem snoc (h : out.Covers done) {batch : List (Candidate R)} {result : BatchOutcome}
    (hnext : out.Extends out' batch result) : out'.Covers (done ++ [batch]) := by
  refine ⟨?_, ?_, ?_, ?_⟩
  · simp [hnext.batches, h.indices, hnext.index, h.length_eq, List.range_succ]
  · simp [hnext.batches, h.functions, hnext.functions]
  · rw [hnext.deleted, hnext.batches, keptCandidates_append h.length_eq, h.deleted]
  · rw [hnext.skipped, hnext.batches, leftCandidates_append h.length_eq, h.skipped]

end PruneOutcome.Covers

/-- Report the candidates of a batch as skipped. -/
def passBatch (env : Surroundings σ R) (batch : List (Candidate R)) (result : BatchOutcome)
    (s : RunState σ R) : RunState σ R :=
  let s := recordBatch env result s
  { s with outcome := { s.outcome with skipped := s.outcome.skipped ++ batch } }

section Batches

variable [Scale R]

theorem extends_undoBatch (env : Surroundings σ R) (plan : RunPlan R) (errors : List String)
    {out : PruneOutcome R} {s : RunState σ R} (hs : s.outcome = { out with errors })
    {batch : List (Candidate R)} {result : BatchOutcome}
    (hindex : result.index = out.batches.length)
    (hfunctions : result.functions = batch.map (·.function.id)) (index : Nat) (reason : String) :
    let (result', s') := undoBatch plan index batch reason result s
    out.Extends (recordBatch env result' s').outcome batch result' ∧
      (result'.status = .committed ∨ result'.status = .rolledBack) := by
  refine ⟨⟨hindex, hfunctions, ?_, ?_, ?_, ?_⟩, .inr rfl⟩ <;> simp [recordBatch, hs]

/-- A batch that is run is reported, and was kept or undone. -/
theorem extends_runBatch (env : Surroundings σ R) (plan : RunPlan R)
    (batch : List (Candidate R)) (s : RunState σ R) :
    let (result, s') := runBatch env plan s.outcome.batches.length batch s
    s.outcome.Extends (recordBatch env result s').outcome batch result ∧
      (result.status = .committed ∨ result.status = .rolledBack) := by
  unfold runBatch
  simp only
  generalize writeUntilFailure plan.backup _ _ s.disk = written
  obtain ⟨_ | f, d⟩ := written
  · simp only
    split
    · refine extends_undoBatch env plan s.outcome.errors ?_ ?_ ?_ _ _ <;> rfl
    · split
      · refine extends_undoBatch env plan s.outcome.errors ?_ ?_ ?_ _ _ <;> rfl
      · refine ⟨⟨rfl, rfl, rfl, rfl, ?_, ?_⟩, .inl rfl⟩ <;> simp [recordBatch, keepBatch]
  · refine extends_undoBatch env plan (s.outcome.errors ++ [f.message]) ?_ ?_ ?_ _ _ <;> rfl

/-- The result of a batch that is skipped. -/
def skippedOutcome (o : PruneOptions R) (index : Nat) (batch : List (Candidate R)) : BatchOutcome :=
  { index
    functions := batch.map (·.function.id)
    files := batchFiles o batch
    status := .skipped
    error := "cancelled" }

theorem skipBatches_cons (env : Surroundings σ R) (o : PruneOptions R) (index : Nat)
    (batch : List (Candidate R)) (rest : List (List (Candidate R))) (s : RunState σ R) :
    skipBatches env o index (batch :: rest) s =
      skipBatches env o (index + 1) rest (passBatch env batch (skippedOutcome o index batch) s) :=
  rfl

theorem covers_skipBatches (env : Surroundings σ R) (o : PruneOptions R)
    {done : List (List (Candidate R))} {s : RunState σ R} (h : s.outcome.Covers done)
    (groups : List (List (Candidate R))) :
    (skipBatches env o done.length groups s).outcome.Covers (done ++ groups) ∧
      (skipBatches env o done.length groups s).outcome.candidates = s.outcome.candidates := by
  induction groups generalizing done s with
  | nil => simpa [skipBatches] using h
  | cons batch rest ih =>
    have hextends : s.outcome.Extends
        (passBatch env batch (skippedOutcome o done.length batch) s).outcome batch
        (skippedOutcome o done.length batch) := by
      refine ⟨h.length_eq.symm, rfl, rfl, rfl, ?_, ?_⟩ <;>
        simp [passBatch, recordBatch, skippedOutcome]
    have hrest := ih (h.snoc hextends)
    rwa [List.length_append, List.length_singleton, List.append_assoc, ← skipBatches_cons,
      hextends.candidates] at hrest

/-- The batches of a run are reported: first those that were run, then those that were skipped. -/
theorem covers_runBatches (env : Surroundings σ R) (plan : RunPlan R)
    {done : List (List (Candidate R))} {s : RunState σ R} (h : s.outcome.Covers done)
    (hran : ∀ r ∈ s.outcome.batches, r.status = .committed ∨ r.status = .rolledBack)
    (groups : List (List (Candidate R))) :
    let out := (runBatches env plan done.length groups s).outcome
    out.Covers (done ++ groups) ∧ out.candidates = s.outcome.candidates ∧
      ∃ ran skipped, out.batches = ran ++ skipped ∧
        (∀ r ∈ ran, r.status = .committed ∨ r.status = .rolledBack) ∧
        ∀ r ∈ skipped, r.status = .skipped := by
  induction groups generalizing done s with
  | nil =>
    refine ⟨by simpa [runBatches] using h, rfl, s.outcome.batches, [], ?_, hran, by simp⟩
    simp [runBatches]
  | cons batch rest ih =>
    unfold runBatches
    split_ifs
    · obtain ⟨hcovers, hcandidates⟩ := covers_skipBatches env plan.options h (batch :: rest)
      obtain ⟨-, skipped, hskipped, hbatches⟩ :=
        skipBatches_spec env plan.options done.length (batch :: rest) s
      exact ⟨⟨hcovers.indices, hcovers.functions, hcovers.deleted, hcovers.skipped⟩, hcandidates,
        _, skipped, hbatches, hran, hskipped⟩
    · have hstep := extends_runBatch env plan batch s
      rw [h.length_eq] at hstep
      simp only
      generalize runBatch env plan done.length batch s = r at hstep ⊢
      obtain ⟨result, s'⟩ := r
      obtain ⟨hextends, hstatus⟩ := hstep
      have hran' : ∀ r ∈ (recordBatch env result s').outcome.batches,
          r.status = .committed ∨ r.status = .rolledBack := by
        rw [hextends.batches]
        exact List.forall_mem_append.mpr ⟨hran, by simpa using hstatus⟩
      have hrest := ih (h.snoc hextends) hran'
      rwa [List.length_append, List.length_singleton, List.append_assoc,
        hextends.candidates] at hrest

end Batches

/-! ## What the outside is told -/

/-- What the outside is told of a run. -/
inductive ProgressCall where
  | started (total : Nat)
  | finished (result : BatchOutcome)

/-- What a tracker makes of it. -/
def Tracker.hear (t : Tracker) : ProgressCall → Tracker
  | .started total => t.start total
  | .finished result => t.finish result.index result.status

/-- The same outside, with a record of what it is told. -/
def Surroundings.logged (env : Surroundings σ R) : Surroundings (σ × List ProgressCall) R where
  confirm := env.confirm.map fun ask candidates s =>
    ((ask candidates s.1).1, (ask candidates s.1).2, s.2)
  validate s d :=
    ((env.validate s.1 d).1, ((env.validate s.1 d).2.1, s.2), (env.validate s.1 d).2.2)
  means := env.means
  isCancelled s := env.isCancelled s.1
  started total s := (env.started total s.1, s.2 ++ [.started total])
  finished result s := (env.finished result s.1, s.2 ++ [.finished result])

/-- A state of a run together with what the outside was told so far. -/
def RunState.withLog (s : RunState σ R) (log : List ProgressCall) :
    RunState (σ × List ProgressCall) R :=
  { s with outer := (s.outer, log) }

/-- The end of a run together with what the outside was told. -/
def RunEnd.withLog (e : RunEnd σ R) (log : List ProgressCall) :
    RunEnd (σ × List ProgressCall) R :=
  { e with outer := (e.outer, log) }

theorem recordBatch_logged (env : Surroundings σ R) (result : BatchOutcome) (s : RunState σ R)
    (log : List ProgressCall) :
    recordBatch env.logged result (s.withLog log) =
      (recordBatch env result s).withLog (log ++ [.finished result]) :=
  rfl

theorem passBatch_logged (env : Surroundings σ R) (batch : List (Candidate R))
    (result : BatchOutcome) (s : RunState σ R) (log : List ProgressCall) :
    passBatch env.logged batch result (s.withLog log) =
      (passBatch env batch result s).withLog (log ++ [.finished result]) :=
  rfl

section Logged

variable [Scale R]

theorem runBatch_logged (env : Surroundings σ R) (plan : RunPlan R) (index : Nat)
    (batch : List (Candidate R)) (s : RunState σ R) (log : List ProgressCall) :
    runBatch env.logged plan index batch (s.withLog log) =
      ((runBatch env plan index batch s).1, (runBatch env plan index batch s).2.withLog log) := by
  obtain ⟨confirm, validate, means, isCancelled, started, finished⟩ := env
  unfold runBatch
  simp only [Surroundings.logged, RunState.withLog]
  generalize writeUntilFailure plan.backup _ _ s.disk = written
  obtain ⟨_ | f, d⟩ := written
  · rcases hchecked : validate s.outer d with ⟨verdict, outer, d'⟩
    simp only [hchecked]
    split_ifs <;> rfl
  · rfl

theorem skipBatches_logged (env : Surroundings σ R) (o : PruneOptions R) (index : Nat)
    (groups : List (List (Candidate R))) (s : RunState σ R) (log : List ProgressCall) :
    ∃ results : List BatchOutcome,
      (skipBatches env o index groups s).outcome.batches = s.outcome.batches ++ results ∧
        skipBatches env.logged o index groups (s.withLog log) =
          (skipBatches env o index groups s).withLog (log ++ results.map .finished) := by
  induction groups generalizing index s log with
  | nil => exact ⟨[], by simp [skipBatches], by simp [skipBatches]⟩
  | cons batch rest ih =>
    rw [skipBatches_cons, skipBatches_cons, passBatch_logged]
    generalize skippedOutcome o index batch = result
    obtain ⟨results, hresults, hlogged⟩ :=
      ih (index + 1) (passBatch env batch result s) (log ++ [.finished result])
    have hbatches : (passBatch env batch result s).outcome.batches =
        s.outcome.batches ++ [result] := rfl
    exact ⟨result :: results, by simp [hresults, hbatches], by simp [hlogged]⟩

/-- The outside is told of every batch once, in order, and of nothing else. -/
theorem runBatches_logged (env : Surroundings σ R) (plan : RunPlan R) (index : Nat)
    (groups : List (List (Candidate R))) (s : RunState σ R) (log : List ProgressCall) :
    ∃ results : List BatchOutcome,
      (runBatches env plan index groups s).outcome.batches = s.outcome.batches ++ results ∧
        runBatches env.logged plan index groups (s.withLog log) =
          (runBatches env plan index groups s).withLog (log ++ results.map .finished) := by
  induction groups generalizing index s log with
  | nil => exact ⟨[], by simp [runBatches], by simp [runBatches]⟩
  | cons batch rest ih =>
    have hcancelled : env.logged.isCancelled (s.withLog log).outer = env.isCancelled s.outer := rfl
    unfold runBatches
    rw [hcancelled]
    split_ifs
    · obtain ⟨results, hresults, hlogged⟩ :=
        skipBatches_logged env plan.options index (batch :: rest) s log
      refine ⟨results, hresults, ?_⟩
      rw [hlogged]
      rfl
    · have hsame : (runBatch env plan index batch s).2.outcome.batches = s.outcome.batches :=
        (runBatch_cases env plan index batch s).1
      rw [runBatch_logged]
      simp only
      generalize runBatch env plan index batch s = r at hsame ⊢
      obtain ⟨result, s'⟩ := r
      have hbatches : (recordBatch env result s').outcome.batches = s.outcome.batches ++ [result] :=
        congrArg (· ++ [result]) hsame
      rw [recordBatch_logged]
      obtain ⟨results, hresults, hlogged⟩ :=
        ih (index + 1) (recordBatch env result s') (log ++ [.finished result])
      exact ⟨result :: results, by simp [hresults, hbatches], by simp [hlogged]⟩

/-- The outside is told how many batches there are once the backup is made. -/
theorem prepare_logged (env : Surroundings σ R) (o : PruneOptions R) (backupId : String)
    (now : Timestamp) (candidates : List (Candidate R)) (s : RunState σ R)
    (log : List ProgressCall) :
    prepare env.logged o backupId now candidates (s.withLog log) =
      match prepare env o backupId now candidates s with
      | (.error f, s') => (.error f, s'.withLog log)
      | (.ok plan, s') =>
        (.ok plan, s'.withLog (log ++ [.started (batches o.maxPerBatch candidates).length])) := by
  obtain ⟨confirm, validate, means, isCancelled, started, finished⟩ := env
  unfold prepare
  simp only [Surroundings.logged, RunState.withLog]
  generalize makeBackup _ o backupId now candidates s.disk = made
  obtain ⟨f | backup, d⟩ := made <;> rfl

end Logged

/-- The outside is told nothing before the run is prepared. -/
theorem startRun_logged (env : Surroundings σ Float) (o : PruneOptions Float)
    (fs : List FunctionRecord) (edges : List (CallEdge Float))
    (protector : Option (FunctionRecord → Evidence Float)) (outer : σ) (disk : Disk)
    (log : List ProgressCall) :
    startRun env.logged o fs edges protector (outer, log) disk =
      match startRun env o fs edges protector outer disk with
      | .error ended => .error (ended.withLog log)
      | .ok s => .ok (s.withLog log) := by
  obtain ⟨confirm, validate, means, isCancelled, started, finished⟩ := env
  unfold startRun
  cases o.problem? with
  | some p => rfl
  | none =>
    simp only [Surroundings.logged]
    by_cases hempty : !o.isExecuting || (select o fs edges protector).candidates.isEmpty
    · simp only [hempty, if_true]
      rfl
    simp only [hempty]
    cases confirm with
    | none =>
      cases hcancelled : isCancelled outer <;>
        simp [hcancelled, RunEnd.withLog, RunState.withLog]
    | some ask =>
      rcases hanswer : ask (select o fs edges protector).candidates outer with ⟨confirmed, outer'⟩
      cases confirmed <;> cases hcancelled : isCancelled outer' <;>
        simp [hanswer, hcancelled, RunEnd.withLog, RunState.withLog]

/-! ## What is known before the first batch -/

/-- Two outcomes agree on what is known before the first batch. -/
structure PruneOutcome.SameStart (a b : PruneOutcome R) : Prop where
  executed : b.executed = a.executed
  backupPath : b.backupPath = a.backupPath
  before : b.before = a.before

namespace PruneOutcome.SameStart

theorem refl (a : PruneOutcome R) : a.SameStart a :=
  ⟨rfl, rfl, rfl⟩

theorem trans {a b c : PruneOutcome R} (h : a.SameStart b) (g : b.SameStart c) : a.SameStart c :=
  ⟨g.executed.trans h.executed, g.backupPath.trans h.backupPath, g.before.trans h.before⟩

end PruneOutcome.SameStart

section Batches

variable [Scale R]

theorem sameStart_runBatch (env : Surroundings σ R) (plan : RunPlan R) (index : Nat)
    (batch : List (Candidate R)) (s : RunState σ R) :
    s.outcome.SameStart (runBatch env plan index batch s).2.outcome := by
  unfold runBatch
  simp only
  generalize writeUntilFailure plan.backup _ _ s.disk = written
  obtain ⟨_ | f, d⟩ := written
  · simp only
    split_ifs <;> exact ⟨rfl, rfl, rfl⟩
  · exact ⟨rfl, rfl, rfl⟩

theorem sameStart_skipBatches (env : Surroundings σ R) (o : PruneOptions R) (index : Nat)
    (groups : List (List (Candidate R))) (s : RunState σ R) :
    s.outcome.SameStart (skipBatches env o index groups s).outcome := by
  induction groups generalizing index s with
  | nil => exact .refl _
  | cons batch rest ih =>
    rw [skipBatches_cons]
    have hpass : s.outcome.SameStart
        (passBatch env batch (skippedOutcome o index batch) s).outcome := ⟨rfl, rfl, rfl⟩
    exact hpass.trans (ih (index + 1) _)

theorem sameStart_runBatches (env : Surroundings σ R) (plan : RunPlan R) (index : Nat)
    (groups : List (List (Candidate R))) (s : RunState σ R) :
    s.outcome.SameStart (runBatches env plan index groups s).outcome := by
  induction groups generalizing index s with
  | nil => exact .refl _
  | cons batch rest ih =>
    unfold runBatches
    split_ifs
    · exact (sameStart_skipBatches env plan.options index (batch :: rest) s).trans ⟨rfl, rfl, rfl⟩
    · have hstep := sameStart_runBatch env plan index batch s
      simp only
      generalize runBatch env plan index batch s = r at hstep ⊢
      have hrecord : r.2.outcome.SameStart (recordBatch env r.1 r.2).outcome := ⟨rfl, rfl, rfl⟩
      exact (hstep.trans hrecord).trans (ih (index + 1) _)

variable {o : PruneOptions R} {backupId : String} {now : Timestamp}
  {candidates : List (Candidate R)} {s : RunState σ R}

/-- Without a backup a run ends as it began, but for what is left of the attempt. With one, it runs
its batches, and says where the backup is. -/
theorem execute_cases (env : Surroundings σ R) {made : Except Fault Backup} {d₀ : Disk}
    (hmade : makeBackup env.means o backupId now candidates s.disk = (made, d₀)) :
    (∃ f, made = .error f ∧ execute env o backupId now candidates s =
        (some (.context "failed to create backup" f), { s with disk := d₀ })) ∨
      ∃ b, made = .ok b ∧ (execute env o backupId now candidates s).2.outcome.executed ∧
        (execute env o backupId now candidates s).2.outcome.backupPath = b.dir ∧
        (execute env o backupId now candidates s).2.outcome.before =
          (env.validate s.outer d₀).1 := by
  cases made with
  | error f =>
    refine .inl ⟨f, rfl, ?_⟩
    unfold execute
    rw [prepare_of_error hmade]
  | ok b =>
    unfold execute
    rw [prepare_of_ok hmade]
    generalize hs₀ : RunState.mk _ _ s.committed _ = s₀
    have hstart := sameStart_runBatches env ⟨o, b, (env.validate s.outer d₀).1⟩ 0
      (batches o.maxPerBatch candidates) s₀
    subst hs₀
    exact .inr ⟨b, rfl, hstart.executed, hstart.backupPath, hstart.before⟩

end Batches

/-! ## Whole runs -/

theorem PruneOptions.one_le_maxPerBatch [Scale R] {o : PruneOptions R} (h : o.problem? = none) :
    1 ≤ o.maxPerBatch := by
  by_contra hsize
  have hsmall : o.maxPerBatch < 1 := by omega
  simp only [problem?, hsmall, if_true] at h
  split_ifs at h

/-- A run that ends before it is prepared was not executed, and one that goes on has nothing
reported yet. -/
theorem startRun_blank (env : Surroundings σ Float) (o : PruneOptions Float)
    (fs : List FunctionRecord) (edges : List (CallEdge Float))
    (protector : Option (FunctionRecord → Evidence Float)) (outer : σ) (disk : Disk) :
    (∃ ended, startRun env o fs edges protector outer disk = .error ended ∧
        ∀ out, ended.outcome = some out → out.executed = false) ∨
      ∃ s, startRun env o fs edges protector outer disk = .ok s ∧ 1 ≤ o.maxPerBatch ∧
        s.outcome.candidates = (select o fs edges protector).candidates ∧
        s.outcome.Covers [] ∧ s.outcome.executed = false := by
  unfold startRun
  cases hproblem : o.problem? with
  | some p => exact .inl ⟨_, rfl, by simp⟩
  | none =>
    simp only
    split_ifs
    · exact .inl ⟨_, rfl, by simp⟩
    · exact .inl ⟨_, rfl, by simp⟩
    · exact .inl ⟨_, rfl, by simp⟩
    · exact .inr ⟨_, rfl, PruneOptions.one_le_maxPerBatch hproblem, rfl, ⟨rfl, rfl, rfl, rfl⟩, rfl⟩

/-- A run that cannot be prepared is not executed, and preparing reports on no batch. -/
theorem prepare_blank [Scale R] (env : Surroundings σ R) (o : PruneOptions R) (backupId : String)
    (now : Timestamp) (candidates : List (Candidate R)) (s : RunState σ R) :
    (∃ f s', prepare env o backupId now candidates s = (.error f, s') ∧ s'.outcome = s.outcome) ∨
      ∃ plan s', prepare env o backupId now candidates s = (.ok plan, s') ∧
        s'.outcome.candidates = s.outcome.candidates ∧
        ∀ done, s.outcome.Covers done → s'.outcome.Covers done := by
  unfold prepare
  simp only
  generalize makeBackup _ o backupId now candidates s.disk = made
  obtain ⟨f | backup, d⟩ := made
  · exact .inl ⟨_, _, rfl, rfl⟩
  · exact .inr ⟨_, _, rfl, rfl, fun done h => ⟨h.indices, h.functions, h.deleted, h.skipped⟩⟩

theorem execute_report [Scale R] (env : Surroundings σ R) (o : PruneOptions R) (backupId : String)
    (now : Timestamp) (candidates : List (Candidate R)) {s : RunState σ R}
    (hcovers : s.outcome.Covers []) (hidle : s.outcome.executed = false) :
    ∃ fault s', execute env o backupId now candidates s = (fault, s') ∧
      (s'.outcome.executed → s'.outcome.Covers (batches o.maxPerBatch candidates) ∧
        s'.outcome.candidates = s.outcome.candidates ∧
        (∃ ran skipped, s'.outcome.batches = ran ++ skipped ∧
          (∀ r ∈ ran, r.status = .committed ∨ r.status = .rolledBack) ∧
          ∀ r ∈ skipped, r.status = .skipped) ∧
        execute env.logged o backupId now candidates (s.withLog []) =
          (fault, s'.withLog
            (.started s'.outcome.batches.length :: s'.outcome.batches.map .finished))) := by
  unfold execute
  rw [prepare_logged]
  rcases prepare_blank env o backupId now candidates s with
    ⟨f, s', hprepare, hsame⟩ | ⟨plan, s', hprepare, hcandidates, hstart⟩
  · simp only [hprepare]
    refine ⟨_, _, rfl, fun hexecuted => ?_⟩
    simp [hsame, hidle] at hexecuted
  · simp only [hprepare]
    have hnone : s'.outcome.batches = [] :=
      List.eq_nil_of_length_eq_zero (hstart [] hcovers).length_eq
    obtain ⟨hall, hkept, hlast⟩ :=
      covers_runBatches env plan (hstart [] hcovers) (by simp [hnone])
        (batches o.maxPerBatch candidates)
    obtain ⟨results, hresults, hlogged⟩ := runBatches_logged env plan 0
      (batches o.maxPerBatch candidates) s' [.started (batches o.maxPerBatch candidates).length]
    rw [hnone, List.nil_append] at hresults
    rw [List.nil_append, List.length_nil] at hall
    refine ⟨_, _, rfl, fun _ => ⟨hall, hkept.trans hcandidates, hlast, ?_⟩⟩
    rw [List.nil_append, hlogged, hall.length_eq, hresults]
    rfl

/-- An outcome that says of every candidate what became of it. -/
structure PruneOutcome.IsComplete (maxPerBatch : Int) (out : PruneOutcome R) : Prop where
  /-- The batches hold the candidates, in order. -/
  functions : out.batches.flatMap (·.functions) = out.candidates.map (·.function.id)
  /-- The batches are numbered, and none is empty or too large. -/
  numbered : ∀ (i : Nat) (r : BatchOutcome), out.batches[i]? = some r →
    r.index = i ∧ 1 ≤ r.functions.length ∧ (r.functions.length : Int) ≤ maxPerBatch
  /-- The candidates of the batches that were kept are deleted, in order. -/
  deleted : out.deleted.map (·.function.id) =
    (out.batches.filter (·.status = .committed)).flatMap (·.functions)
  /-- The candidates of the other batches are skipped, in order. -/
  skipped : out.skipped.map (·.function.id) =
    (out.batches.filter fun r =>
      r.status = .rolledBack || r.status = .skipped).flatMap (·.functions)
  disjoint : (out.deleted.map (·.function.id)).Disjoint (out.skipped.map (·.function.id))
  perm : (out.deleted ++ out.skipped).Perm out.candidates
  /-- After a batch that was skipped, all are. -/
  last : ∃ ran skipped, out.batches = ran ++ skipped ∧
    (∀ r ∈ ran, r.status = .committed ∨ r.status = .rolledBack) ∧ ∀ r ∈ skipped, r.status = .skipped

theorem functions_of_status {done : List (List (Candidate R))} {results : List BatchOutcome}
    (h : results.map (·.functions) = done.map (·.map (·.function.id)))
    (hasStatus : BatchOutcome → Bool) :
    (((done.zip results).filter fun g => hasStatus g.2).flatMap (·.1)).map (·.function.id) =
      (results.filter hasStatus).flatMap (·.functions) := by
  induction results generalizing done with
  | nil => simp
  | cons result results ih =>
    cases done with
    | nil => simp at h
    | cons batch done =>
      simp only [List.map_cons, List.cons.injEq] at h
      cases hstatus : hasStatus result <;> simp [hstatus, h.1, ← ih h.2, List.map_flatMap]

theorem isComplete_of_covers {maxPerBatch : Int} {out : PruneOutcome R}
    (h : out.Covers (batches maxPerBatch out.candidates)) (hsize : 1 ≤ maxPerBatch)
    (hnodup : (out.candidates.map (·.function.id)).Nodup)
    (hlast : ∃ ran skipped, out.batches = ran ++ skipped ∧
      (∀ r ∈ ran, r.status = .committed ∨ r.status = .rolledBack) ∧
      ∀ r ∈ skipped, r.status = .skipped) :
    out.IsComplete maxPerBatch := by
  have hflatten : (batches maxPerBatch out.candidates).flatten = out.candidates :=
    flatten_groupsOf _ _
  have hperm : (out.deleted ++ out.skipped).Perm out.candidates := by
    have hsplit := kept_append_left_perm h.length_eq
    rwa [hflatten, ← h.deleted, ← h.skipped] at hsplit
  have hstatus : ∀ r ∈ out.batches, (!decide (r.status = .committed)) =
      (decide (r.status = .rolledBack) || decide (r.status = .skipped)) := by
    obtain ⟨ran, skipped, hbatches, hran, hskipped⟩ := hlast
    intro r hr
    rcases List.mem_append.mp (hbatches ▸ hr) with hr | hr
    · rcases hran r hr with hr | hr <;> simp [hr]
    · simp [hskipped r hr]
  refine ⟨?_, fun i r hr => ?_, ?_, ?_, ?_, hperm, hlast⟩
  · rw [List.flatMap_def, h.functions, ← List.map_flatten, hflatten]
  · have hindex := congrArg (·[i]?) h.indices
    have hgroup := congrArg (·[i]?) h.functions
    simp only [List.getElem?_map, hr, Option.map_some] at hindex hgroup
    obtain ⟨batch, hbatch, hids⟩ := Option.map_eq_some_iff.mp hgroup.symm
    have hlength := length_of_mem_groupsOf (List.mem_of_getElem? hbatch)
    rw [← hids, List.length_map]
    have hi : i < (batches maxPerBatch out.candidates).length :=
      (List.getElem?_eq_some_iff.mp hbatch).1
    rw [List.getElem?_range hi] at hindex
    exact ⟨Option.some.inj hindex, hlength.1, by omega⟩
  · rw [h.deleted, ← functions_of_status h.functions, keptCandidates]
  · rw [h.skipped, ← List.filter_congr hstatus, ← functions_of_status h.functions, leftCandidates]
    simp
  · have hall : ((out.deleted ++ out.skipped).map (·.function.id)).Nodup :=
      (hperm.map _).nodup_iff.mpr hnodup
    rw [List.map_append] at hall
    exact List.disjoint_of_nodup_append hall

/-- What a tracker shows once it heard of some batches. -/
@[simp] theorem hear_finished (t : Tracker) (results : List BatchOutcome) :
    (results.map .finished).foldl Tracker.hear t =
      { t with
        finished := (results.map (·.status)).reverse ++ t.finished
        events := (results.map fun r => ⟨r.index, t.total, r.status⟩).reverse ++ t.events } := by
  induction results generalizing t with
  | nil => rfl
  | cons result results ih =>
    rw [List.map_cons, List.foldl_cons, ih]
    simp [Tracker.hear, Tracker.finish]

/-- What the run on two functions that share a line reports. -/
theorem Overlap.exists_outcome :
    ∃ out, ended.outcome = some out ∧ out.executed ∧
      out.batches.map (·.status) = [.committed, .rolledBack] ∧
      out.deleted = [candidateFor [] setup .isolated] := by
  obtain ⟨s, hstart, hdisk, hcommitted, hbatches, hcandidates⟩ := startRun_eq
  obtain ⟨hout, -⟩ := prune_of_startRun hstart "b1" .zero
  obtain ⟨hcovers, hidle⟩ : s.outcome.Covers [] ∧ s.outcome.executed = false := by
    rcases startRun_blank env options functions [] none () disk with
      ⟨early, herror, -⟩ | ⟨s', hok, -, -, hblank⟩
    · simp [hstart] at herror
    · obtain rfl : s = s' := by simpa [hstart] using hok
      exact hblank
  obtain ⟨b, d₀, hmade⟩ := exists_makeBackup
  rw [← hdisk] at hmade
  obtain ⟨fault, last, hexecute, hreport⟩ :=
    execute_report env options "b1" .zero candidates hcovers hidle
  have hexecuted : last.outcome.executed := by
    obtain ⟨f, hf, -⟩ | ⟨b', -, hexecuted, -⟩ := execute_cases env hmade
    · simp at hf
    · rwa [hexecute] at hexecuted
  obtain ⟨hstatus, -⟩ := execute_eq hdisk hcommitted hbatches (congrArg Prod.snd hexecute)
  obtain ⟨hall, -⟩ := hreport hexecuted
  rw [hcandidates, hexecute] at hout
  refine ⟨last.outcome, hout, hexecuted, hstatus, ?_⟩
  obtain ⟨first, rest, hresults, hkept, hrest⟩ := List.map_eq_cons_iff.mp hstatus
  obtain ⟨second, _, rfl, hundone, hnone⟩ := List.map_eq_cons_iff.mp hrest
  obtain rfl := List.map_eq_nil_iff.mp hnone
  rw [hall.deleted, hresults, batches_eq]
  simp [keptCandidates, hkept, hundone]

/-- An executed run reports what became of every candidate of the selection. The outside, which may
cancel the run whenever it is asked or told something, is told once of the number of batches and
then once of each batch, with its number and the status it has in the report; a tracker that hears
this shows these events and counts them. -/
theorem prune_accounts_for_candidates (env : Surroundings σ Float) (o : PruneOptions Float)
    (backupId : String) (now : Timestamp) (fs : List FunctionRecord) (edges : List (CallEdge Float))
    (protector : Option (FunctionRecord → Evidence Float)) (outer : σ) (disk : Disk)
    (out : PruneOutcome Float)
    (hout : (prune env o backupId now fs edges protector outer disk).outcome = some out)
    (hexecuted : out.executed) :
    out.candidates = (select o fs edges protector).candidates ∧ out.IsComplete o.maxPerBatch ∧
      let calls := .started out.batches.length :: out.batches.map .finished
      prune env.logged o backupId now fs edges protector (outer, []) disk =
          (prune env o backupId now fs edges protector outer disk).withLog calls ∧
        ∀ t : Tracker, calls.foldl Tracker.hear t =
          { total := out.batches.length
            finished := (out.batches.map (·.status)).reverse
            events := (out.batches.map fun r =>
              ⟨r.index, out.batches.length, r.status⟩).reverse ++ t.events } := by
  have hstartLogged := startRun_logged env o fs edges protector outer disk []
  unfold prune at hout ⊢
  rcases startRun_blank env o fs edges protector outer disk with
    ⟨ended, hstart, hidle⟩ | ⟨s, hstart, hsize, hcandidates, hcovers, hidle⟩
  · simp only [hstart] at hout
    simp [hidle out hout] at hexecuted
  · obtain ⟨fault, s', hexecute, hreport⟩ :=
      execute_report env o backupId now s.outcome.candidates hcovers hidle
    simp only [hstart, hexecute, Option.some.injEq] at hout hstartLogged ⊢
    subst hout
    obtain ⟨hall, hsame, hlast, hlogged⟩ := hreport hexecuted
    have hselected := hsame.trans hcandidates
    have hnodup := hselected ▸ nodup_select protector
    rw [← hsame] at hall
    refine ⟨hselected, isComplete_of_covers hall hsize hnodup hlast, ?_, fun t => ?_⟩
    · simp only [hstartLogged]
      have hsame' : (s.withLog []).outcome.candidates = s.outcome.candidates := rfl
      rw [hsame', hlogged]
      rfl
    · rw [List.foldl_cons, hear_finished]
      simp [Tracker.hear, Tracker.start]

/-- Of two batches one is kept and one undone. -/
theorem prune_accounts_for_candidates_overlap :
    ∃ out, (prune Overlap.env Overlap.options "b1" .zero Overlap.functions [] none ()
        Overlap.disk).outcome = some out ∧ out.executed ∧
      out.batches.map (·.status) = [.committed, .rolledBack] ∧ out.IsComplete 1 ∧
      (prune Overlap.env.logged Overlap.options "b1" .zero Overlap.functions [] none ((), [])
        Overlap.disk).outer.2 = .started 2 :: out.batches.map .finished := by
  obtain ⟨out, hout, hexecuted, hstatus, -⟩ := Overlap.exists_outcome
  obtain ⟨-, hcomplete, hlogged, -⟩ := prune_accounts_for_candidates Overlap.env Overlap.options
    "b1" .zero Overlap.functions [] none () Overlap.disk out hout hexecuted
  have htwo : out.batches.length = 2 := by simpa using congrArg List.length hstatus
  refine ⟨out, hout, hexecuted, hstatus, hcomplete, ?_⟩
  rw [hlogged, RunEnd.withLog, htwo]

end Deadwood
