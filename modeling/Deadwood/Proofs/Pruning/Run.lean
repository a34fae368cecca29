import Deadwood.Proofs.Pruning.Keep
import Deadwood.Proofs.Pruning.Select

/-!
# What a run leaves on the disk

At every moment of a run between two batches, each file that the run may change is its content from
before the run, without the lines of the functions whose batches were kept. A batch that was undone
has left no trace.

## Main definitions

* `batchStates`, `executeStates`: the states of a run between its batches.
* `keptCandidates`: the candidates of the batches that were kept.
* `ShowsDeletions`: files that lack exactly the lines of kept batches.
* `RunAssumptions`: what a run takes for granted.

## Main results

* `Groundwork.sound_batchStates`: what holds between the batches.
* `prune_removes_kept_batches`: what holds between the batches and at the end of a whole run.
-/

namespace Deadwood

variable {σ R : Type}

section States

variable [Scale R]

/-! ## The states of a run -/

/-- The states of a run: before its first batch, and after each batch that was not skipped. -/
def batchStates (env : Surroundings σ R) (plan : RunPlan R) :
    Nat → List (List (Candidate R)) → RunState σ R → List (RunState σ R)
  | _, [], s => [s]
  | index, batch :: rest, s =>
    if env.isCancelled s.outer then [s]
    else
      let (result, s') := runBatch env plan index batch s
      s :: batchStates env plan (index + 1) rest (recordBatch env result s')

/-- The states of a run from the moment when it has been prepared, or could not be. -/
def executeStates (env : Surroundings σ R) (o : PruneOptions R) (backupId : String)
    (now : Timestamp) (candidates : List (Candidate R)) (s : RunState σ R) :
    List (RunState σ R) :=
  match prepare env o backupId now candidates s with
  | (.error _, s) => [s]
  | (.ok plan, s) => batchStates env plan 0 (batches o.maxPerBatch candidates) s

theorem batchStates_eq_cons (env : Surroundings σ R) (plan : RunPlan R) (index : Nat)
    (groups : List (List (Candidate R))) (s : RunState σ R) :
    ∃ tail, batchStates env plan index groups s = s :: tail := by
  cases groups with
  | nil => exact ⟨[], rfl⟩
  | cons batch rest =>
    unfold batchStates
    split_ifs
    · exact ⟨[], rfl⟩
    · exact ⟨_, rfl⟩

theorem skipBatches_spec (env : Surroundings σ R) (o : PruneOptions R) (index : Nat)
    (groups : List (List (Candidate R))) (s : RunState σ R) :
    (skipBatches env o index groups s).disk = s.disk ∧
      ∃ skipped : List BatchOutcome, (∀ r ∈ skipped, r.status = .skipped) ∧
        (skipBatches env o index groups s).outcome.batches = s.outcome.batches ++ skipped := by
  induction groups generalizing index s with
  | nil => exact ⟨rfl, [], by simp, by simp [skipBatches]⟩
  | cons batch rest ih =>
    unfold skipBatches
    simp only
    generalize hresult : BatchOutcome.mk index (batch.map (·.function.id)) (batchFiles o batch)
      .skipped {} "cancelled" = result
    have hstatus : result.status = .skipped := hresult ▸ rfl
    obtain ⟨hdisk, skipped, hskipped, hbatches⟩ := ih (index + 1) _
    refine ⟨hdisk, result :: skipped, List.forall_mem_cons.mpr ⟨hstatus, hskipped⟩,
      hbatches.trans ?_⟩
    simp [recordBatch]

/-- A run ends on the disk of its last state, and then only reports what was skipped. -/
theorem runBatches_eq_last (env : Surroundings σ R) (plan : RunPlan R) (index : Nat)
    (groups : List (List (Candidate R))) (s : RunState σ R) :
    ∃ last, (batchStates env plan index groups s).getLast? = some last ∧
      (runBatches env plan index groups s).disk = last.disk ∧
      ∃ skipped : List BatchOutcome, (∀ r ∈ skipped, r.status = .skipped) ∧
        (runBatches env plan index groups s).outcome.batches = last.outcome.batches ++ skipped := by
  induction groups generalizing index s with
  | nil => exact ⟨s, rfl, rfl, [], by simp, by simp [runBatches]⟩
  | cons batch rest ih =>
    unfold batchStates runBatches
    split_ifs
    · obtain ⟨hdisk, skipped, hskipped, hbatches⟩ :=
        skipBatches_spec env plan.options index (batch :: rest) s
      exact ⟨s, rfl, hdisk, skipped, hskipped, hbatches⟩
    · simp only
      generalize runBatch env plan index batch s = r
      obtain ⟨result, s'⟩ := r
      obtain ⟨last, hlast, hend⟩ := ih (index + 1) (recordBatch env result s')
      obtain ⟨tail, htail⟩ :=
        batchStates_eq_cons env plan (index + 1) rest (recordBatch env result s')
      refine ⟨last, ?_, hend⟩
      rw [htail] at hlast
      rw [htail, List.getLast?_cons_cons, hlast]

end States

/-! ## Kept batches -/

/-- The candidates of the batches that were kept. -/
def keptCandidates (groups : List (List (Candidate R))) (results : List BatchOutcome) :
    List (Candidate R) :=
  ((groups.zip results).filter (·.2.status = .committed)).flatMap (·.1)

theorem keptCandidates_append {groups : List (List (Candidate R))} {results : List BatchOutcome}
    (h : results.length = groups.length) (batch : List (Candidate R)) (result : BatchOutcome) :
    keptCandidates (groups ++ [batch]) (results ++ [result]) =
      keptCandidates groups results ++ if result.status = .committed then batch else [] := by
  rw [keptCandidates, List.zip_append h.symm, List.filter_append, List.flatMap_append,
    ← keptCandidates]
  by_cases hr : result.status = .committed <;> simp [hr]

/-- Batches without a result do not count. -/
theorem keptCandidates_of_isPrefix {done groups : List (List (Candidate R))}
    {results : List BatchOutcome} (h : results.length = done.length) (hdone : done <+: groups) :
    keptCandidates groups results = keptCandidates done results := by
  obtain ⟨rest, rfl⟩ := hdone
  have hzip : (done ++ rest).zip (results ++ []) = done.zip results ++ rest.zip [] :=
    List.zip_append h.symm
  rw [List.append_nil, List.zip_nil_right, List.append_nil] at hzip
  rw [keptCandidates, hzip, ← keptCandidates]

/-- Skipped batches do not count. -/
theorem keptCandidates_skipped {groups : List (List (Candidate R))}
    {results skipped : List BatchOutcome} (h : ∀ r ∈ skipped, r.status = .skipped) :
    keptCandidates groups (results ++ skipped) = keptCandidates groups results := by
  induction groups generalizing results with
  | nil => rfl
  | cons batch groups ih =>
    cases results with
    | nil =>
      have hnone : ((batch :: groups).zip skipped).filter (·.2.status = .committed) = [] := by
        refine List.filter_eq_nil_iff.mpr fun g hg => ?_
        simp [h g.2 (List.of_mem_zip hg).2]
      simp [keptCandidates, hnone]
    | cons result results =>
      have := @ih results
      simp only [keptCandidates, List.cons_append, List.zip_cons_cons, List.filter_cons] at this ⊢
      split_ifs <;> simp [this]

section Invariant

variable [Scale R]

/-- A state in which some batches have a result, and the ranges of those that were kept are
committed. -/
structure RunState.Tallies (o : PruneOptions R) (done : List (List (Candidate R)))
    (s : RunState σ R) : Prop where
  count : s.outcome.batches.length = done.length
  ranges : ∀ p, s.committed.of p = rangesIn o (keptCandidates done s.outcome.batches) p

/-- The second state comes from the first by a batch; if that was undone, every file that the checks
spare is as it was. -/
def FollowsBatch (env : Surroundings σ R) (s t : RunState σ R) : Prop :=
  ∃ result, t.outcome.batches = s.outcome.batches ++ [result] ∧
    (result.status = .rolledBack →
      ∀ q, env.Spares q → ∀ x, s.disk.readFile q = .ok x → t.disk.readFile q = .ok x)

theorem batches_recordBatch (env : Surroundings σ R) (plan : RunPlan R) (index : Nat)
    (batch : List (Candidate R)) (s : RunState σ R) :
    (recordBatch env (runBatch env plan index batch s).1
        (runBatch env plan index batch s).2).outcome.batches =
      s.outcome.batches ++ [(runBatch env plan index batch s).1] :=
  congrArg (· ++ [(runBatch env plan index batch s).1]) (runBatch_cases env plan index batch s).1

theorem Groundwork.sound_recordBatch {env : Surroundings σ R} {plan : RunPlan R}
    {paths : List String} {d₀ : Disk} {s : RunState σ R} (g : Groundwork plan.backup paths d₀)
    (hfiles : ∀ p ∈ paths, env.Spares p)
    (hblobs : env.SparesBlobs plan.backup.dir)
    (hs : s.Sound plan.backup paths d₀) {done : List (List (Candidate R))}
    (ht : s.Tallies plan.options done) {batch : List (Candidate R)}
    (hbatch : ∀ p ∈ batchFiles plan.options batch, p ∈ paths) (index : Nat) :
    let (result, s') := runBatch env plan index batch s
    let t := recordBatch env result s'
    t.Sound plan.backup paths d₀ ∧ t.Tallies plan.options (done ++ [batch]) ∧
      FollowsBatch env s t := by
  have hrun := g.sound_runBatch hfiles hblobs hs hbatch index
  generalize runBatch env plan index batch s = r at hrun ⊢
  obtain ⟨result, s'⟩ := r
  obtain ⟨hsound, hbatches, hcases⟩ := hrun
  have hresults : (recordBatch env result s').outcome.batches =
      s.outcome.batches ++ [result] := by
    simp [recordBatch, hbatches]
  refine ⟨⟨hsound.derived, hsound.fits⟩, ⟨?_, fun p => ?_⟩, result, hresults, fun hstatus => ?_⟩
  · rw [hresults]
    simp [ht.count]
  · rw [hresults, keptCandidates_append ht.count, rangesIn_append, ← ht.ranges p]
    show s'.committed.of p = _
    rcases hcases with ⟨hstatus, hcommitted, -⟩ | ⟨hstatus, hcommitted⟩
    · rw [hcommitted, hstatus, if_neg (by simp)]
      simp [rangesIn]
    · rw [hcommitted p, hstatus, if_pos rfl]
  · rcases hcases with ⟨-, -, hundone⟩ | ⟨hstatus', -⟩
    · exact hundone
    · simp [hstatus'] at hstatus

/-- What holds between the batches of a run. -/
theorem Groundwork.sound_batchStates {env : Surroundings σ R} {plan : RunPlan R}
    {paths : List String} {d₀ : Disk} {s : RunState σ R} (g : Groundwork plan.backup paths d₀)
    (hfiles : ∀ p ∈ paths, env.Spares p)
    (hblobs : env.SparesBlobs plan.backup.dir)
    (hs : s.Sound plan.backup paths d₀) {done groups : List (List (Candidate R))}
    (ht : s.Tallies plan.options done)
    (hgroups : ∀ batch ∈ groups, ∀ p ∈ batchFiles plan.options batch, p ∈ paths) (index : Nat) :
    (∀ t ∈ batchStates env plan index groups s, t.Sound plan.backup paths d₀ ∧
        ∃ done', done' <+: done ++ groups ∧ t.Tallies plan.options done') ∧
      (batchStates env plan index groups s).IsChain (FollowsBatch env) := by
  induction groups generalizing index s done with
  | nil =>
    refine ⟨fun t h => ?_, .singleton s⟩
    obtain rfl : t = s := by simpa [batchStates] using h
    exact ⟨hs, done, by simp, ht⟩
  | cons batch rest ih =>
    unfold batchStates
    split_ifs
    · refine ⟨fun t h => ?_, .singleton s⟩
      obtain rfl : t = s := by simpa using h
      exact ⟨hs, done, List.prefix_append _ _, ht⟩
    · have hstep := g.sound_recordBatch hfiles hblobs hs ht (hgroups batch (by simp)) index
      simp only
      generalize runBatch env plan index batch s = r at hstep ⊢
      obtain ⟨result, s'⟩ := r
      obtain ⟨hsound, htallies, hfollows⟩ := hstep
      obtain ⟨hall, hchain⟩ := ih hsound htallies
        (fun b hb => hgroups b (List.mem_cons_of_mem _ hb)) (index + 1)
      obtain ⟨tail, htail⟩ :=
        batchStates_eq_cons env plan (index + 1) rest (recordBatch env result s')
      refine ⟨List.forall_mem_cons.mpr ⟨⟨hs, done, List.prefix_append _ _, ht⟩, fun t h => ?_⟩, ?_⟩
      · obtain ⟨hs', done', hdone', ht'⟩ := hall t h
        exact ⟨hs', done', by simpa using hdone', ht'⟩
      · rw [htail] at hchain ⊢
        exact List.isChain_cons_cons.mpr ⟨hfollows, hchain⟩

/-! ## The files of a run -/

@[simp] theorem flatten_groupsOf {α : Type} (n : Nat) (as : List α) :
    (groupsOf n as).flatten = as := by
  fun_induction groupsOf n as with
  | case1 => rfl
  | case2 a as ih => simp [ih]

theorem mem_touchedFiles {o : PruneOptions R} {candidates batch : List (Candidate R)} {p : String}
    (hbatch : batch ∈ batches o.maxPerBatch candidates) (hp : p ∈ batchFiles o batch) :
    p ∈ touchedFiles o candidates := by
  obtain ⟨c, hc, rfl⟩ := List.mem_map.mp (mem_distinctTexts.mp hp)
  have hmem : c ∈ (batches o.maxPerBatch candidates).flatten :=
    List.mem_flatten.mpr ⟨batch, hbatch, hc⟩
  rw [batches, flatten_groupsOf] at hmem
  exact List.mem_map_of_mem hmem

/-- The backup of a run, if it can be made. -/
def attempt (means : BackupMeans) (o : PruneOptions R) (backupId : String) (now : Timestamp)
    (candidates : List (Candidate R)) (disk : Disk) : Except Fault Backup :=
  (makeBackup means o backupId now candidates disk).1

/-- The disk once the backup of a run is made, or could not be. -/
def backedUp (means : BackupMeans) (o : PruneOptions R) (backupId : String) (now : Timestamp)
    (candidates : List (Candidate R)) (disk : Disk) : Disk :=
  (makeBackup means o backupId now candidates disk).2

theorem makeBackup_of_attempt {means : BackupMeans} {o : PruneOptions R} {backupId : String}
    {now : Timestamp} {candidates : List (Candidate R)} {disk : Disk} {made : Except Fault Backup}
    (h : attempt means o backupId now candidates disk = made) :
    makeBackup means o backupId now candidates disk =
      (made, backedUp means o backupId now candidates disk) := by
  rw [← h, attempt, backedUp]

/-- What a run takes for granted: the name of the backup is new, the checks leave the files and the
contents in the backup alone, paths that are spelled differently lead to different files, different
contents have different digests, and compressed contents can be told. The files are looked up where
the backup finds them, since directories that are made for it may give a path a meaning. -/
structure RunAssumptions (env : Surroundings σ R) (o : PruneOptions R) (backupId : String)
    (now : Timestamp) (candidates : List (Candidate R)) (disk : Disk) : Prop where
  new : IsNewName backupId (touchedFiles o candidates) disk
  spares : ∀ p ∈ touchedFiles o candidates, env.Spares p
  sparesBlobs : env.SparesBlobs (Path.join (o.resolve o.backupDir) backupId)
  apart : ∀ p ∈ touchedFiles o candidates, ∀ q ∈ touchedFiles o candidates, ∀ l,
    (backedUp env.means o backupId now candidates disk).locate p = .ok l →
      (backedUp env.means o backupId now candidates disk).locate q = .ok l → p = q
  differ : Backup.DigestsDiffer (touchedFiles o candidates)
    (backedUp env.means o backupId now candidates disk)
  faithful : env.means.Faithful (touchedFiles o candidates)
    (backedUp env.means o backupId now candidates disk)

/-- On a later disk, the files that a run may change are their contents without the lines of the
functions of kept batches. -/
def ShowsDeletions (o : PruneOptions R) (candidates : List (Candidate R)) (before : Disk)
    (results : List BatchOutcome) (after : Disk) : Prop :=
  ∀ p ∈ touchedFiles o candidates, ∀ c, before.readFile p = .ok c →
    after.readFile p = .ok (linesOutside c
      (rangesIn o (keptCandidates (batches o.maxPerBatch candidates) results) p))

theorem RunState.Sound.showsDeletions {b : Backup} {o : PruneOptions R}
    {candidates : List (Candidate R)} {d₀ : Disk} {s : RunState σ R}
    {done : List (List (Candidate R))} (hs : s.Sound b (touchedFiles o candidates) d₀)
    (ht : s.Tallies o done) (hdone : done <+: batches o.maxPerBatch candidates) :
    ShowsDeletions o candidates d₀ s.outcome.batches s.disk := by
  intro p hp c hc
  obtain ⟨l, m, hfind⟩ := Disk.readFile_eq_ok.mp hc
  obtain ⟨m', hm'⟩ := hs.derived.file p hp l c m hfind
  rw [Disk.readFile_of_find hm', ht.ranges, keptCandidates_of_isPrefix ht.count hdone]

section Preparation

variable {env : Surroundings σ R} {o : PruneOptions R} {backupId : String} {now : Timestamp}
  {candidates : List (Candidate R)} {s : RunState σ R} {means : BackupMeans} {disk : Disk}

/-- Making a backup changes nothing that was there before. -/
theorem frame_backedUp (new : IsNewName backupId (touchedFiles o candidates) disk) :
    Disk.Frame (disk.node? · = none) disk (backedUp means o backupId now candidates disk) := by
  have hframe := Backup.create_frame new means now (o.resolve o.backupDir) o.snapshotId
    (candidates.map (·.function.id))
  rwa [backedUp, makeBackup]

theorem find_backedUp (new : IsNewName backupId (touchedFiles o candidates) disk)
    {p : String} {l : Location} {n : DiskNode} (h : disk.find p = .ok (l, n)) :
    (backedUp means o backupId now candidates disk).find p = .ok (l, n) :=
  (frame_backedUp new).find h (by simp [(Disk.find_eq_ok.mp h).2])

theorem readFile_backedUp (new : IsNewName backupId (touchedFiles o candidates) disk)
    {p : String} {c : Bytes} (hc : disk.readFile p = .ok c) :
    (backedUp means o backupId now candidates disk).readFile p = .ok c := by
  obtain ⟨l, m, hfind⟩ := Disk.readFile_eq_ok.mp hc
  exact Disk.readFile_of_find (find_backedUp new hfind)

theorem prepare_of_error {f : Fault} {d₀ : Disk}
    (h : makeBackup env.means o backupId now candidates s.disk = (.error f, d₀)) :
    prepare env o backupId now candidates s =
      (.error (.context "failed to create backup" f), { s with disk := d₀ }) := by
  unfold prepare
  rw [h]

theorem prepare_of_ok {b : Backup} {d₀ : Disk}
    (h : makeBackup env.means o backupId now candidates s.disk = (.ok b, d₀)) :
    prepare env o backupId now candidates s =
      (.ok ⟨o, b, (env.validate s.outer d₀).1⟩,
        { s with
          outer := env.started (batches o.maxPerBatch candidates).length
            (env.validate s.outer d₀).2.1
          disk := (env.validate s.outer d₀).2.2
          outcome := { s.outcome with
            backupPath := b.dir
            executed := true
            before := (env.validate s.outer d₀).1
            after := (env.validate s.outer d₀).1 } }) := by
  unfold prepare
  rw [h]

theorem executeStates_of_error {f : Fault} {d₀ : Disk}
    (h : makeBackup env.means o backupId now candidates s.disk = (.error f, d₀)) :
    executeStates env o backupId now candidates s = [{ s with disk := d₀ }] := by
  unfold executeStates
  rw [prepare_of_error h]

theorem executeStates_of_prepare {plan : RunPlan R} {s₀ : RunState σ R}
    (h : prepare env o backupId now candidates s = (.ok plan, s₀)) :
    executeStates env o backupId now candidates s =
      batchStates env plan 0 (batches o.maxPerBatch candidates) s₀ := by
  unfold executeStates
  rw [h]

theorem execute_of_prepare {plan : RunPlan R} {s₀ : RunState σ R}
    (h : prepare env o backupId now candidates s = (.ok plan, s₀)) :
    execute env o backupId now candidates s =
      (none, runBatches env plan 0 (batches o.maxPerBatch candidates) s₀) := by
  unfold execute
  rw [h]

theorem stands_backedUp {b : Backup} {d₀ : Disk}
    (h : makeBackup means o backupId now candidates disk = (.ok b, d₀))
    (new : IsNewName backupId (touchedFiles o candidates) disk)
    (differ : Backup.DigestsDiffer (touchedFiles o candidates)
      (backedUp means o backupId now candidates disk))
    (faithful : means.Faithful (touchedFiles o candidates)
      (backedUp means o backupId now candidates disk)) :
    backedUp means o backupId now candidates disk = d₀ ∧
      b.dir = Path.join (o.resolve o.backupDir) backupId ∧
      b.Stands (touchedFiles o candidates) d₀ := by
  have hd₀ : backedUp means o backupId now candidates disk = d₀ := by rw [backedUp, h]
  have stands := Backup.stands_of_create new h (hd₀ ▸ differ) (hd₀ ▸ faithful)
  obtain ⟨⟨files, rfl⟩, -⟩ := Backup.create_eq_ok new h
  exact ⟨hd₀, rfl, stands⟩

/-- A run on one file, with checks that change nothing. -/
theorem RunAssumptions.of_single {path : String} {content : Bytes}
    (hfiles : ∀ p ∈ touchedFiles o candidates, p = path)
    (new : IsNewName backupId (touchedFiles o candidates) disk)
    (hread : disk.readFile path = .ok content) (small : content.length < 2 ^ 64)
    (hmeans : env.means.compress = Zstd.encode)
    (hkeeps : ∀ s d, (env.validate s d).2.2 = d) :
    RunAssumptions env o backupId now candidates disk := by
  have hspares : ∀ p, env.Spares p := fun p s d l c m hfind => by rwa [hkeeps]
  have hlater : ∀ {p c}, p ∈ touchedFiles o candidates →
      (backedUp env.means o backupId now candidates disk).readFile p = .ok c → content = c := by
    intro p c hp hc
    rw [hfiles p hp, readFile_backedUp new hread] at hc
    exact Except.ok.inj hc
  refine ⟨new, fun p _ => hspares p, fun c => hspares _, fun p hp q hq l _ _ => ?_, ?_, ?_⟩
  · rw [hfiles p hp, hfiles q hq]
  · intro p hp q hq c c' hc hc' _
    exact (hlater hp hc).symm.trans (hlater hq hc')
  · refine BackupMeans.faithful_of_small hmeans fun p hp c hc => ?_
    rwa [← hlater hp hc]

/-- What a backup that was made is to the run. -/
theorem RunAssumptions.groundwork (h : RunAssumptions env o backupId now candidates s.disk)
    {b : Backup} {d₀ : Disk}
    (hmade : makeBackup env.means o backupId now candidates s.disk = (.ok b, d₀)) :
    b.dir = Path.join (o.resolve o.backupDir) backupId ∧
      Groundwork b (touchedFiles o candidates) d₀ := by
  obtain ⟨hd₀, hdir, stands⟩ := stands_backedUp hmade h.new h.differ h.faithful
  exact ⟨hdir, stands, hd₀ ▸ h.apart⟩

theorem RunAssumptions.sound_prepare (h : RunAssumptions env o backupId now candidates s.disk)
    (hcommitted : s.committed = []) (hbatches : s.outcome.batches = []) {b : Backup} {d₀ : Disk}
    (hmade : makeBackup env.means o backupId now candidates s.disk = (.ok b, d₀)) :
    ∃ s₀, prepare env o backupId now candidates s =
        (.ok ⟨o, b, (env.validate s.outer d₀).1⟩, s₀) ∧
      s₀.Sound b (touchedFiles o candidates) d₀ ∧ s₀.Tallies o [] := by
  obtain ⟨hdir, g⟩ := h.groundwork hmade
  have hstart : Derived b (touchedFiles o candidates) d₀ (Removals.of []) d₀ :=
    ⟨fun p hp l c m hfind => ⟨m, by simpa using hfind⟩, g.holds⟩
  refine ⟨_, prepare_of_ok hmade, ⟨?_, ?_⟩, ⟨?_, ?_⟩⟩
  · simpa [hcommitted] using hstart.validate s.outer h.spares (hdir ▸ h.sparesBlobs)
  · simp [hcommitted, Fits]
  · simp [hbatches]
  · simp [hcommitted, hbatches, keptCandidates, rangesIn]

/-- The states of a run with a backup are sound, and their results account for what is committed. -/
theorem RunAssumptions.sound_executeStates
    (h : RunAssumptions env o backupId now candidates s.disk) (hcommitted : s.committed = [])
    (hbatches : s.outcome.batches = []) {b : Backup} {d₀ : Disk}
    (hmade : makeBackup env.means o backupId now candidates s.disk = (.ok b, d₀)) :
    (∀ t ∈ executeStates env o backupId now candidates s, t.Sound b (touchedFiles o candidates) d₀ ∧
        ∃ done, done <+: batches o.maxPerBatch candidates ∧ t.Tallies o done) ∧
      (executeStates env o backupId now candidates s).IsChain (FollowsBatch env) := by
  obtain ⟨hdir, g⟩ := h.groundwork hmade
  obtain ⟨s₀, hprepare, hsound, htallies⟩ := h.sound_prepare hcommitted hbatches hmade
  have hblobs : env.SparesBlobs b.dir := hdir ▸ h.sparesBlobs
  generalize hplan : RunPlan.mk o b (env.validate s.outer d₀).1 = plan at hprepare
  have hoptions : plan.options = o := hplan ▸ rfl
  have hbackup : plan.backup = b := hplan ▸ rfl
  subst hoptions hbackup
  rw [executeStates_of_prepare hprepare]
  exact g.sound_batchStates h.spares hblobs hsound htallies
    (fun batch hbatch p hp => mem_touchedFiles hbatch hp) 0

theorem RunAssumptions.showsDeletions_executeStates
    (h : RunAssumptions env o backupId now candidates s.disk) (hcommitted : s.committed = [])
    (hbatches : s.outcome.batches = []) :
    (∀ t ∈ executeStates env o backupId now candidates s,
        ShowsDeletions o candidates s.disk t.outcome.batches t.disk) ∧
      (executeStates env o backupId now candidates s).IsChain (FollowsBatch env) := by
  have hbefore : ∀ results after,
      ShowsDeletions o candidates (backedUp env.means o backupId now candidates s.disk) results
        after → ShowsDeletions o candidates s.disk results after :=
    fun results after hshows p hp c hc => hshows p hp c (readFile_backedUp h.new hc)
  cases hattempt : attempt env.means o backupId now candidates s.disk with
  | error f =>
    rw [executeStates_of_error (makeBackup_of_attempt hattempt)]
    refine ⟨fun t ht => ?_, .singleton _⟩
    obtain rfl := List.mem_singleton.mp ht
    refine hbefore _ _ fun p hp c hc => ?_
    simpa [hbatches, keptCandidates, rangesIn] using hc
  | ok b =>
    obtain ⟨hall, hchain⟩ :=
      h.sound_executeStates hcommitted hbatches (makeBackup_of_attempt hattempt)
    refine ⟨fun t ht => ?_, hchain⟩
    obtain ⟨hsound, done, hdone, htallies⟩ := hall t ht
    exact hbefore _ _ (hsound.showsDeletions htallies hdone)

/-- A run ends on the disk of its last state, and then only reports what was skipped. -/
theorem execute_eq_last (env : Surroundings σ R) (o : PruneOptions R) (backupId : String)
    (now : Timestamp) (candidates : List (Candidate R)) (s : RunState σ R) :
    ∃ last, (executeStates env o backupId now candidates s).getLast? = some last ∧
      (execute env o backupId now candidates s).2.disk = last.disk ∧
      ∃ skipped : List BatchOutcome, (∀ r ∈ skipped, r.status = .skipped) ∧
        (execute env o backupId now candidates s).2.outcome.batches =
          last.outcome.batches ++ skipped := by
  unfold executeStates execute
  generalize prepare env o backupId now candidates s = r
  obtain ⟨f | plan, s'⟩ := r
  · exact ⟨s', rfl, rfl, [], by simp, by simp⟩
  · exact runBatches_eq_last env plan 0 (batches o.maxPerBatch candidates) s'

end Preparation

end Invariant

/-! ## Whole runs -/

/-- How the batches of a run ended. -/
def RunEnd.results (e : RunEnd σ R) : List BatchOutcome :=
  (e.outcome.map (·.batches)).getD []

/-- Nothing is changed before the first deletion. -/
theorem startRun_cases (env : Surroundings σ Float) (o : PruneOptions Float)
    (fs : List FunctionRecord) (edges : List (CallEdge Float))
    (protector : Option (FunctionRecord → Evidence Float)) (outer : σ) (disk : Disk) :
    (∃ ended, startRun env o fs edges protector outer disk = .error ended ∧ ended.disk = disk ∧
        ended.results = []) ∨
      ∃ s, startRun env o fs edges protector outer disk = .ok s ∧ s.disk = disk ∧
        s.committed = [] ∧ s.outcome.batches = [] ∧
        s.outcome.candidates = (select o fs edges protector).candidates := by
  unfold startRun
  cases o.problem? with
  | some p => exact .inl ⟨_, rfl, rfl, rfl⟩
  | none =>
    simp only
    split_ifs
    · exact .inl ⟨_, rfl, rfl, rfl⟩
    · exact .inl ⟨_, rfl, rfl, rfl⟩
    · exact .inl ⟨_, rfl, rfl, rfl⟩
    · exact .inr ⟨_, rfl, rfl, rfl, rfl, rfl⟩

/-- A run that goes on after its start ends where its batches end. -/
theorem prune_of_startRun {env : Surroundings σ Float} {o : PruneOptions Float}
    {fs : List FunctionRecord} {edges : List (CallEdge Float)}
    {protector : Option (FunctionRecord → Evidence Float)} {outer : σ} {disk : Disk}
    {s : RunState σ Float} (h : startRun env o fs edges protector outer disk = .ok s)
    (backupId : String) (now : Timestamp) :
    let ended := prune env o backupId now fs edges protector outer disk
    let last := (execute env o backupId now s.outcome.candidates s).2
    ended.outcome = some last.outcome ∧ ended.disk = last.disk := by
  unfold prune
  rw [h]
  dsimp only
  generalize execute env o backupId now s.outcome.candidates s = r
  exact ⟨rfl, rfl⟩

/-! ## Two functions that share a line -/

namespace Overlap

/-- Three lines. -/
def content : Bytes := [97, 10, 98, 10, 99, 10]

def place : Location := ["work", "a.go"]

def disk : Disk := { nodes := [(place, .file content 0o644)] }

def setup : FunctionRecord :=
  { id := "f", name := "setup", filePath := "a.go", startLine := 1, endLine := 2 }

def helper : FunctionRecord :=
  { id := "g", name := "helper", filePath := "a.go", startLine := 2, endLine := 3 }

/-- A callback within the set-up. -/
def onReady : FunctionRecord :=
  { id := "h", name := "onReady", filePath := "a.go", startLine := 2, endLine := 2 }

/-- A callback within the helper. -/
def onClose : FunctionRecord :=
  { id := "i", name := "onClose", filePath := "a.go", startLine := 3, endLine := 3 }

def functions : List FunctionRecord := [setup, helper, onReady, onClose]

def options : PruneOptions Float := { execute := true, maxPerBatch := 1 }

/-- Tests pass on all lines, and on the last line alone. -/
def judge (contents : List (Option Bytes)) : Verdict :=
  ⟨true, contents = [some content] || contents = [some [99, 10]], true⟩

def env : Surroundings Unit Float :=
  { validate := fun s d => (judge [d.contentAt place], s, d) }

def candidates : List (Candidate Float) :=
  [candidateFor [] setup .isolated, candidateFor [] helper .isolated]

/-- The end of the run. -/
def ended : RunEnd Unit Float :=
  prune env options "b1" .zero functions [] none () disk

/-- The callbacks are entry points, and nothing calls the other functions. -/
theorem select_candidates : (select options functions [] none).candidates = candidates := by
  have hroots : IsRoot options functions onReady.id ∧ IsRoot options functions onClose.id ∧
      ¬ IsRoot options functions setup.id ∧ ¬ IsRoot options functions helper.id := by
    simp only [IsRoot]
    decide +kernel
  have hmem : ∀ c, c ∈ pendingCandidates options functions [] ↔ c ∈ candidates := by
    intro c
    rw [mem_pendingCandidates_of_no_calls]
    constructor
    · rintro ⟨hfind, hroot, -, -, hc⟩
      have hfunction : c.function = setup ∨ c.function = helper := by
        rcases List.mem_cons.mp (List.mem_of_find?_eq_some hfind) with h | h
        · exact .inl h
        rcases List.mem_cons.mp h with h | h
        · exact .inr h
        rcases List.mem_pair.mp h with h | h
        · exact absurd hroots.1 (h ▸ hroot)
        · exact absurd hroots.2.1 (h ▸ hroot)
      rcases hfunction with h | h <;> rw [hc, h] <;> simp [candidates]
    · intro hc
      rcases List.mem_pair.mp hc with rfl | rfl
      · refine ⟨rfl, hroots.2.2.1, ?_, by decide +kernel, rfl⟩
        rw [← isKept_iff]
        decide +kernel
      · refine ⟨rfl, hroots.2.2.2, ?_, by decide +kernel, rfl⟩
        rw [← isKept_iff]
        decide +kernel
  have hpairwise : candidates.Pairwise Candidate.Precedes :=
    List.pairwise_pair.mpr (.inr ⟨rfl, .inl (by decide)⟩)
  refine select_candidates_of_mem hpairwise fun c => ?_
  rw [mem_select_candidates, hmem]
  simp

theorem touchedFiles_eq : touchedFiles options candidates = ["a.go", "a.go"] := by
  decide +kernel

theorem readFile_eq : disk.readFile "a.go" = .ok content :=
  rfl

theorem runAssumptions : RunAssumptions env options "b1" .zero candidates disk := by
  refine .of_single (by simp [touchedFiles_eq]) ?_ readFile_eq (by decide) rfl fun _ _ => rfl
  rw [touchedFiles_eq]
  exact .of_unused (by decide) (by decide) (by decide) (by decide)

/-- The file can be backed up. -/
theorem exists_makeBackup :
    ∃ b d₀, makeBackup {} options "b1" .zero candidates disk = (.ok b, d₀) := by
  have hok :
      (Backup.create {} "b1" .zero ".funcqc/backups" "" ["f", "g"] ["a.go"] disk).1.isOk := by
    decide +kernel
  have hsame : makeBackup {} options "b1" .zero candidates disk =
      Backup.create {} "b1" .zero ".funcqc/backups" "" ["f", "g"] ["a.go"] disk := by
    rw [makeBackup, touchedFiles_eq]
    exact Backup.create_congr (distinctTexts_congr (by simp)) _ _ _ _ _ _ _
  rw [hsame]
  generalize Backup.create _ _ _ _ _ _ _ _ = made at hok ⊢
  obtain ⟨_ | b, d₀⟩ := made
  · simp [Except.isOk, Except.toBool] at hok
  · exact ⟨b, d₀, rfl⟩

section Batches

variable {plan : RunPlan Float} {d₀ : Disk} {s : RunState Unit Float}

theorem resolve_eq : options.resolve "a.go" = "a.go" := by
  decide +kernel

theorem batchFiles_eq {f : FunctionRecord} (hfile : f.filePath = "a.go") :
    batchFiles options [candidateFor [] f .isolated] = ["a.go"] := by
  have hone : distinctTexts ["a.go"] = ["a.go"] := by decide +kernel
  simpa [batchFiles, candidateFor, hfile, resolve_eq] using hone

theorem rangesIn_eq {f : FunctionRecord} (hfile : f.filePath = "a.go") :
    rangesIn options [candidateFor [] f .isolated] "a.go" = [f.range] := by
  simp [rangesIn, candidateFor, hfile, resolve_eq]

/-- A function stays deleted if the tests pass without its lines and those that are gone. -/
def statusAfter (gone : List LineRange) (f : FunctionRecord) : BatchStatus :=
  if (judge [some (linesOutside content (gone ++ [f.range]))]).isWorseThan (judge [some content])
  then .rolledBack else .committed

theorem status_runBatch (g : Groundwork plan.backup ["a.go", "a.go"] d₀)
    (hs : s.Sound plan.backup ["a.go", "a.go"] d₀) (hoptions : plan.options = options)
    (hbaseline : plan.baseline = judge [some content])
    (hfind : d₀.find "a.go" = .ok (place, .file content 0o644)) {f : FunctionRecord}
    (hfile : f.filePath = "a.go") (hfits : f.range.fits 3) (index : Nat) :
    (runBatch env plan index [candidateFor [] f .isolated] s).1.status =
      statusAfter (s.committed.of "a.go") f := by
  have hfiles := batchFiles_eq hfile
  have hranges := rangesIn_eq hfile
  rw [← hoptions] at hfiles hranges
  have hbatch : ∀ p ∈ batchFiles plan.options [candidateFor [] f .isolated],
      p ∈ ["a.go", "a.go"] := by simp [hfiles]
  have hdelete : s.CanDelete d₀ plan [candidateFor [] f .isolated] := by
    refine g.canDelete hs hbatch (fun p hp => ?_) fun _ _ => rfl
    obtain rfl : p = "a.go" := by simpa using hp
    decide
  have hfitting : ∀ p ∈ batchFiles plan.options [candidateFor [] f .isolated],
      Fits d₀ p (s.committed.of p) := fun p hp => hs.fits p (hbatch p hp)
  have hwithin : ∀ c ∈ [candidateFor [] f .isolated], c.IsWithin plan.options d₀ := by
    intro c hc
    obtain rfl := List.mem_singleton.mp hc
    refine ⟨content, ?_, LineRange.fits_iff.mp hfits⟩
    show d₀.readFile (plan.options.resolve f.filePath) = _
    rw [hoptions, hfile, resolve_eq]
    exact Disk.readFile_of_find hfind
  obtain ⟨m, hwritten⟩ := g.find_writeBatch hs hbatch
    ((hdelete.writeBatch_iff hfitting).mpr hwithin) (by simp [hfiles]) hfind
  rw [hranges] at hwritten
  have hchecked : (checkBatch env plan [candidateFor [] f .isolated] s).1 =
      judge [some (linesOutside content (s.committed.of "a.go" ++ [f.range]))] := by
    simp only [checkBatch, env, Disk.contentAt_of_file (Disk.find_eq_ok.mp hwritten).2]
  have hkept :
      (runBatch env plan index [candidateFor [] f .isolated] s).1.status = .committed ↔ _ :=
    hdelete.committed_iff hfitting index
  rw [hchecked, hbaseline] at hkept
  unfold statusAfter
  split_ifs with hworse
  · refine (runBatch_status env plan index _ s).resolve_left fun h => ?_
    simp [hworse] at hkept
    exact hkept h
  · exact hkept.mpr ⟨hwithin, rfl, Bool.eq_false_iff.mpr hworse⟩

theorem exists_recordBatch (g : Groundwork plan.backup ["a.go", "a.go"] d₀)
    (hs : s.Sound plan.backup ["a.go", "a.go"] d₀) {done : List (List (Candidate Float))}
    (ht : s.Tallies plan.options done) (hblobs : env.SparesBlobs plan.backup.dir)
    (hoptions : plan.options = options) (hbaseline : plan.baseline = judge [some content])
    (hfind : d₀.find "a.go" = .ok (place, .file content 0o644)) {f : FunctionRecord}
    (hfile : f.filePath = "a.go") (hfits : f.range.fits 3) (index : Nat)
    (rest : List (List (Candidate Float))) :
    ∃ result t, runBatches env plan index ([candidateFor [] f .isolated] :: rest) s =
        runBatches env plan (index + 1) rest t ∧
      t.Sound plan.backup ["a.go", "a.go"] d₀ ∧
      t.Tallies plan.options (done ++ [[candidateFor [] f .isolated]]) ∧
      t.outcome.batches = s.outcome.batches ++ [result] ∧
      result.status = statusAfter (s.committed.of "a.go") f := by
  have hbatch : ∀ p ∈ batchFiles plan.options [candidateFor [] f .isolated],
      p ∈ ["a.go", "a.go"] := by simp [hoptions, batchFiles_eq hfile]
  have hstatus := status_runBatch g hs hoptions hbaseline hfind hfile hfits index
  have hspares : ∀ p ∈ ["a.go", "a.go"], env.Spares p := fun _ _ _ _ _ _ _ h => h
  have hstep := g.sound_recordBatch hspares hblobs hs ht hbatch index
  have hresults := batches_recordBatch env plan index [candidateFor [] f .isolated] s
  rw [runBatches, if_neg (by simp [env])]
  generalize runBatch env plan index [candidateFor [] f .isolated] s = r
    at hstatus hstep hresults ⊢
  obtain ⟨result, s'⟩ := r
  obtain ⟨hs', ht', -⟩ := hstep
  exact ⟨result, _, rfl, hs', ht', hresults, hstatus⟩

/-- Without the lines of the first function the tests pass, and without those of both they fail. -/
theorem runBatches_eq (g : Groundwork plan.backup ["a.go", "a.go"] d₀)
    (hs : s.Sound plan.backup ["a.go", "a.go"] d₀) (ht : s.Tallies plan.options [])
    (hblobs : env.SparesBlobs plan.backup.dir) (hoptions : plan.options = options)
    (hbaseline : plan.baseline = judge [some content])
    (hfind : d₀.find "a.go" = .ok (place, .file content 0o644)) {last : RunState Unit Float}
    (hlast : runBatches env plan 0
      [[candidateFor [] setup .isolated], [candidateFor [] helper .isolated]] s = last) :
    last.outcome.batches.map (·.status) = [.committed, .rolledBack] ∧
      ∃ m, last.disk.find "a.go" = .ok (place, .file [99, 10] m) := by
  obtain ⟨first, s₁, hrun₁, hs₁, ht₁, hresults₁, hstatus₁⟩ := exists_recordBatch g hs ht hblobs
    hoptions hbaseline hfind (f := setup) rfl (by decide) 0 [[candidateFor [] helper .isolated]]
  obtain ⟨second, s₂, hrun₂, hs₂, ht₂, hresults₂, hstatus₂⟩ := exists_recordBatch g hs₁ ht₁ hblobs
    hoptions hbaseline hfind (f := helper) rfl (by decide) 1 []
  rw [hrun₁, hrun₂, runBatches] at hlast
  subst hlast
  have hnone : s.outcome.batches = [] := List.eq_nil_of_length_eq_zero ht.count
  rw [hnone, List.nil_append] at hresults₁
  have hkept : first.status = .committed := by
    rw [hstatus₁, ht.ranges, hnone]
    show statusAfter [] setup = _
    decide +kernel
  have hgone : s₁.committed.of "a.go" = [setup.range] := by
    rw [ht₁.ranges, hresults₁, hoptions, ← rangesIn_eq (f := setup) rfl]
    simp [keptCandidates, hkept]
  have hundone : second.status = .rolledBack := by
    rw [hstatus₂, hgone]
    decide +kernel
  have hends : s₂.committed.of "a.go" = [setup.range] := by
    rw [ht₂.ranges, hresults₂, hresults₁, hoptions, ← rangesIn_eq (f := setup) rfl]
    simp [keptCandidates, hkept, hundone]
  obtain ⟨m, hafter⟩ := hs₂.derived.file "a.go" (by simp) place content 0o644 hfind
  have hleft : linesOutside content [setup.range] = [99, 10] := by decide +kernel
  rw [hends, hleft] at hafter
  exact ⟨by simp [hresults₂, hresults₁, hkept, hundone], m, hafter⟩

end Batches

theorem batches_eq : batches options.maxPerBatch candidates =
    [[candidateFor [] setup .isolated], [candidateFor [] helper .isolated]] := by
  simp [batches, groupsOf, candidates, options]

theorem execute_eq {s : RunState Unit Float} (hdisk : s.disk = disk) (hcommitted : s.committed = [])
    (hbatches : s.outcome.batches = []) {last : RunState Unit Float}
    (hlast : (execute env options "b1" .zero candidates s).2 = last) :
    last.outcome.batches.map (·.status) = [.committed, .rolledBack] ∧
      ∃ m, last.disk.find "a.go" = .ok (place, .file [99, 10] m) := by
  obtain ⟨b, d₀, hmade⟩ := exists_makeBackup
  rw [← hdisk] at hmade
  have assumed := runAssumptions
  rw [← hdisk] at assumed
  obtain ⟨hdir, g⟩ := assumed.groundwork hmade
  obtain ⟨s₀, hprepare, hs₀, ht₀⟩ := assumed.sound_prepare hcommitted hbatches hmade
  have hfind : d₀.find "a.go" = .ok (place, .file content 0o644) := by
    have hbefore : s.disk.find "a.go" = .ok (place, .file content 0o644) := hdisk ▸ rfl
    have hafter : (backedUp {} options "b1" .zero candidates s.disk).find "a.go" = _ :=
      find_backedUp assumed.new hbefore
    rwa [backedUp, hmade] at hafter
  have hbaseline : (env.validate s.outer d₀).1 = judge [some content] := by
    simp only [env, Disk.contentAt_of_file (Disk.find_eq_ok.mp hfind).2]
  rw [touchedFiles_eq] at g hs₀
  rw [execute_of_prepare hprepare, batches_eq] at hlast
  exact runBatches_eq g hs₀ ht₀ (hdir ▸ assumed.sparesBlobs) rfl hbaseline hfind hlast

theorem startRun_eq : ∃ s, startRun env options functions [] none () disk = .ok s ∧
    s.disk = disk ∧ s.committed = [] ∧ s.outcome.batches = [] ∧
    s.outcome.candidates = candidates := by
  have hproblem : options.problem? = none := Option.isNone_iff_eq_none.mp (by decide +kernel)
  have hselected := select_candidates
  unfold startRun
  rw [hproblem]
  generalize select options functions [] none = selection at hselected ⊢
  obtain ⟨_, shielded, warnings, problems⟩ := selection
  subst hselected
  exact ⟨_, rfl, rfl, rfl, rfl, rfl⟩

theorem ended_eq :
    ended.results.map (·.status) = [.committed, .rolledBack] ∧
      ∃ m, ended.disk.find "a.go" = .ok (place, .file [99, 10] m) := by
  obtain ⟨s, hstart, hdisk, hcommitted, hbatches, hcandidates⟩ := startRun_eq
  obtain ⟨hout, hend⟩ := prune_of_startRun hstart "b1" .zero
  obtain ⟨hstatus, hafter⟩ := execute_eq hdisk hcommitted hbatches rfl
  simp only [hcandidates] at hout hend
  rw [ended, RunEnd.results, hout, hend]
  exact ⟨hstatus, hafter⟩

end Overlap

/-- Between its batches and at its end, a run shows exactly the deletions of the batches that were
kept, and a batch that was undone has changed no file that the checks spare. The end is that of the
last state. -/
theorem prune_removes_kept_batches (env : Surroundings σ Float) (o : PruneOptions Float)
    (backupId : String) (now : Timestamp) (fs : List FunctionRecord) (edges : List (CallEdge Float))
    (protector : Option (FunctionRecord → Evidence Float)) (outer : σ) (disk : Disk)
    (assumed : RunAssumptions env o backupId now (select o fs edges protector).candidates disk) :
    let candidates := (select o fs edges protector).candidates
    let ended := prune env o backupId now fs edges protector outer disk
    ShowsDeletions o candidates disk ended.results ended.disk ∧
      ∀ s, startRun env o fs edges protector outer disk = .ok s →
        let states := executeStates env o backupId now candidates s
        (∀ t ∈ states, ShowsDeletions o candidates disk t.outcome.batches t.disk) ∧
          states.IsChain (FollowsBatch env) ∧ states.getLast?.map (·.disk) = some ended.disk := by
  simp only
  unfold prune
  rcases startRun_cases env o fs edges protector outer disk with
    ⟨ended, hstart, hdisk, hresults⟩ | ⟨s, hstart, rfl, hcommitted, hbatches, hcandidates⟩
  · simp only [hstart, reduceCtorEq, false_implies, implies_true, and_true]
    intro p hp c hc
    simpa [hdisk, hresults, keptCandidates, rangesIn] using hc
  · obtain ⟨hall, hchain⟩ := assumed.showsDeletions_executeStates hcommitted hbatches
    simp only [hstart, hcandidates, Except.ok.injEq]
    obtain ⟨last, hlast, hdisk, skipped, hskipped, hresults⟩ := execute_eq_last env o backupId now
      (select o fs edges protector).candidates s
    refine ⟨?_, ?_⟩
    · have hshows := hall last (List.mem_of_getLast? hlast)
      intro p hp c hc
      simp only [RunEnd.results, Option.map_some, Option.getD_some]
      rw [hdisk, hresults, keptCandidates_skipped hskipped]
      exact hshows p hp c hc
    · rintro _ rfl
      exact ⟨hall, hchain, by rw [hlast, hdisk]; rfl⟩

/-- Of two functions that share a line, the first is deleted for good, and the second is put
back. -/
theorem prune_removes_kept_batches_overlap :
    RunAssumptions Overlap.env Overlap.options "b1" .zero
        (select Overlap.options Overlap.functions [] none).candidates Overlap.disk ∧
      ShowsDeletions Overlap.options (select Overlap.options Overlap.functions [] none).candidates
        Overlap.disk Overlap.ended.results Overlap.ended.disk ∧
      Overlap.ended.results.map (·.status) = [.committed, .rolledBack] ∧
      Overlap.disk.readFile "a.go" = .ok [97, 10, 98, 10, 99, 10] ∧
      Overlap.ended.disk.readFile "a.go" = .ok [99, 10] := by
  have assumed := Overlap.runAssumptions
  rw [← Overlap.select_candidates] at assumed
  obtain ⟨hshows, -⟩ := prune_removes_kept_batches Overlap.env Overlap.options "b1" .zero
    Overlap.functions [] none () Overlap.disk assumed
  obtain ⟨hstatus, m, hafter⟩ := Overlap.ended_eq
  exact ⟨assumed, hshows, hstatus, rfl, Disk.readFile_of_find hafter⟩

end Deadwood
