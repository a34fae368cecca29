import Deadwood.Proofs.Pruning.Account
import Deadwood.Proofs.Pruning.Restore

/-!
# What comes before the first change

A run changes nothing that was there before it has a complete backup. It may end before it tries to
make one, and then the disk is as it was; it may fail to make one, and then all that was there is
still there; otherwise the backup lists every file that a batch can write.

## Main definitions

* `Surroundings.reply`: what the outside says when it is asked.
* `IsRefused`: a run that ends before it tries to make a backup.
* `PruneOutcome.IsIdle`: an outcome of a run that did nothing.
* `PruneOutcome.SameStart`: outcomes that agree on what is known before the first batch.

## Main results

* `startRun_of_isRefused`, `startRun_of_not_isRefused`: whether a run goes on.
* `execute_cases`: what becomes of a run that goes on.
* `prune_changes_nothing_without_backup`: both for a whole run.
-/

namespace Deadwood

variable {σ R : Type}

theorem Path.join_ne_empty {p q : String} (h : q ≠ "") : Path.join p q ≠ "" := by
  unfold Path.join
  split_ifs
  · exact Path.clean_ne_empty q
  · exact Path.clean_ne_empty _

theorem exists_eq_ok {ε α : Type} {x : Except ε α} (h : x.isOk) : ∃ a, x = .ok a := by
  cases x with
  | error e => simp [Except.isOk, Except.toBool] at h
  | ok a => exact ⟨a, rfl⟩

/-! ## Refusals -/

/-- What the outside says when it is asked, and its state then. If it is not asked, it agrees. -/
def Surroundings.reply (env : Surroundings σ R) (candidates : List (Candidate R)) (outer : σ) :
    Bool × σ :=
  match env.confirm with
  | none => (true, outer)
  | some ask => ask candidates outer

/-- A run that was cancelled stays so while the outside is asked. -/
def Surroundings.StaysCancelled (env : Surroundings σ R) : Prop :=
  ∀ candidates s, env.isCancelled s → env.isCancelled (env.reply candidates s).2

/-- A run is refused: an option is not allowed, nothing is to be changed or nothing can be, the
outside does not agree, or the run is cancelled by then. -/
def IsRefused [Scale R] (env : Surroundings σ R) (o : PruneOptions R)
    (candidates : List (Candidate R)) (outer : σ) : Prop :=
  o.problem?.isSome ∨ ¬ o.execute ∨ o.dryRun ∨ candidates = [] ∨
    ¬ (env.reply candidates outer).1 ∨ env.isCancelled (env.reply candidates outer).2

theorem Surroundings.StaysCancelled.isRefused [Scale R] {env : Surroundings σ R}
    (lasting : env.StaysCancelled) {outer : σ} (h : env.isCancelled outer) (o : PruneOptions R)
    (candidates : List (Candidate R)) : IsRefused env o candidates outer := by
  unfold IsRefused
  simp [lasting candidates outer h]

/-- An outcome of a run that did nothing. -/
structure PruneOutcome.IsIdle (out : PruneOutcome R) : Prop where
  executed : out.executed = false
  backupPath : out.backupPath = ""
  batches : out.batches = []
  deleted : out.deleted = []
  skipped : out.skipped = []

section Start

variable (env : Surroundings σ Float) (o : PruneOptions Float) (fs : List FunctionRecord)
  (edges : List (CallEdge Float)) (protector : Option (FunctionRecord → Evidence Float)) (outer : σ)
  (disk : Disk)

/-- What is known of a run once its candidates are selected. -/
def selectionOutcome : PruneOutcome Float :=
  let selection := select o fs edges protector
  { candidates := selection.candidates
    warnings := selection.warnings
      ++ selection.problems.map fun p => "skipped edge: " ++ p.fault.message }

theorem isIdle_selectionOutcome : (selectionOutcome o fs edges protector).IsIdle :=
  ⟨rfl, rfl, rfl, rfl, rfl⟩

/-- The steps of a run whose options are allowed, up to the backup. -/
theorem startRun_of_allowed (hproblem : o.problem? = none) :
    let candidates := (select o fs edges protector).candidates
    let reply := env.reply candidates outer
    let out := selectionOutcome o fs edges protector
    startRun env o fs edges protector outer disk =
      if !o.isExecuting || candidates.isEmpty then
        .error { outcome := some out, outer, disk }
      else if !reply.1 then
        .error
          { outcome := some { out with
              warnings := out.warnings ++ ["deletion not confirmed; nothing was changed"] }
            outer := reply.2, disk }
      else if env.isCancelled reply.2 then
        .error { outcome := some out, fault := some .cancelled, outer := reply.2, disk }
      else .ok { outer := reply.2, disk, outcome := out } := by
  unfold startRun Surroundings.reply
  rw [hproblem]
  cases env.confirm <;> rfl

/-- A run that is refused ends on the disk on which it began. It has no outcome if an option is not
allowed, and otherwise that of a run that did nothing. -/
theorem startRun_of_isRefused
    (h : IsRefused env o (select o fs edges protector).candidates outer) :
    ∃ ended, startRun env o fs edges protector outer disk = .error ended ∧ ended.disk = disk ∧
      (o.problem?.isSome ∧ ended.outcome = none ∨
        o.problem? = none ∧ ∃ out, ended.outcome = some out ∧ out.IsIdle) := by
  cases hproblem : o.problem? with
  | some p =>
    unfold startRun
    rw [hproblem]
    exact ⟨_, rfl, rfl, .inl ⟨rfl, rfl⟩⟩
  | none =>
    have hidle := isIdle_selectionOutcome o fs edges protector
    simp only [startRun_of_allowed env o fs edges protector outer disk hproblem]
    split_ifs
    · exact ⟨_, rfl, rfl, .inr ⟨trivial, _, rfl, hidle⟩⟩
    · exact ⟨_, rfl, rfl, .inr ⟨trivial, _, rfl, ⟨rfl, rfl, rfl, rfl, rfl⟩⟩⟩
    · exact ⟨_, rfl, rfl, .inr ⟨trivial, _, rfl, hidle⟩⟩
    · simp_all [IsRefused, PruneOptions.isExecuting]

/-- A run that is not refused goes on, and has done nothing yet. -/
theorem startRun_of_not_isRefused
    (h : ¬ IsRefused env o (select o fs edges protector).candidates outer) :
    ∃ s, startRun env o fs edges protector outer disk = .ok s ∧ s.disk = disk ∧
      s.committed = [] ∧ s.outcome = selectionOutcome o fs edges protector ∧
      s.outcome.candidates = (select o fs edges protector).candidates := by
  simp only [IsRefused, not_or] at h
  obtain ⟨hproblem, hexecute, hdry, hsome, hreply, hcancelled⟩ := h
  have hallowed : o.problem? = none := by simpa using hproblem
  simp only [startRun_of_allowed env o fs edges protector outer disk hallowed]
  split_ifs
  · simp_all [PruneOptions.isExecuting]
  · simp_all
  · exact ⟨_, rfl, rfl, rfl, rfl, rfl⟩

end Start

/-! ## The backup of a run -/

section Attempt

variable [Scale R] {means : BackupMeans} {o : PruneOptions R} {backupId : String} {now : Timestamp}
  {candidates : List (Candidate R)} {disk : Disk} {b : Backup} {p : String}

/-- Whether or not the backup could be made, what was there is still there. -/
theorem node?_backedUp (new : IsNewName backupId (touchedFiles o candidates) disk)
    {l : Location} {n : DiskNode} (h : disk.node? l = some n) :
    (backedUp means o backupId now candidates disk).node? l = some n := by
  rw [(frame_backedUp new).same l (by simp [h]), h]

/-- If the backup could be made, every path leads to a file that was there before. -/
theorem exists_file_of_attempt (new : IsNewName backupId (touchedFiles o candidates) disk)
    (hmade : attempt means o backupId now candidates disk = .ok b)
    (hp : p ∈ touchedFiles o candidates) :
    ∃ l c m, (backedUp means o backupId now candidates disk).find p = .ok (l, .file c m) ∧
      disk.node? l = some (.file c m) := by
  have hcreate := makeBackup_of_attempt hmade
  obtain ⟨-, -, copy, -⟩ := Backup.create_eq_ok new hcreate
  obtain ⟨l, c, m, hfind, -⟩ := copy.exists_file hp
  obtain ⟨hl, hnode⟩ := Disk.find_eq_ok.mp hfind
  have hwork : backupId ∉ (backedUp means o backupId now candidates disk).workDir := by
    rw [(frame_backedUp new).workDir]
    intro hid
    simpa using new.unused _ hid
  have hid : backupId ∉ l := Disk.not_mem_of_locate hwork (new.unmentioned p hp) hl
  exact ⟨l, c, m, hfind, Backup.file_of_create new hcreate hid hnode⟩

theorem listed_of_attempt (new : IsNewName backupId (touchedFiles o candidates) disk)
    (hmade : attempt means o backupId now candidates disk = .ok b)
    (hp : p ∈ touchedFiles o candidates) : p ∈ b.paths ∧ (b.manifest.file? p).isSome := by
  obtain ⟨-, -, copy, -⟩ := Backup.create_eq_ok new (makeBackup_of_attempt hmade)
  obtain ⟨l, c, m, hfind, -⟩ := copy.exists_file hp
  rw [copy.paths_eq, mem_distinctTexts, copy.file?_eq hp hfind]
  exact ⟨hp, rfl⟩

theorem attempt_of_refused (new : IsNewName backupId (touchedFiles o candidates) disk)
    {step : BackupStep}
    (hstep : step.IsNeeded (Path.join (o.resolve o.backupDir) backupId) (touchedFiles o candidates))
    (hrefused : (means.refused step).isSome) :
    ∃ f, attempt means o backupId now candidates disk = .error f := by
  cases hmade : attempt means o backupId now candidates disk with
  | error f => exact ⟨f, rfl⟩
  | ok b => simp [Backup.granted_of_create new (makeBackup_of_attempt hmade) hstep] at hrefused

end Attempt

/-! ## Whole runs -/

section Whole

variable {env : Surroundings σ Float} {o : PruneOptions Float} {backupId : String} {now : Timestamp}
  {fs : List FunctionRecord} {edges : List (CallEdge Float)}
  {protector : Option (FunctionRecord → Evidence Float)} {outer : σ} {disk : Disk}

theorem prune_of_isRefused
    (h : IsRefused env o (select o fs edges protector).candidates outer) :
    let ended := prune env o backupId now fs edges protector outer disk
    ended.disk = disk ∧ (o.problem?.isSome ∧ ended.outcome = none ∨
      o.problem? = none ∧ ∃ out, ended.outcome = some out ∧ out.IsIdle) := by
  obtain ⟨ended, hstart, hend⟩ := startRun_of_isRefused env o fs edges protector outer disk h
  simp only [prune, hstart]
  exact hend

/-- A run without a backup did nothing. -/
theorem prune_of_attempt_error
    (h : ¬ IsRefused env o (select o fs edges protector).candidates outer) {f : Fault}
    (hmade : attempt env.means o backupId now (select o fs edges protector).candidates disk =
      .error f) :
    let ended := prune env o backupId now fs edges protector outer disk
    ended.outcome = some (selectionOutcome o fs edges protector) ∧
      ended.fault = some (.context "failed to create backup" f) ∧
      ended.disk =
        backedUp env.means o backupId now (select o fs edges protector).candidates disk := by
  obtain ⟨s, hstart, rfl, -, houtcome, hcandidates⟩ :=
    startRun_of_not_isRefused env o fs edges protector outer disk h
  simp only [prune, hstart, hcandidates]
  obtain ⟨f', hf, hexecute⟩ | ⟨b, hb, -⟩ := execute_cases env (makeBackup_of_attempt hmade)
  · obtain rfl : f = f' := Except.error.inj hf
    simp only [hexecute, houtcome, and_self]
  · simp at hb

theorem prune_of_attempt_ok
    (h : ¬ IsRefused env o (select o fs edges protector).candidates outer) {b : Backup}
    (hmade : attempt env.means o backupId now (select o fs edges protector).candidates disk =
      .ok b) :
    ∃ s out, startRun env o fs edges protector outer disk = .ok s ∧
      (prune env o backupId now fs edges protector outer disk).outcome = some out ∧
      out.executed ∧ out.backupPath = b.dir ∧ out.before = (env.validate s.outer
        (backedUp env.means o backupId now (select o fs edges protector).candidates disk)).1 := by
  obtain ⟨s, hstart, rfl, -, houtcome, hcandidates⟩ :=
    startRun_of_not_isRefused env o fs edges protector outer disk h
  simp only [prune, hstart, hcandidates]
  obtain ⟨f, hf, -⟩ | ⟨b', hb, hrun⟩ := execute_cases env (makeBackup_of_attempt hmade)
  · simp at hf
  · obtain rfl : b = b' := Except.ok.inj hb
    exact ⟨s, _, rfl, rfl, hrun⟩

/-- Only a run with a backup is executed; any other did nothing, and left what was there. -/
theorem prune_idle_or_executed
    (new : IsNewName backupId (touchedFiles o (select o fs edges protector).candidates) disk)
    {out : PruneOutcome Float}
    (hout : (prune env o backupId now fs edges protector outer disk).outcome = some out) :
    (out.IsIdle ∧ ∀ l n, disk.node? l = some n →
        (prune env o backupId now fs edges protector outer disk).disk.node? l = some n) ∨
      out.executed ∧ ¬ IsRefused env o (select o fs edges protector).candidates outer ∧
        ∃ b,
          attempt env.means o backupId now (select o fs edges protector).candidates disk = .ok b ∧
          out.backupPath = b.dir := by
  by_cases h : IsRefused env o (select o fs edges protector).candidates outer
  · obtain ⟨hdisk, ⟨-, hnone⟩ | ⟨-, out', hout', hidle⟩⟩ :=
      @prune_of_isRefused _ env o backupId now fs edges protector outer disk h
    · simp [hnone] at hout
    · obtain rfl : out = out' := Option.some.inj (hout.symm.trans hout')
      refine .inl ⟨hidle, fun l n hl => ?_⟩
      rwa [hdisk]
  cases hmade : attempt env.means o backupId now (select o fs edges protector).candidates disk with
  | error f =>
    obtain ⟨hout', -, hdisk⟩ := prune_of_attempt_error h hmade
    obtain rfl : out = _ := Option.some.inj (hout.symm.trans hout')
    refine .inl ⟨isIdle_selectionOutcome o fs edges protector, fun l n hl => ?_⟩
    rw [hdisk]
    exact node?_backedUp new hl
  | ok b =>
    obtain ⟨-, out', -, hout', hexecuted, hpath, -⟩ := prune_of_attempt_ok h hmade
    obtain rfl : out = out' := Option.some.inj (hout.symm.trans hout')
    exact .inr ⟨hexecuted, h, b, rfl, hpath⟩

/-- The backup of a run can be opened at its end if the checks keep it usable. -/
theorem open_backup_of_prune
    (new : IsNewName backupId (touchedFiles o (select o fs edges protector).candidates) disk)
    (small : ∀ p ∈ touchedFiles o (select o fs edges protector).candidates, ∀ c,
      (backedUp env.means o backupId now (select o fs edges protector).candidates disk).readFile p =
        .ok c →
        c.length < Word.bound)
    (h : ¬ IsRefused env o (select o fs edges protector).candidates outer) {b : Backup}
    (hmade : attempt env.means o backupId now (select o fs edges protector).candidates disk = .ok b)
    (checks : env.Keeps b (touchedFiles o (select o fs edges protector).candidates)
      (backedUp env.means o backupId now (select o fs edges protector).candidates disk)) :
    Backup.open_ b.dir (prune env o backupId now fs edges protector outer disk).disk = .ok b := by
  obtain ⟨s, hstart, rfl, -, -, hcandidates⟩ :=
    startRun_of_not_isRefused env o fs edges protector outer disk h
  have hcreate := makeBackup_of_attempt hmade
  obtain ⟨last, hlast, hend, -⟩ :=
    execute_eq_last env o backupId now (select o fs edges protector).candidates s
  have hdisk : (prune env o backupId now fs edges protector outer s.disk).disk = last.disk := by
    simp only [prune, hstart, hcandidates]
    exact hend
  rw [hdisk]
  have lasts := lasts_executeStates hcreate (Backup.isApart_of_create new hcreate) checks last
    (List.mem_of_getLast? hlast)
  exact Backup.open_eq_ok new hcreate small lasts

end Whole

namespace Overlap

/-- The system does not let the file be read. -/
def locked : Surroundings Unit Float :=
  { env with
    means := { refused := fun step => if step = .read "a.go" then some ⟨.denied, []⟩ else none } }

theorem not_isRefused :
    ¬ IsRefused locked options (select options functions [] none).candidates () := by
  have hproblem : options.problem?.isSome = false := by decide +kernel
  rw [IsRefused, hproblem, select_candidates]
  simp [Surroundings.reply, locked, env, options, candidates]

theorem small (means : BackupMeans) :
    ∀ p ∈ touchedFiles options (select options functions [] none).candidates, ∀ c,
      (backedUp means options "b1" .zero (select options functions [] none).candidates
        disk).readFile p = .ok c → c.length < Word.bound := by
  rw [select_candidates]
  intro p hp c hc
  obtain rfl : p = "a.go" := by simpa [touchedFiles_eq] using hp
  have hsame : (backedUp means options "b1" .zero candidates disk).readFile "a.go" = _ :=
    readFile_backedUp runAssumptions.new readFile_eq
  obtain rfl : content = c := Except.ok.inj (hsame.symm.trans hc)
  decide

end Overlap

/-- A run that is refused leaves the disk as it was. A run that is not refused makes a backup, which
fails if one of the paths leads to no file that was there, or if the system refuses one of its
steps, whatever was made by then; then the run does nothing. Unless a run is executed, everything
that was there is still there. Exactly the runs that have a backup are executed, and the backup can
be opened and lists every file of every batch, before the first change and, if the checks keep it
usable, at the end of the run. -/
theorem prune_changes_nothing_without_backup (env : Surroundings σ Float) (o : PruneOptions Float)
    (backupId : String) (now : Timestamp) (fs : List FunctionRecord) (edges : List (CallEdge Float))
    (protector : Option (FunctionRecord → Evidence Float)) (outer : σ) (disk : Disk)
    (lasting : env.StaysCancelled)
    (new : IsNewName backupId (touchedFiles o (select o fs edges protector).candidates) disk)
    (small : ∀ p ∈ touchedFiles o (select o fs edges protector).candidates, ∀ c,
      (backedUp env.means o backupId now (select o fs edges protector).candidates disk).readFile p =
        .ok c →
        c.length < Word.bound) :
    let candidates := (select o fs edges protector).candidates
    let made := attempt env.means o backupId now candidates disk
    let ready := backedUp env.means o backupId now candidates disk
    let ended := prune env o backupId now fs edges protector outer disk
    (IsRefused env o candidates outer ∨ env.isCancelled outer → ended.disk = disk ∧
        (o.problem?.isSome ∧ ended.outcome = none ∨
          o.problem? = none ∧ ∃ out, ended.outcome = some out ∧ out.IsIdle)) ∧
      (¬ IsRefused env o candidates outer → ∀ f, made = .error f →
        ended.fault = some (.context "failed to create backup" f) ∧
          ∃ out, ended.outcome = some out ∧ out.IsIdle) ∧
      ((∃ p ∈ touchedFiles o candidates, ∀ l c m, ready.locate p = .ok l →
        disk.node? l ≠ some (.file c m)) → ∃ f, made = .error f) ∧
      ((∃ step : BackupStep, step.IsNeeded (Path.join (o.resolve o.backupDir) backupId)
        (touchedFiles o candidates) ∧ (env.means.refused step).isSome) → ∃ f, made = .error f) ∧
      ∀ out, ended.outcome = some out →
        (out.executed ↔ out.backupPath ≠ "") ∧
        (¬ out.executed → ∀ l n, disk.node? l = some n → ended.disk.node? l = some n) ∧
        (out.executed → ∃ b, made = .ok b ∧ Backup.open_ out.backupPath ready = .ok b ∧
          (∀ batch ∈ batches o.maxPerBatch candidates, ∀ p ∈ batchFiles o batch,
            p ∈ b.paths ∧ (b.manifest.file? p).isSome) ∧
          (env.Keeps b (touchedFiles o candidates) ready →
            Backup.open_ out.backupPath ended.disk = .ok b)) := by
  intro candidates made ready ended
  refine ⟨fun h => prune_of_isRefused (h.elim id fun h => lasting.isRefused h o candidates),
    fun h f hf => ?_, fun ⟨p, hp, hno⟩ => ?_, ?_, fun out hout => ?_⟩
  · obtain ⟨hout, hfault, -⟩ := prune_of_attempt_error h hf
    exact ⟨hfault, _, hout, isIdle_selectionOutcome o fs edges protector⟩
  · cases hmade : made with
    | error f => exact ⟨f, rfl⟩
    | ok b =>
      obtain ⟨l, c, m, hfind, hnode⟩ := exists_file_of_attempt new hmade hp
      exact absurd hnode (hno l c m (Disk.find_eq_ok.mp hfind).1)
  · rintro ⟨step, hstep, hrefused⟩
    exact attempt_of_refused new hstep hrefused
  · rcases prune_idle_or_executed new hout with
      ⟨hidle, hkept⟩ | ⟨hexecuted, hallowed, b, hmade, hpath⟩
    · refine ⟨by simp [hidle.executed, hidle.backupPath], fun _ => hkept, fun h => ?_⟩
      simp [hidle.executed] at h
    · have hcreate := makeBackup_of_attempt hmade
      obtain ⟨⟨files, hb⟩, -, copy, -⟩ := Backup.create_eq_ok new hcreate
      have hdir : b.dir ≠ "" := by
        rw [hb]
        exact Path.join_ne_empty new.isName.nonempty
      rw [hpath]
      refine ⟨by simp [hexecuted, hdir], fun h => absurd hexecuted h, fun _ => ?_⟩
      refine ⟨b, hmade, Backup.open_eq_ok new hcreate small copy.lasts, ?_, ?_⟩
      · exact fun batch hbatch p hp => listed_of_attempt new hmade (mem_touchedFiles hbatch hp)
      · exact fun checks => open_backup_of_prune new small hallowed hmade checks

/-- The run on two functions that share a line is executed, and its backup lists their file. If the
file cannot be read, the run does nothing, and the file stays as it was. -/
theorem prune_changes_nothing_without_backup_overlap :
    (∃ out b, (prune Overlap.env Overlap.options "b1" .zero Overlap.functions [] none ()
        Overlap.disk).outcome = some out ∧ out.executed ∧
        Backup.open_ out.backupPath (backedUp {} Overlap.options "b1" .zero
          (select Overlap.options Overlap.functions [] none).candidates Overlap.disk) = .ok b ∧
        "a.go" ∈ b.paths) ∧
      ∃ out, (prune Overlap.locked Overlap.options "b1" .zero Overlap.functions [] none ()
        Overlap.disk).outcome = some out ∧ ¬ out.executed ∧
        (prune Overlap.locked Overlap.options "b1" .zero Overlap.functions [] none ()
          Overlap.disk).disk.node? Overlap.place = some (.file Overlap.content 0o644) := by
  have new := Overlap.runAssumptions.new
  rw [← Overlap.select_candidates] at new
  have small := Overlap.small
  constructor
  · obtain ⟨out, hout, hexecuted, -⟩ := Overlap.exists_outcome
    obtain ⟨-, -, -, -, hend⟩ := prune_changes_nothing_without_backup Overlap.env Overlap.options
      "b1" .zero Overlap.functions [] none () Overlap.disk (fun _ _ h => h) new (small {})
    obtain ⟨b, -, hopen, hlisted, -⟩ := (hend out hout).2.2 hexecuted
    refine ⟨out, b, hout, hexecuted, hopen, ?_⟩
    rw [Overlap.select_candidates, Overlap.batches_eq] at hlisted
    refine (hlisted [candidateFor [] Overlap.setup .isolated] (by simp) "a.go" ?_).1
    simp [Overlap.batchFiles_eq (f := Overlap.setup) rfl]
  · obtain ⟨-, hfailed, -, hrefused, hend⟩ := prune_changes_nothing_without_backup Overlap.locked
      Overlap.options "b1" .zero Overlap.functions [] none () Overlap.disk (fun _ _ h => h) new
      (small _)
    have hfile : "a.go" ∈
        touchedFiles Overlap.options
          (select Overlap.options Overlap.functions [] none).candidates := by
      simp [Overlap.select_candidates, Overlap.touchedFiles_eq]
    obtain ⟨f, hf⟩ := hrefused ⟨.read "a.go", .inl ⟨"a.go", hfile, rfl⟩, rfl⟩
    obtain ⟨-, out, hout, hidle⟩ := hfailed Overlap.not_isRefused f hf
    have hnot : ¬ out.executed := by simp [hidle.executed]
    exact ⟨out, hout, hnot, (hend out hout).2.1 hnot _ _ rfl⟩

end Deadwood
