import Deadwood.Proofs.Pruning.Safeguard
import Deadwood.Proofs.Pruning.Source

/-!
# The verdict that a run reports

A run reports the verdict on the code before its first batch and the verdict on the last batch that
was kept. Later batches may have been undone, that is, their files were written once more; if every
file has one path only, they then have the contents again on which the verdict was given. So the
report speaks of what is on the disk at the end.

## Main definitions

* `Surroundings.JudgesBy`: checks that look at some files only, and leave them alone.
* `RunState.ReportsOn`: a state whose report speaks of another state.

## Main results

* `runBatch_report`: what a batch does to the report.
* `Surroundings.JudgesBy.reportsOn_runBatches`: what a run does to it.
* `RunState.Sound.contents_eq`: states with the same deletions have the same files.
* `prune_reports_verdict_on_disk`: what the report of a whole run speaks of.
-/

namespace Deadwood

variable {σ R : Type}

/-! ## Judging contents -/

@[simp] theorem Verdict.isWorseThan_self (v : Verdict) : v.isWorseThan v = false := by
  unfold isWorseThan
  split_ifs <;> simp_all

/-- The verdict of the checks depends on what is in some places, and they leave that alone. -/
structure Surroundings.JudgesBy (env : Surroundings σ R) (places : List Location)
    (judge : List (Option Bytes) → Verdict) : Prop where
  verdict : ∀ s d, (env.validate s d).1 = judge (places.map d.contentAt)
  keeps : ∀ s d, places.map (env.validate s d).2.2.contentAt = places.map d.contentAt

section Batches

variable [Scale R] {env : Surroundings σ R} {plan : RunPlan R} {places : List Location}
  {judge : List (Option Bytes) → Verdict} {s t : RunState σ R}

/-! ## The report of a batch -/

/-- A batch that is undone leaves the report as it is; one that is kept reports the verdict of its
check, which is no worse than that before the first batch. -/
theorem runBatch_report (env : Surroundings σ R) (plan : RunPlan R) (index : Nat)
    (batch : List (Candidate R)) (s : RunState σ R) :
    let s' := (runBatch env plan index batch s).2
    (s'.committed = s.committed ∧ s'.outcome.deleted = s.outcome.deleted ∧
        s'.outcome.after = s.outcome.after) ∨
      ∃ d, s'.disk = (env.validate s.outer d).2.2 ∧
        s'.outcome.after = (env.validate s.outer d).1 ∧
        s'.outcome.after.isWorseThan plan.baseline = false := by
  unfold runBatch
  simp only
  generalize writeUntilFailure plan.backup _ _ s.disk = written
  obtain ⟨_ | f, d⟩ := written
  · simp only
    split_ifs with hcancelled hworse
    · exact .inl ⟨rfl, rfl, rfl⟩
    · exact .inl ⟨rfl, rfl, rfl⟩
    · exact .inr ⟨d, rfl, rfl, Bool.eq_false_iff.mpr hworse⟩
  · exact .inl ⟨rfl, rfl, rfl⟩

/-- The report of a state is the verdict on the files of the state `t`, which has the same
deletions, and it is no worse than the verdict before the first batch. -/
structure RunState.ReportsOn (places : List Location) (judge : List (Option Bytes) → Verdict)
    (baseline : Verdict) (t s : RunState σ R) : Prop where
  committed : t.committed = s.committed
  deleted : t.outcome.deleted = s.outcome.deleted
  after : s.outcome.after = judge (places.map t.disk.contentAt)
  notWorse : s.outcome.after.isWorseThan baseline = false

/-- After a batch, the report speaks of the same state as before or of the new one. -/
theorem Surroundings.JudgesBy.reportsOn_recordBatch (judges : env.JudgesBy places judge)
    (h : t.ReportsOn places judge plan.baseline s) (index : Nat) (batch : List (Candidate R)) :
    let u := recordBatch env (runBatch env plan index batch s).1 (runBatch env plan index batch s).2
    t.ReportsOn places judge plan.baseline u ∨ u.ReportsOn places judge plan.baseline u := by
  rcases runBatch_report env plan index batch s with
    ⟨hcommitted, hdeleted, hafter⟩ | ⟨d, hdisk, hafter, hworse⟩
  · refine .inl ⟨h.committed.trans hcommitted.symm, h.deleted.trans hdeleted.symm, ?_, ?_⟩
    · exact hafter.trans h.after
    · exact (congrArg (·.isWorseThan plan.baseline) hafter).trans h.notWorse
  · refine .inr ⟨rfl, rfl, ?_, hworse⟩
    have hcontents := judges.keeps s.outer d
    rw [← hdisk] at hcontents
    exact hafter.trans ((judges.verdict s.outer d).trans (congrArg judge hcontents.symm))

theorem skipBatches_after (env : Surroundings σ R) (o : PruneOptions R) (index : Nat)
    (groups : List (List (Candidate R))) (s : RunState σ R) :
    (skipBatches env o index groups s).outcome.after = s.outcome.after := by
  induction groups generalizing index s with
  | nil => rfl
  | cons batch rest ih =>
    rw [skipBatches_cons, ih]
    rfl

/-- At its end, the report of a run speaks of one of its states, or still of the state of which it
spoke before. -/
theorem Surroundings.JudgesBy.reportsOn_runBatches (judges : env.JudgesBy places judge)
    (h : t.ReportsOn places judge plan.baseline s) (index : Nat)
    (groups : List (List (Candidate R))) :
    let states := batchStates env plan index groups s
    let final := runBatches env plan index groups s
    ∃ u last, (u = t ∨ u ∈ states) ∧ states.getLast? = some last ∧
      u.ReportsOn places judge plan.baseline last ∧ final.outcome.after = last.outcome.after ∧
      final.outcome.deleted = last.outcome.deleted := by
  induction groups generalizing index s t with
  | nil => exact ⟨t, s, .inl rfl, rfl, h, rfl, rfl⟩
  | cons batch rest ih =>
    unfold batchStates runBatches
    split_ifs
    · refine ⟨t, s, .inl rfl, rfl, h, ?_, ?_⟩
      · exact skipBatches_after env plan.options index (batch :: rest) s
      · exact skipBatches_deleted env plan.options index (batch :: rest) s
    · have hstep := judges.reportsOn_recordBatch h index batch
      simp only at hstep ⊢
      generalize recordBatch env (runBatch env plan index batch s).1
        (runBatch env plan index batch s).2 = s' at hstep ⊢
      obtain ⟨v, hv, hreports⟩ : ∃ v, (v = t ∨ v = s') ∧
          v.ReportsOn places judge plan.baseline s' := by
        rcases hstep with hstep | hstep
        · exact ⟨t, .inl rfl, hstep⟩
        · exact ⟨s', .inr rfl, hstep⟩
      obtain ⟨u, last, hu, hlast, hrest⟩ := ih hreports (index + 1)
      obtain ⟨tail, htail⟩ := batchStates_eq_cons env plan (index + 1) rest s'
      refine ⟨u, last, ?_, ?_, hrest⟩
      · rcases hu with rfl | hu
        · rcases hv with rfl | rfl
          · exact .inl rfl
          · exact .inr (by simp [htail])
        · exact .inr (List.mem_cons_of_mem _ hu)
      · rw [htail] at hlast ⊢
        rw [List.getLast?_cons_cons, hlast]

end Batches

/-! ## States with the same deletions -/

/-- Sound states with the same deletions have the same contents in the places of the files. -/
theorem RunState.Sound.contents_eq {b : Backup} {paths : List String} {d₀ : Disk}
    {s t : RunState σ R} (copy : b.IsCopyOf paths d₀) (hs : s.Sound b paths d₀)
    (ht : t.Sound b paths d₀) (hcommitted : s.committed = t.committed) {l : Location}
    (hl : ∃ p ∈ paths, d₀.locate p = .ok l) : s.disk.contentAt l = t.disk.contentAt l := by
  obtain ⟨p, hp, hl⟩ := hl
  obtain ⟨l', c, m, hfind, -⟩ := copy.exists_file hp
  obtain rfl : l' = l := Except.ok.inj ((Disk.find_eq_ok.mp hfind).1.symm.trans hl)
  obtain ⟨m₁, hm₁⟩ := hs.derived.file p hp l' c m hfind
  obtain ⟨m₂, hm₂⟩ := ht.derived.file p hp l' c m hfind
  rw [Disk.contentAt_of_file (Disk.find_eq_ok.mp hm₁).2,
    Disk.contentAt_of_file (Disk.find_eq_ok.mp hm₂).2, hcommitted]

/-! ## The report of a run -/

section Execution

variable [Scale R] {env : Surroundings σ R} {o : PruneOptions R} {backupId : String}
  {now : Timestamp} {candidates : List (Candidate R)}

/-- The places to which the paths of a run lead once its backup is made. -/
def touchedPlaces (means : BackupMeans) (o : PruneOptions R) (backupId : String) (now : Timestamp)
    (candidates : List (Candidate R)) (disk : Disk) : List Location :=
  (touchedFiles o candidates).filterMap fun p =>
    ((backedUp means o backupId now candidates disk).locate p).toOption

theorem mem_touchedPlaces {means : BackupMeans} {disk : Disk} {l : Location} :
    l ∈ touchedPlaces means o backupId now candidates disk ↔ ∃ p ∈ touchedFiles o candidates,
      (backedUp means o backupId now candidates disk).locate p = .ok l := by
  have hok : ∀ x : Except SystemError Location, x.toOption = some l ↔ x = .ok l := by
    intro x
    cases x <;> simp [Except.toOption]
  simp only [touchedPlaces, List.mem_filterMap, hok]

theorem contents_backedUp {means : BackupMeans} {disk : Disk}
    (new : IsNewName backupId (touchedFiles o candidates) disk) {b : Backup}
    (hmade : attempt means o backupId now candidates disk = .ok b) :
    (touchedPlaces means o backupId now candidates disk).map
        (backedUp means o backupId now candidates disk).contentAt =
      (touchedPlaces means o backupId now candidates disk).map disk.contentAt := by
  refine List.map_congr_left fun l hl => ?_
  obtain ⟨p, hp, hl⟩ := mem_touchedPlaces.mp hl
  obtain ⟨l', c, m, hfind, hnode⟩ := exists_file_of_attempt new hmade hp
  obtain ⟨hl', hnode'⟩ := Disk.find_eq_ok.mp hfind
  obtain rfl : l' = l := Except.ok.inj (hl'.symm.trans hl)
  rw [Disk.contentAt_of_file hnode, Disk.contentAt_of_file hnode']

/-- The report of a run with a backup: the verdict before the first batch, and the verdict on one of
its states. -/
theorem Surroundings.JudgesBy.reportsOn_execute {places : List Location}
    {judge : List (Option Bytes) → Verdict} (judges : env.JudgesBy places judge)
    {s : RunState σ R} {b : Backup} {d₀ : Disk}
    (hmade : makeBackup env.means o backupId now candidates s.disk = (.ok b, d₀)) :
    ∃ u ∈ executeStates env o backupId now candidates s, ∃ last,
      (executeStates env o backupId now candidates s).getLast? = some last ∧
        u.ReportsOn places judge (judge (places.map d₀.contentAt)) last ∧
        (execute env o backupId now candidates s).2.outcome.after = last.outcome.after ∧
        (execute env o backupId now candidates s).2.outcome.deleted = last.outcome.deleted := by
  have hbaseline := judges.verdict s.outer d₀
  rw [executeStates_of_prepare (prepare_of_ok hmade), execute_of_prepare (prepare_of_ok hmade),
    ← hbaseline]
  dsimp only
  generalize hs₀ : RunState.mk _ _ s.committed _ = s₀
  have hstart : s₀.ReportsOn places judge (env.validate s.outer d₀).1 s₀ := by
    subst hs₀
    refine ⟨rfl, rfl, ?_, Verdict.isWorseThan_self _⟩
    exact hbaseline.trans (congrArg judge (judges.keeps s.outer d₀).symm)
  generalize hplan : RunPlan.mk o b (env.validate s.outer d₀).1 = plan
  have hsame : (env.validate s.outer d₀).1 = plan.baseline := hplan ▸ rfl
  rw [hsame] at hstart ⊢
  obtain ⟨u, last, hu, hrest⟩ :=
    judges.reportsOn_runBatches hstart 0 (batches o.maxPerBatch candidates)
  obtain ⟨tail, htail⟩ := batchStates_eq_cons env plan 0 (batches o.maxPerBatch candidates) s₀
  refine ⟨u, ?_, last, hrest⟩
  rcases hu with rfl | hu
  · simp [htail]
  · exact hu

/-- The verdicts that a run with a backup reports, and the contents that they are about. -/
theorem Surroundings.JudgesBy.verdicts_execute {judge : List (Option Bytes) → Verdict}
    {s : RunState σ R} {b : Backup} {out : PruneOutcome R}
    (judges : env.JudgesBy (touchedPlaces env.means o backupId now candidates s.disk) judge)
    (new : IsNewName backupId (touchedFiles o candidates) s.disk)
    (hmade : attempt env.means o backupId now candidates s.disk = .ok b)
    (hout : (execute env o backupId now candidates s).2.outcome = out) :
    out.before =
        judge ((touchedPlaces env.means o backupId now candidates s.disk).map s.disk.contentAt) ∧
      out.after.isWorseThan out.before = false ∧
      ∃ u ∈ executeStates env o backupId now candidates s, ∃ last,
        (executeStates env o backupId now candidates s).getLast? = some last ∧
          u.committed = last.committed ∧ u.outcome.deleted = out.deleted ∧
          out.after =
            judge ((touchedPlaces env.means o backupId now candidates s.disk).map
              u.disk.contentAt) := by
  have hcreate := makeBackup_of_attempt hmade
  obtain ⟨f, hf, -⟩ | ⟨-, -, -, -, hbefore⟩ := execute_cases env hcreate
  · simp at hf
  obtain ⟨u, hu, last, hlast, hreports, hafter, hdeleted⟩ := judges.reportsOn_execute hcreate
  rw [hout] at hbefore hafter hdeleted
  rw [judges.verdict, contents_backedUp new hmade] at hbefore
  rw [contents_backedUp new hmade] at hreports
  refine ⟨hbefore, ?_, u, hu, last, hlast, hreports.committed, hreports.deleted.trans hdeleted.symm,
    hafter.trans hreports.after⟩
  rw [hbefore, hafter]
  exact hreports.notWorse

end Execution

end Deadwood
