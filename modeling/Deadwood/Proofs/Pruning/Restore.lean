import Deadwood.Proofs.Backup.Restore
import Deadwood.Proofs.Pruning.Run

/-!
# Going back to before a run

A run writes captured files only, so its backup lasts, and putting the files back undoes the run as
it undoes any other change to them.

## Main results

* `lasts_executeStates`: the backup of a run lasts.
* `restoreDir_returns_captured_files`: a backup and going back to it.
-/

namespace Deadwood

open Backup (DigestsDiffer Lasts Stands Returned IsRoomyPlace)
open Disk (HasRoom)

variable {σ R : Type} {b : Backup} {paths : List String} {d₀ d : Disk}

/-! ## Writes -/

theorem lasts_writeWithout (stands : b.IsApart paths d₀) (lasts : b.Lasts paths d₀ d) {p : String}
    (hp : p ∈ paths) (ranges : List LineRange) :
    b.Lasts paths d₀ (writeWithout b p ranges d).2 := by
  unfold writeWithout
  split
  · exact lasts
  · split
    · exact lasts
    · exact lasts.replaceFile stands hp _ _

theorem lasts_writeUntilFailure (stands : b.IsApart paths d₀) (lasts : b.Lasts paths d₀ d)
    {ps : List String} (hps : ∀ p ∈ ps, p ∈ paths) (ranges : String → List LineRange) :
    b.Lasts paths d₀ (writeUntilFailure b ranges ps d).2 := by
  induction ps generalizing d with
  | nil => exact lasts
  | cons p ps ih =>
    have hfirst := lasts_writeWithout stands lasts (hps p (by simp)) (ranges p)
    unfold writeUntilFailure
    generalize writeWithout b p (ranges p) d = r at hfirst ⊢
    obtain ⟨_ | f, d'⟩ := r
    · exact ih hfirst fun q hq => hps q (by simp [hq])
    · exact hfirst

theorem lasts_writeAll (stands : b.IsApart paths d₀) (lasts : b.Lasts paths d₀ d)
    {ps : List String} (hps : ∀ p ∈ ps, p ∈ paths) (ranges : String → List LineRange) :
    b.Lasts paths d₀ (writeAll b ranges ps d).2 := by
  induction ps generalizing d with
  | nil => exact lasts
  | cons p ps ih =>
    have hfirst := lasts_writeWithout stands lasts (hps p (by simp)) (ranges p)
    exact ih hfirst fun q hq => hps q (by simp [hq])

/-! ## Runs -/

variable [Scale R] {env : Surroundings σ R} {plan : RunPlan R}

/-- The checks of a run keep a backup usable. -/
def Surroundings.Keeps (env : Surroundings σ R) (b : Backup) (paths : List String) (d₀ : Disk) :
    Prop :=
  ∀ outer d, b.Lasts paths d₀ d → b.Lasts paths d₀ (env.validate outer d).2.2

theorem lasts_runBatch (stands : plan.backup.IsApart paths d₀)
    (checks : env.Keeps plan.backup paths d₀) {batch : List (Candidate R)}
    (hbatch : ∀ p ∈ batchFiles plan.options batch, p ∈ paths) {s : RunState σ R}
    (lasts : plan.backup.Lasts paths d₀ s.disk) (index : Nat) :
    plan.backup.Lasts paths d₀ (runBatch env plan index batch s).2.disk := by
  have hwritten : plan.backup.Lasts paths d₀ (writeBatch plan batch s).2 :=
    lasts_writeUntilFailure stands lasts hbatch _
  have hchecked := checks s.outer _ hwritten
  have hcases := runBatch_cases env plan index batch s
  generalize writeBatch plan batch s = written at hwritten hchecked hcases
  generalize runBatch env plan index batch s = r at hcases ⊢
  obtain ⟨-, ⟨d, hd, -, -, hdisk⟩ | ⟨-, -, hdisk, -⟩⟩ := hcases
  · rw [hdisk]
    refine lasts_writeAll stands ?_ hbatch _
    rcases hd with rfl | ⟨-, rfl⟩
    · exact hwritten
    · exact hchecked
  · rw [hdisk]
    exact hchecked

theorem lasts_batchStates (stands : plan.backup.IsApart paths d₀)
    (checks : env.Keeps plan.backup paths d₀) {groups : List (List (Candidate R))}
    (hgroups : ∀ batch ∈ groups, ∀ p ∈ batchFiles plan.options batch, p ∈ paths)
    {s : RunState σ R} (lasts : plan.backup.Lasts paths d₀ s.disk) (index : Nat) :
    ∀ t ∈ batchStates env plan index groups s, plan.backup.Lasts paths d₀ t.disk := by
  induction groups generalizing index s with
  | nil => simpa [batchStates] using lasts
  | cons batch rest ih =>
    unfold batchStates
    split_ifs
    · simpa using lasts
    · have hstep := lasts_runBatch stands checks (hgroups batch (by simp)) lasts index
      simp only
      generalize runBatch env plan index batch s = r at hstep ⊢
      have hrecorded : plan.backup.Lasts paths d₀ (recordBatch env r.1 r.2).disk := hstep
      exact List.forall_mem_cons.mpr
        ⟨lasts, ih (fun g hg => hgroups g (by simp [hg])) hrecorded (index + 1)⟩

theorem lasts_executeStates {o : PruneOptions R} {backupId : String} {now : Timestamp}
    {candidates : List (Candidate R)} {s : RunState σ R}
    (hmade : makeBackup env.means o backupId now candidates s.disk = (.ok b, d₀))
    (stands : b.IsApart (touchedFiles o candidates) d₀)
    (checks : env.Keeps b (touchedFiles o candidates) d₀) :
    ∀ t ∈ executeStates env o backupId now candidates s,
      b.Lasts (touchedFiles o candidates) d₀ t.disk := by
  rw [executeStates_of_prepare (prepare_of_ok hmade)]
  exact @lasts_batchStates _ _ _ _ _ env ⟨o, b, _⟩ stands checks _
    (fun batch hbatch p hp => mem_touchedFiles hbatch hp) _
    (checks s.outer d₀ stands.copy.lasts) 0

/-! ## Going back -/

/-- A backup of existing files can be opened and put back on any later disk on which it lasts. Every
captured file then has its content and permissions again and nothing else is changed, except that a
file stays as it is if there is no room beside it for a temporary file; exactly then putting back
reports a failure. The backup of a run lasts to the end of the run. -/
theorem restoreDir_returns_captured_files {means : BackupMeans} {id : String} {now : Timestamp}
    {root snapshotId : String} {functions paths : List String} {d d₁ : Disk} {b : Backup}
    (new : IsNewName id paths d) (files : ∀ p ∈ paths, ∃ c, d.readFile p = .ok c)
    (differ : DigestsDiffer paths d) (faithful : means.Faithful paths d)
    (small : ∀ p ∈ paths, ∀ c, d.readFile p = .ok c → c.length < Word.bound)
    (made : Backup.create means id now root snapshotId functions paths d = (.ok b, d₁)) :
    (∀ d₂, b.Lasts paths d₁ d₂ →
      Backup.open_ b.dir d₂ = .ok b ∧
        ((Backup.restoreDir b.dir d₂).1 = none ↔ ∀ p ∈ paths, HasRoom p) ∧
        (∀ p ∈ paths, HasRoom p → Returned d p (Backup.restoreDir b.dir d₂).2) ∧
        ∀ l, ¬ IsRoomyPlace d paths l → (Backup.restoreDir b.dir d₂).2.node? l = d₂.node? l) ∧
      ∀ (σ : Type) (env : Surroundings σ Float) (o : PruneOptions Float) (fs : List FunctionRecord)
        (edges : List (CallEdge Float)) (protector : Option (FunctionRecord → Evidence Float))
        (outer : σ) (s : RunState σ Float),
        startRun env o fs edges protector outer d = .ok s →
          root = o.resolve o.backupDir → snapshotId = o.snapshotId →
          functions = s.outcome.candidates.map (·.function.id) →
          paths = touchedFiles o s.outcome.candidates → env.means = means →
          env.Keeps b paths d₁ →
          b.Lasts paths d₁ (prune env o id now fs edges protector outer d).disk := by
  have hframe := Backup.create_frame new means now root snapshotId functions
  rw [made] at hframe
  have hfind : ∀ p l n, d.find p = .ok (l, n) → d₁.find p = .ok (l, n) :=
    fun p l n h => hframe.find h (by simp [(Disk.find_eq_ok.mp h).2])
  have hread : ∀ p ∈ paths, ∀ c, d₁.readFile p = .ok c → d.readFile p = .ok c := by
    intro p hp c hc
    obtain ⟨c', hc'⟩ := files p hp
    obtain ⟨l, m, hfound⟩ := Disk.readFile_eq_ok.mp hc'
    rw [Disk.readFile_of_find (hfind p l _ hfound)] at hc
    rwa [← hc]
  have hplace : ∀ l, IsRoomyPlace d₁ paths l → IsRoomyPlace d paths l := by
    rintro l ⟨p, hp, room, hl⟩
    obtain ⟨c, hc⟩ := files p hp
    obtain ⟨l', m, hfound⟩ := Disk.readFile_eq_ok.mp hc
    have hl' := (Disk.find_eq_ok.mp hfound).1
    obtain rfl : l' = l := Except.ok.inj ((hframe.locate hl').symm.trans hl)
    exact ⟨p, hp, room, hl'⟩
  have small₁ : ∀ p ∈ paths, ∀ c, d₁.readFile p = .ok c → c.length < Word.bound :=
    fun p hp c hc => small p hp c (hread p hp c hc)
  have stands : b.Stands paths d₁ := by
    refine Backup.stands_of_create new made ?_ fun p hp c hc => faithful p hp c (hread p hp c hc)
    exact fun p hp q hq c c' hc hc' => differ p hp q hq c c' (hread p hp c hc) (hread q hq c' hc')
  refine ⟨fun d₂ lasts => ?_, ?_⟩
  · have hopen := Backup.open_eq_ok new made small₁ lasts
    have hpaths : ∀ p, p ∈ b.paths ↔ p ∈ paths := fun p => by
      rw [stands.copy.paths_eq, mem_distinctTexts]
    obtain ⟨hfaults, hrest, hreturned⟩ :=
      stands.restoreEach_spec (fun p hp => (hpaths p).mp hp) lasts
    simp only [Backup.restoreDir, hopen, Backup.restore, List.isEmpty_nil, if_true, true_and]
    refine ⟨?_, fun p hp room l c m h => ?_, fun l hl => ?_⟩
    · simpa [hpaths] using hfaults
    · exact hreturned p ((hpaths p).mpr hp) room l c m (hfind p l _ h)
    · refine hrest.same l fun ⟨p, hp, room, h⟩ => hl (hplace l ⟨p, (hpaths p).mp hp, room, h⟩)
  · rintro σ env o fs edges protector outer s hstart rfl rfl rfl rfl rfl checks
    obtain ⟨ended, h, -⟩ | ⟨s', h, hdisk, -⟩ := startRun_cases env o fs edges protector outer d
    · simp [h] at hstart
    obtain rfl : s' = s := Except.ok.inj (h.symm.trans hstart)
    rw [← hdisk] at made
    obtain ⟨last, hlast, hend, -⟩ :=
      execute_eq_last env o id now s'.outcome.candidates s'
    simp only [prune, hstart, hend]
    exact lasts_executeStates made stands.toIsApart checks last (List.mem_of_getLast? hlast)

/-- A file that is captured twice, and deleted once the backup is made. -/
theorem restoreDir_returns_captured_files_deleted :
    let disk : Disk := { nodes := [(["work", "a.txt"], .file [107, 0, 255] 0o755)] }
    let paths := ["a.txt", "a.txt"]
    IsNewName "b1" paths disk ∧
      ∃ b d₁, Backup.create {} "b1" .zero "backups" "" [] paths disk = (.ok b, d₁) ∧
        (d₁.erase ["work", "a.txt"]).node? ["work", "a.txt"] = none ∧
        (Backup.restoreDir b.dir (d₁.erase ["work", "a.txt"])).1 = none ∧
        (Backup.restoreDir b.dir (d₁.erase ["work", "a.txt"])).2.find "a.txt" =
          .ok (["work", "a.txt"], .file [107, 0, 255] 0o755) := by
  have honce : (Backup.create {} "b1" .zero "backups" "" [] ["a.txt"]
      { nodes := [(["work", "a.txt"], .file [107, 0, 255] 0o755)] }).1.isOk := by decide +kernel
  intro disk paths
  have hfind : disk.find "a.txt" = .ok (["work", "a.txt"], .file [107, 0, 255] 0o755) := rfl
  have new : IsNewName "b1" paths disk :=
    .of_unused (by decide) (by decide) (by decide) (by decide)
  have htwice : distinctTexts paths = distinctTexts ["a.txt"] := by
    simp [paths, distinctTexts, sortedTexts, List.mergeSort, dropRepeats]
  have hmade : (Backup.create {} "b1" .zero "backups" "" [] paths disk).1.isOk := by
    rw [Backup.create_congr htwice]
    exact honce
  have hframe := Backup.create_frame new {} .zero "backups" "" []
  generalize hcreate : Backup.create {} "b1" .zero "backups" "" [] paths disk = r at hmade hframe
  obtain ⟨f | b, d₁⟩ := r
  · simp [Except.isOk, Except.toBool] at hmade
  have hpaths : ∀ p ∈ paths, p = "a.txt" := by decide
  have hnode := (Disk.find_eq_ok.mp hfind).2
  have hfind₁ : d₁.find "a.txt" = .ok (["work", "a.txt"], .file [107, 0, 255] 0o755) :=
    hframe.find hfind (by simp [hnode])
  have hread : ∀ p ∈ paths, disk.readFile p = .ok [107, 0, 255] :=
    fun p hp => hpaths p hp ▸ Disk.readFile_of_find hfind
  have differ : DigestsDiffer paths disk := by
    intro p hp q hq c c' hc hc' _
    rw [hread p hp] at hc
    rw [hread q hq] at hc'
    exact Except.ok.inj (hc.symm.trans hc')
  have small : ∀ p ∈ paths, ∀ c, disk.readFile p = .ok c → c.length < 4 := by
    intro p hp c hc
    rw [hread p hp] at hc
    simp [← Except.ok.inj hc]
  have apart := Backup.isApart_of_create new hcreate
  obtain ⟨hlocate₁, hnode₁⟩ := Disk.find_eq_ok.mp hfind₁
  have herased : (d₁.erase ["work", "a.txt"]).node? ["work", "a.txt"] = none := by
    simp [Disk.node?_erase, Disk.isPrefixOf_eq_false (d := d₁) (l := ["work", "a.txt"])
      (by simp [hnode₁])]
  have lasts : b.Lasts paths d₁ (d₁.erase ["work", "a.txt"]) := by
    refine apart.copy.lasts.frame apart (Disk.frame_erase (by simp [hnode₁])) ?_ ?_ <;>
      rintro _ rfl
    · exact ⟨"a.txt", by decide, hlocate₁⟩
    · simp [herased]
  obtain ⟨hafter, -⟩ := restoreDir_returns_captured_files new
    (fun p hp => ⟨_, hread p hp⟩) differ
    (BackupMeans.faithful_of_small rfl fun p hp c hc => Nat.lt_trans (small p hp c hc) (by decide))
    (fun p hp c hc => Nat.lt_trans (small p hp c hc) (by decide)) hcreate
  obtain ⟨-, hfault, hreturned, -⟩ := hafter _ lasts
  have room : HasRoom "a.txt" := by decide +kernel
  refine ⟨new, b, d₁, rfl, herased, hfault.mpr fun p hp => hpaths p hp ▸ room, ?_⟩
  exact hreturned "a.txt" (by decide) room _ _ _ hfind

end Deadwood
