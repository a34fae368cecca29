import Deadwood.Proofs.Pruning.Batch

/-!
# Whether a batch is kept

A batch writes every file as its captured content without its own ranges and without all ranges that
were committed before. Committed ranges lie within the captured content, for they were once taken
out of it. So they never make a later write fail, whether or not the new ranges overlap them. A
batch is kept or undone for reasons of its own: its functions, its check, and whether the run is
cancelled.

## Main definitions

* `CanWrite`, `CanWriteAll`: writes that can only fail because of their ranges.
* `Candidate.IsWithin`: a function whose lines are lines of its file.
* `checkBatch`: the check of a batch.
* `RunState.CanDelete`: a batch whose files can be written.

## Main results

* `CanWriteAll.writeUntilFailure_iff`: when files are written.
* `Groundwork.find_writeBatch`: what a batch has written when it is checked.
* `RunState.CanDelete.committed_iff`: when a batch is kept.
* `RunState.CanDelete.fitting_runBatch`: committed ranges lie within the files.
-/

namespace Deadwood

open Disk (HasRoom)

variable {σ R : Type}

/-! ## Writing files -/

section Writes

variable {before d : Disk} {b : Backup} {p : String} {ps : List String}
  {rs rs' : List LineRange} {ranges : String → List LineRange}

/-- Ranges that lie within the lines of a file that is there. -/
def LieIn (before : Disk) (p : String) (rs : List LineRange) : Prop :=
  ∃ c, before.readFile p = .ok c ∧ ∀ r ∈ rs, r.fits (lines c).length

theorem LieIn.fits (h : LieIn before p rs) : Fits before p rs := by
  obtain ⟨c, hc, hfits⟩ := h
  intro c' hc'
  obtain rfl : c = c' := Except.ok.inj (hc.symm.trans hc')
  exact hfits

/-- Ranges that fit make no difference. -/
theorem lieIn_append_iff (h : Fits before p rs) :
    LieIn before p (rs ++ rs') ↔ LieIn before p rs' := by
  constructor
  · rintro ⟨c, hc, hfits⟩
    exact ⟨c, hc, fun r hr => hfits r (List.mem_append_right _ hr)⟩
  · rintro ⟨c, hc, hfits⟩
    exact ⟨c, hc, List.forall_mem_append.mpr ⟨h c hc, hfits⟩⟩

/-- A file can be written: the backup still has the content of the file on the disk `before`, and
what is left of it can be stored. -/
def CanWrite (before : Disk) (b : Backup) (p : String) (rs : List LineRange) (d : Disk) : Prop :=
  ∃ c, before.readFile p = .ok c ∧ b.content p d = .ok c ∧
    ∀ kept, removeLines c rs = .ok kept → (d.replaceFile p kept (b.modeOf p)).1 = none

/-- Files can be written one after the other. -/
def CanWriteAll (before : Disk) (b : Backup) (ranges : String → List LineRange) :
    List String → Disk → Prop
  | [], _ => True
  | p :: ps, d => CanWrite before b p (ranges p) d ∧
      ∀ d', writeWithout b p (ranges p) d = (none, d') → CanWriteAll before b ranges ps d'

theorem CanWrite.writeWithout_iff (h : CanWrite before b p rs d) :
    (writeWithout b p rs d).1 = none ↔ LieIn before p rs := by
  obtain ⟨c, hread, hcontent, hstore⟩ := h
  have hlie : LieIn before p rs ↔ ∀ r ∈ rs, r.fits (lines c).length :=
    ⟨fun h => h.fits c hread, fun h => ⟨c, hread, h⟩⟩
  rw [hlie]
  unfold writeWithout
  simp only [hcontent]
  cases hkept : removeLines c rs with
  | error problem =>
    refine iff_of_false (by simp) fun hfits => ?_
    simp [removeLines_eq_ok.mpr ⟨hfits, rfl⟩] at hkept
  | ok kept => exact iff_of_true (hstore kept hkept) (removeLines_eq_ok.mp hkept).1

/-- Files that can be written are written if and only if all ranges lie within them. -/
theorem CanWriteAll.writeUntilFailure_iff (h : CanWriteAll before b ranges ps d) :
    (writeUntilFailure b ranges ps d).1 = none ↔ ∀ p ∈ ps, LieIn before p (ranges p) := by
  induction ps generalizing d with
  | nil => simp [writeUntilFailure]
  | cons p ps ih =>
    obtain ⟨hfirst, hrest⟩ := h
    have hfirst := hfirst.writeWithout_iff
    unfold writeUntilFailure
    rw [List.forall_mem_cons, ← hfirst]
    generalize writeWithout b p (ranges p) d = written at hrest ⊢
    obtain ⟨_ | f, d'⟩ := written
    · simpa using ih (hrest d' rfl)
    · simp

/-- On a disk whose files are derived from the backup, every file with room can be written. -/
theorem Groundwork.canWriteAll {paths : List String} {d₀ : Disk} (g : Groundwork b paths d₀)
    (hd : Derived b paths d₀ ranges d) (hps : ∀ p ∈ ps, p ∈ paths) (room : ∀ p ∈ ps, HasRoom p)
    (hsame : ∀ p ∈ paths, before.readFile p = d₀.readFile p) (new : String → List LineRange) :
    CanWriteAll before b new ps d := by
  induction ps generalizing d ranges with
  | nil => exact trivial
  | cons p ps ih =>
    have hp : p ∈ paths := hps p List.mem_cons_self
    obtain ⟨l, c, m, hfind, -⟩ := g.copy.exists_file hp
    obtain ⟨m₁, hnow⟩ := hd.file p hp l c m hfind
    have hread := Disk.readFile_of_find hfind
    obtain ⟨lb, mb, z, hblob, hz⟩ := hd.blob p hp c hread
    obtain ⟨hloc, hnode⟩ := Disk.find_eq_ok.mp hnow
    refine ⟨⟨c, (hsame p hp).trans hread, ?_, fun kept _ => ?_⟩, fun d' hw => ?_⟩
    · exact g.toStands.content_eq hp hfind (Disk.readFile_of_find hblob) hz
    · obtain ⟨d', hw, -⟩ := Disk.replaceFile_succeeds kept (b.modeOf p) (room p List.mem_cons_self)
        hloc (by simp [hnode])
      simp [hw]
    · rcases g.write hd hp (new p) with ⟨f, d'', hw', -⟩ | ⟨d'', hw', -, -, -, hd'⟩
      · simp [hw] at hw'
      · obtain rfl : d' = d'' := by simpa [hw] using hw'
        exact ih hd' (fun q hq => hps q (List.mem_cons_of_mem _ hq))
          fun q hq => room q (List.mem_cons_of_mem _ hq)

end Writes

/-- What is in the file at a place, if there is a file. -/
def Disk.contentAt (d : Disk) (l : Location) : Option Bytes :=
  match d.node? l with
  | some (.file content _) => some content
  | _ => none

theorem Disk.contentAt_of_file {d : Disk} {l : Location} {c : Bytes} {m : Nat}
    (h : d.node? l = some (.file c m)) : d.contentAt l = some c := by
  simp [contentAt, h]

/-! ## One batch -/

section Batches

variable [Scale R] {env : Surroundings σ R} {plan : RunPlan R} {o : PruneOptions R}
  {batch : List (Candidate R)} {before : Disk} {s t : RunState σ R}

/-- The lines of a function are lines of its file. -/
def Candidate.IsWithin (o : PruneOptions R) (before : Disk) (c : Candidate R) : Prop :=
  ∃ content, before.readFile (o.resolve c.function.filePath) = .ok content ∧
    1 ≤ c.function.startLine ∧ c.function.startLine ≤ c.function.endLine ∧
    c.function.endLine ≤ (lines content).length

theorem forall_lieIn_rangesIn :
    (∀ p ∈ batchFiles o batch, LieIn before p (rangesIn o batch p)) ↔
      ∀ c ∈ batch, c.IsWithin o before := by
  constructor
  · intro h c hc
    have hfile : o.resolve c.function.filePath ∈ batchFiles o batch :=
      mem_distinctTexts.mpr (List.mem_map_of_mem hc)
    obtain ⟨content, hread, hfits⟩ := h _ hfile
    refine ⟨content, hread, LineRange.fits_iff.mp (hfits c.function.range ?_)⟩
    exact List.mem_map_of_mem (List.mem_filter.mpr ⟨hc, by simp⟩)
  · intro h p hp
    obtain ⟨c, hc, rfl⟩ := List.mem_map.mp (mem_distinctTexts.mp hp)
    obtain ⟨content, hread, -⟩ := h c hc
    refine ⟨content, hread, fun r hr => ?_⟩
    obtain ⟨c', hc', rfl⟩ := List.mem_map.mp hr
    obtain ⟨hmem, hsame⟩ := List.mem_filter.mp hc'
    obtain ⟨content', hread', hwithin⟩ := h c' hmem
    rw [of_decide_eq_true hsame] at hread'
    obtain rfl : content = content' := Except.ok.inj (hread.symm.trans hread')
    exact LineRange.fits_iff.mpr hwithin

/-- What the check of a batch says once its files are written. -/
def checkBatch (env : Surroundings σ R) (plan : RunPlan R) (batch : List (Candidate R))
    (s : RunState σ R) : Verdict × σ × Disk :=
  env.validate s.outer (writeBatch plan batch s).2

/-- A batch is kept if and only if its files are written, the run is not cancelled by then, and the
verdict is not worse than before the first batch. -/
theorem runBatch_committed_iff (env : Surroundings σ R) (plan : RunPlan R) (index : Nat)
    (batch : List (Candidate R)) (s : RunState σ R) :
    (runBatch env plan index batch s).1.status = .committed ↔
      (writeBatch plan batch s).1 = none ∧
        env.isCancelled (checkBatch env plan batch s).2.1 = false ∧
        (checkBatch env plan batch s).1.isWorseThan plan.baseline = false := by
  unfold runBatch checkBatch
  simp only [writeBatch]
  generalize writeUntilFailure plan.backup _ _ s.disk = written
  obtain ⟨_ | f, d⟩ := written
  · simp only
    split_ifs with hcancelled hworse
    · simp [undoBatch, hcancelled]
    · simp [undoBatch, hworse]
    · simp [keepBatch, hcancelled, hworse]
  · simp [undoBatch]

theorem runBatch_status (env : Surroundings σ R) (plan : RunPlan R) (index : Nat)
    (batch : List (Candidate R)) (s : RunState σ R) :
    (runBatch env plan index batch s).1.status = .committed ∨
      (runBatch env plan index batch s).1.status = .rolledBack := by
  have hcases := runBatch_cases env plan index batch s
  generalize runBatch env plan index batch s = r at hcases ⊢
  obtain ⟨-, ⟨-, -, hstatus, -⟩ | ⟨-, hstatus, -⟩⟩ := hcases
  · exact .inr hstatus
  · exact .inl hstatus

/-- The files of a batch can be written without its ranges and those that are committed. -/
def RunState.CanDelete (before : Disk) (plan : RunPlan R) (batch : List (Candidate R))
    (s : RunState σ R) : Prop :=
  CanWriteAll before plan.backup
    (fun p => s.committed.of p ++ (batchRemovals plan.options batch).of p)
    (batchFiles plan.options batch) s.disk

/-- A state whose committed ranges lie within the files. -/
def RunState.Fitting (before : Disk) (s : RunState σ R) : Prop :=
  ∀ p, Fits before p (s.committed.of p)

namespace RunState.CanDelete

theorem writeBatch_iff (hwrites : s.CanDelete before plan batch)
    (hs : ∀ p ∈ batchFiles plan.options batch, Fits before p (s.committed.of p)) :
    (writeBatch plan batch s).1 = none ↔ ∀ c ∈ batch, c.IsWithin plan.options before := by
  rw [writeBatch, CanWriteAll.writeUntilFailure_iff hwrites, ← forall_lieIn_rangesIn]
  simp only [of_batchRemovals]
  exact forall₂_congr fun p hp => lieIn_append_iff (hs p hp)

/-- A batch is kept for reasons of its own. -/
theorem committed_iff (hwrites : s.CanDelete before plan batch)
    (hs : ∀ p ∈ batchFiles plan.options batch, Fits before p (s.committed.of p)) (index : Nat) :
    (runBatch env plan index batch s).1.status = .committed ↔
      (∀ c ∈ batch, c.IsWithin plan.options before) ∧
        env.isCancelled (checkBatch env plan batch s).2.1 = false ∧
        (checkBatch env plan batch s).1.isWorseThan plan.baseline = false := by
  rw [runBatch_committed_iff, hwrites.writeBatch_iff hs]

/-- A batch ends in the same way in two states in which its check says the same, whatever is
committed in them. -/
theorem status_eq (hwrites : s.CanDelete before plan batch) (hs : s.Fitting before)
    (hwrites' : t.CanDelete before plan batch) (ht : t.Fitting before)
    (hcancelled : env.isCancelled (checkBatch env plan batch t).2.1 =
      env.isCancelled (checkBatch env plan batch s).2.1)
    (hworse : (checkBatch env plan batch t).1.isWorseThan plan.baseline =
      (checkBatch env plan batch s).1.isWorseThan plan.baseline) (index : Nat) :
    (runBatch env plan index batch t).1.status = (runBatch env plan index batch s).1.status := by
  have hsame : (runBatch env plan index batch t).1.status = .committed ↔
      (runBatch env plan index batch s).1.status = .committed := by
    rw [hwrites.committed_iff fun p _ => hs p, hwrites'.committed_iff fun p _ => ht p, hcancelled,
      hworse]
  rcases runBatch_status env plan index batch s with hs' | hs' <;>
    rcases runBatch_status env plan index batch t with ht' | ht' <;> simp_all

/-- Only ranges within the files get committed. -/
theorem fitting_runBatch (hwrites : s.CanDelete before plan batch) (hs : s.Fitting before)
    (env : Surroundings σ R) (index : Nat) :
    (runBatch env plan index batch s).2.Fitting before := by
  have hcases := runBatch_cases env plan index batch s
  have hwritten : (writeBatch plan batch s).1 = none ↔ _ := hwrites.writeUntilFailure_iff
  generalize runBatch env plan index batch s = r at hcases ⊢
  generalize writeBatch plan batch s = written at hcases hwritten
  obtain ⟨-, ⟨-, -, -, hcommitted, -⟩ | ⟨hnone, -, -, hcommitted⟩⟩ := hcases
  · rw [RunState.Fitting, hcommitted]
    exact hs
  · intro p
    rw [hcommitted, of_foldl_batchRemovals]
    by_cases hp : p ∈ batchFiles plan.options batch
    · have hlie := hwritten.mp hnone p hp
      rw [of_batchRemovals] at hlie
      exact hlie.fits
    · rw [rangesIn_eq_nil hp, List.append_nil]
      exact hs p

end RunState.CanDelete

section Sound

variable {paths : List String} {d₀ : Disk}

theorem Groundwork.canDelete (g : Groundwork plan.backup paths d₀)
    (hs : s.Sound plan.backup paths d₀) (hbatch : ∀ p ∈ batchFiles plan.options batch, p ∈ paths)
    (room : ∀ p ∈ paths, HasRoom p)
    (hsame : ∀ p ∈ paths, before.readFile p = d₀.readFile p) : s.CanDelete before plan batch :=
  g.canWriteAll hs.derived hbatch (fun p hp => room p (hbatch p hp)) hsame _

/-- A batch that could be written is checked on its captured files without its own ranges and those
that are committed. -/
theorem Groundwork.find_writeBatch (g : Groundwork plan.backup paths d₀)
    (hs : s.Sound plan.backup paths d₀) (hbatch : ∀ p ∈ batchFiles plan.options batch, p ∈ paths)
    (hok : (writeBatch plan batch s).1 = none) {p : String} (hp : p ∈ batchFiles plan.options batch)
    {l : Location} {c : Bytes} {m : Nat} (hfind : d₀.find p = .ok (l, .file c m)) :
    ∃ m', (writeBatch plan batch s).2.find p =
      .ok (l, .file (linesOutside c (s.committed.of p ++ rangesIn plan.options batch p)) m') := by
  obtain ⟨ranges, hwritten, -, -, hnew⟩ := g.derived_writeUntilFailure hs.derived hbatch
    fun p => s.committed.of p ++ (batchRemovals plan.options batch).of p
  obtain ⟨m', hm'⟩ := hwritten.file p (hbatch p hp) l c m hfind
  rw [(hnew hok p hp).1, of_batchRemovals] at hm'
  exact ⟨m', hm'⟩

end Sound

end Batches

end Deadwood
