import Deadwood.Pruning.Run
import Deadwood.Proofs.Backup.Create
import Deadwood.Proofs.Pruning.Lines

/-!
# What a batch does to the disk

While a run goes on, every file that it may change is its captured content without some ranges. A
batch writes its files with more ranges; if it is undone, they are written with the ranges of
before. A file whose name leaves no room for a temporary file cannot be written at all, and so needs
no undoing.

## Main definitions

* `rangesIn`: the ranges of functions in one file.
* `Groundwork`: what a run builds on once the backup is made.
* `Derived`: a disk whose files are captured contents without some ranges.
* `Surroundings.Spares`: checks that leave a file alone.

## Main results

* `Backup.Stands.write`, `Groundwork.write`: the effect of one write.
* `Groundwork.derived_writeUntilFailure`, `Groundwork.derived_writeAll`: the effect of many.
* `runBatch_cases`: what a batch does.
* `Groundwork.sound_runBatch`: what it means for the files.
-/

namespace Deadwood

open Backup (Holds blobName DigestsDiffer)
open Disk (HasRoom)

/-! ## Ranges of files -/

section Ranges

variable {R : Type} [Scale R]

/-- The ranges of functions in one file. -/
def rangesIn (o : PruneOptions R) (cs : List (Candidate R)) (path : String) : List LineRange :=
  (cs.filter fun c => o.resolve c.function.filePath = path).map (·.function.range)

namespace Removals

@[simp] theorem of_nil (p : String) : of [] p = [] :=
  rfl

@[simp] theorem of_add (rs : Removals) (p q : String) (ranges : List LineRange) :
    of (add rs q ranges) p = of rs p ++ if p = q then ranges else [] := by
  by_cases h : p = q
  · simp [of, add, h]
  · simp [of, add, h]

theorem of_foldl_add {files : List String} (hnodup : files.Nodup) (g : String → List LineRange)
    (rs : Removals) (p : String) :
    of (files.foldl (fun rs q => add rs q (g q)) rs) p =
      of rs p ++ if p ∈ files then g p else [] := by
  induction files generalizing rs with
  | nil => simp
  | cons q files ih =>
    obtain ⟨hq, hfiles⟩ := List.nodup_cons.mp hnodup
    rw [List.foldl_cons, ih hfiles, of_add]
    by_cases h : p = q
    · subst h
      simp [hq]
    · simp [h]

end Removals

@[simp] theorem of_batchRemovals (o : PruneOptions R) (batch : List (Candidate R)) (p : String) :
    (batchRemovals o batch).of p = rangesIn o batch p := by
  have hfold : ∀ rs : Removals, Removals.of (batch.foldl (fun rs c =>
      Removals.add rs (o.resolve c.function.filePath) [c.function.range]) rs) p =
        rs.of p ++ rangesIn o batch p := by
    induction batch with
    | nil => simp [rangesIn]
    | cons c batch ih =>
      intro rs
      rw [List.foldl_cons, ih, Removals.of_add]
      by_cases h : o.resolve c.function.filePath = p
      · simp [rangesIn, h]
      · simp [rangesIn, h, Ne.symm h]
  simpa [batchRemovals] using hfold []

theorem rangesIn_eq_nil {o : PruneOptions R} {batch : List (Candidate R)} {p : String}
    (h : p ∉ batchFiles o batch) : rangesIn o batch p = [] := by
  simp only [rangesIn, List.map_eq_nil_iff, List.filter_eq_nil_iff, decide_eq_true_eq]
  rintro c hc rfl
  exact h (mem_distinctTexts.mpr (List.mem_map_of_mem hc))

/-- The ranges that are committed once a batch is kept. -/
theorem of_foldl_batchRemovals (o : PruneOptions R) (batch : List (Candidate R)) (rs : Removals)
    (p : String) :
    Removals.of ((batchFiles o batch).foldl (fun rs q =>
      Removals.add rs q ((batchRemovals o batch).of q)) rs) p = rs.of p ++ rangesIn o batch p := by
  have hnodup : (batchFiles o batch).Nodup := nodup_distinctTexts _
  rw [Removals.of_foldl_add hnodup (batchRemovals o batch).of, of_batchRemovals]
  by_cases hp : p ∈ batchFiles o batch
  · simp [hp]
  · simp [hp, rangesIn_eq_nil hp]

@[simp] theorem rangesIn_append (o : PruneOptions R) (cs cs' : List (Candidate R)) (p : String) :
    rangesIn o (cs ++ cs') p = rangesIn o cs p ++ rangesIn o cs' p := by
  simp [rangesIn]

end Ranges

/-! ## Writing files -/

variable {b : Backup} {paths ps : List String} {d₀ d d' : Disk} {p : String}
  {ranges : String → List LineRange}

/-- What a run builds on: a backup that was made on the disk `d₀`, and files that do not get into
each other's way. -/
structure Groundwork (b : Backup) (paths : List String) (d₀ : Disk) : Prop
    extends b.Stands paths d₀ where
  apart : ∀ p ∈ paths, ∀ q ∈ paths, ∀ l, d₀.locate p = .ok l → d₀.locate q = .ok l → p = q

/-- A disk whose files are their contents on `d₀` without some ranges, and that still holds these
contents in the backup. -/
structure Derived (b : Backup) (paths : List String) (d₀ : Disk)
    (ranges : String → List LineRange) (d : Disk) : Prop where
  file : ∀ p ∈ paths, ∀ l c m, d₀.find p = .ok (l, .file c m) →
    ∃ m', d.find p = .ok (l, .file (linesOutside c (ranges p)) m')
  blob : ∀ p ∈ paths, ∀ c, d₀.readFile p = .ok c → Holds b.dir c d

/-- Ranges that lie within the lines of a file. -/
def Fits (d₀ : Disk) (p : String) (rs : List LineRange) : Prop :=
  ∀ c, d₀.readFile p = .ok c → ∀ r ∈ rs, r.fits (lines c).length

/-- A write fails and changes nothing, or succeeds and puts the captured content without the ranges
where the path leads. It succeeds if the ranges fit and there is room. -/
theorem Backup.IsApart.write (stands : b.IsApart paths d₀) (hp : p ∈ paths) {l : Location}
    {c x : Bytes} {m m₁ : Nat} (hfind : d₀.find p = .ok (l, .file c m)) (hblob : Holds b.dir c d)
    (hnow : d.find p = .ok (l, .file x m₁)) (rs : List LineRange) :
    (∃ f d', writeWithout b p rs d = (some f, d') ∧ ¬ (HasRoom p ∧ Fits d₀ p rs) ∧
        Disk.Frame (fun _ => False) d d') ∨
      ∃ d' m', writeWithout b p rs d = (none, d') ∧ HasRoom p ∧ Fits d₀ p rs ∧
        Disk.Frame (· = l) d d' ∧ d'.node? l = some (.file (linesOutside c rs) m') := by
  have hread := Disk.readFile_of_find hfind
  obtain ⟨lb, mb, z, hblob, hz⟩ := hblob
  obtain ⟨hloc, hnode⟩ := Disk.find_eq_ok.mp hnow
  unfold writeWithout
  simp only [stands.content_eq hp hfind (Disk.readFile_of_find hblob) hz]
  cases hkept : removeLines c rs with
  | error problem =>
    refine .inl ⟨_, d, rfl, fun ⟨_, hfits⟩ => ?_, .refl _ d⟩
    have := removeLines_eq_ok.mpr ⟨hfits c hread, rfl⟩
    simp [this] at hkept
  | ok kept =>
    obtain ⟨hfits, rfl⟩ := removeLines_eq_ok.mp hkept
    have hfits' : Fits d₀ p rs := fun c' hc' => by
      obtain rfl : c = c' := by simpa [hread] using hc'
      exact hfits
    simp only
    rcases Disk.replaceFile_cases d p (linesOutside c rs) (b.modeOf p) with
      ⟨f, d', hw, hframe⟩ | ⟨l', d', hw, room, hl', -, hframe, hnode'⟩
    · refine .inl ⟨f, d', hw, fun ⟨room, _⟩ => ?_, hframe⟩
      obtain ⟨d'', hw', -⟩ := Disk.replaceFile_succeeds (linesOutside c rs) (b.modeOf p) room hloc
        (by simp [hnode])
      simp [hw] at hw'
    · obtain rfl : l = l' := by simpa [hloc] using hl'
      exact .inr ⟨d', _, hw, room, hfits', hframe, hnode'⟩

theorem Derived.congr {ranges' : String → List LineRange} (h : Derived b paths d₀ ranges d)
    (heq : ∀ p, ranges p = ranges' p) : Derived b paths d₀ ranges' d := by
  rwa [← funext heq]

/-- Nothing happens to the files of a disk that looks the same. -/
theorem Derived.frame (h : Derived b paths d₀ ranges d)
    (hframe : Disk.Frame (fun _ => False) d d') : Derived b paths d₀ ranges d' := by
  refine ⟨fun p hp l c m hfind => ?_, fun p hp c hc => ?_⟩
  · obtain ⟨m', hm'⟩ := h.file p hp l c m hfind
    exact ⟨m', hframe.find hm' id⟩
  · exact (h.blob p hp c hc).frame hframe fun _ _ => id

namespace Groundwork

/-- After a change at the place of one file, the others are as they were. -/
theorem derived_of_frame (g : Groundwork b paths d₀) (hd : Derived b paths d₀ ranges d)
    (hp : p ∈ paths) {l : Location} {c : Bytes} {m m' : Nat} {rs : List LineRange}
    (h : d₀.find p = .ok (l, .file c m)) (hframe : Disk.Frame (· = l) d d')
    (hnode : d'.node? l = some (.file (linesOutside c rs) m')) :
    Derived b paths d₀ (fun q => if q = p then rs else ranges q) d' := by
  have hl := (Disk.find_eq_ok.mp h).1
  refine ⟨fun q hq lq cq mq hfind => ?_, fun q hq cq hc => ?_⟩
  · obtain ⟨m₁, hm₁⟩ := hd.file q hq lq cq mq hfind
    by_cases hqp : q = p
    · subst hqp
      obtain ⟨rfl, rfl, rfl⟩ : l = lq ∧ c = cq ∧ m = mq := by simpa [h] using hfind
      have hloc := hframe.locate (Disk.find_eq_ok.mp hm₁).1
      exact ⟨m', by simpa using Disk.find_eq_ok.mpr ⟨hloc, hnode⟩⟩
    · have hne : lq ≠ l := fun hlq =>
        hqp (g.apart q hq p hp l (hlq ▸ (Disk.find_eq_ok.mp hfind).1) hl)
      exact ⟨m₁, by simpa [hqp] using hframe.find hm₁ hne⟩
  · refine (hd.blob q hq cq hc).frame hframe ?_
    rintro lb hlb rfl
    exact g.outside p hp lb hl d _ (.inr ⟨cq, rfl⟩) hlb

/-- A write fails and changes nothing, or succeeds and changes its file. It succeeds if the ranges
fit and there is room. -/
theorem write (g : Groundwork b paths d₀) (hd : Derived b paths d₀ ranges d) (hp : p ∈ paths)
    (rs : List LineRange) :
    (∃ f d', writeWithout b p rs d = (some f, d') ∧ ¬ (HasRoom p ∧ Fits d₀ p rs) ∧
        Disk.Frame (fun _ => False) d d') ∨
      ∃ d', writeWithout b p rs d = (none, d') ∧ HasRoom p ∧ Fits d₀ p rs ∧
        Disk.Frame (fun l => d₀.locate p = .ok l) d d' ∧
        Derived b paths d₀ (fun q => if q = p then rs else ranges q) d' := by
  obtain ⟨l, c, m, hfind, -⟩ := g.copy.exists_file hp
  obtain ⟨m₁, hnow⟩ := hd.file p hp l c m hfind
  have hblob := hd.blob p hp c (Disk.readFile_of_find hfind)
  rcases g.toStands.write hp hfind hblob hnow rs with
    failed | ⟨d', m', hw, room, hfits, hframe, hnode⟩
  · exact .inl failed
  · refine .inr ⟨d', hw, room, hfits, hframe.mono ?_, g.derived_of_frame hd hp hfind hframe hnode⟩
    rintro _ rfl
    exact (Disk.find_eq_ok.mp hfind).1

/-- Writing up to the first failure changes files that have room, and all files if there is no
failure. -/
theorem derived_writeUntilFailure (g : Groundwork b paths d₀) (hd : Derived b paths d₀ ranges d)
    (hps : ∀ p ∈ ps, p ∈ paths) (new : String → List LineRange) :
    ∃ ranges', Derived b paths d₀ ranges' (writeUntilFailure b new ps d).2 ∧
      Disk.Frame (fun l => ∃ p ∈ ps, d₀.locate p = .ok l) d (writeUntilFailure b new ps d).2 ∧
      (∀ p, ranges' p = ranges p ∨ p ∈ ps ∧ HasRoom p) ∧
      ((writeUntilFailure b new ps d).1 = none →
        ∀ p ∈ ps, ranges' p = new p ∧ Fits d₀ p (new p)) := by
  induction ps generalizing d ranges with
  | nil => exact ⟨ranges, hd, .refl _ d, fun p => .inl rfl, by simp⟩
  | cons p ps ih =>
    unfold writeUntilFailure
    rcases g.write hd (hps p (by simp)) (new p) with
      ⟨f, d', hw, -, hframe⟩ | ⟨d', hw, room, hfits, hframe, hd'⟩
    · rw [hw]
      exact ⟨ranges, hd.frame hframe, hframe.mono (by simp), fun p => .inl rfl, by simp⟩
    · rw [hw]
      simp only
      obtain ⟨ranges', hr, hframe', hsame, hnew⟩ :=
        ih hd' fun q hq => hps q (List.mem_cons_of_mem _ hq)
      refine ⟨ranges', hr, (hframe.mono ?_).trans (hframe'.mono ?_), fun q => ?_, ?_⟩
      · exact fun l hl => ⟨p, by simp, hl⟩
      · exact fun l ⟨q, hq, hl⟩ => ⟨q, List.mem_cons_of_mem _ hq, hl⟩
      · rcases hsame q with hq | ⟨hq, hroom⟩
        · by_cases hqp : q = p
          · exact .inr ⟨by simp [hqp], hqp ▸ room⟩
          · exact .inl (by simpa [hqp] using hq)
        · exact .inr ⟨List.mem_cons_of_mem _ hq, hroom⟩
      · intro hnone
        rw [List.forall_mem_cons]
        refine ⟨⟨?_, hfits⟩, hnew hnone⟩
        rcases hsame p with hq | ⟨hq, -⟩
        · simpa using hq
        · exact (hnew hnone p hq).1

/-- Writing every file that has room. -/
theorem derived_writeAll (g : Groundwork b paths d₀) (hd : Derived b paths d₀ ranges d)
    (hps : ∀ p ∈ ps, p ∈ paths) (goal : String → List LineRange)
    (hfits : ∀ p ∈ ps, Fits d₀ p (goal p)) :
    Derived b paths d₀ (fun p => if p ∈ ps ∧ HasRoom p then goal p else ranges p)
        (writeAll b goal ps d).2 ∧
      Disk.Frame (fun l => ∃ p ∈ ps, d₀.locate p = .ok l) d (writeAll b goal ps d).2 := by
  induction ps generalizing d ranges with
  | nil => exact ⟨hd.congr (by simp), .refl _ d⟩
  | cons p ps ih =>
    have hps' := fun q hq => hps q (List.mem_cons_of_mem p hq)
    have hfits' := fun q hq => hfits q (List.mem_cons_of_mem p hq)
    have hmono : ∀ l, (∃ q ∈ ps, d₀.locate q = .ok l) → ∃ q ∈ p :: ps, d₀.locate q = .ok l :=
      fun l ⟨q, hq, hl⟩ => ⟨q, List.mem_cons_of_mem _ hq, hl⟩
    unfold writeAll
    rcases g.write hd (hps p (by simp)) (goal p) with
      ⟨f, d', hw, hno, hframe⟩ | ⟨d', hw, room, -, hframe, hd'⟩
    · have hroom : ¬ HasRoom p := fun room => hno ⟨room, hfits p (by simp)⟩
      obtain ⟨hrest, hframe'⟩ := ih (hd.frame hframe) hps' hfits'
      simp only [hw]
      refine ⟨hrest.congr fun q => ?_, (hframe.mono (by simp)).trans (hframe'.mono hmono)⟩
      by_cases hqp : q = p
      · simp [hqp, hroom]
      · simp [hqp]
    · obtain ⟨hrest, hframe'⟩ := ih hd' hps' hfits'
      simp only [hw]
      refine ⟨hrest.congr fun q => ?_,
        (hframe.mono fun l hl => ⟨p, by simp, hl⟩).trans (hframe'.mono hmono)⟩
      by_cases hqp : q = p
      · simp [hqp, room]
      · simp [hqp]

/-- A file stays a file while others are written, and its content stays unless it is one of them. -/
theorem find_of_frame (g : Groundwork b paths d₀) (hps : ∀ p ∈ ps, p ∈ paths)
    (hframe : Disk.Frame (fun l => ∃ p ∈ ps, d₀.locate p = .ok l) d d')
    (hd' : Derived b paths d₀ ranges d') {q : String} {l : Location} {x : Bytes} {m : Nat}
    (h : d.find q = .ok (l, .file x m)) :
    ∃ x' m', d'.find q = .ok (l, .file x' m') ∧
      ((∀ p ∈ ps, d₀.locate p ≠ .ok l) → x' = x) := by
  by_cases hl : ∃ p ∈ ps, d₀.locate p = .ok l
  · obtain ⟨p, hp, hl⟩ := hl
    obtain ⟨l', c, m₀, hfind, -⟩ := g.copy.exists_file (hps p hp)
    obtain ⟨m', hm'⟩ := hd'.file p (hps p hp) l' c m₀ hfind
    obtain rfl : l = l' := by simpa [hl] using (Disk.find_eq_ok.mp hfind).1
    have hnode := (Disk.find_eq_ok.mp hm').2
    exact ⟨_, m', Disk.find_eq_ok.mpr ⟨hframe.locate (Disk.find_eq_ok.mp h).1, hnode⟩,
      fun hno => absurd hl (hno p hp)⟩
  · exact ⟨x, m, hframe.find h hl, fun _ => rfl⟩

/-- If files are written, and then written as they were before, every file is as before. -/
theorem undone (g : Groundwork b paths d₀) (hps : ∀ p ∈ ps, p ∈ paths)
    {ranges' : String → List LineRange} {d₁ d₂ d₃ : Disk} (hd : Derived b paths d₀ ranges d)
    (hframe₁ : Disk.Frame (fun l => ∃ p ∈ ps, d₀.locate p = .ok l) d d₁)
    (hd₁ : Derived b paths d₀ ranges' d₁)
    (hframe₂ : Disk.Frame (fun l => ∃ p ∈ ps, d₀.locate p = .ok l) d₂ d₃)
    (hd₃ : Derived b paths d₀ ranges d₃) {q : String}
    (hkeep : ∀ l x m, d₁.find q = .ok (l, .file x m) → d₂.find q = .ok (l, .file x m)) {x : Bytes}
    (h : d.readFile q = .ok x) : d₃.readFile q = .ok x := by
  obtain ⟨l, m, hq⟩ := Disk.readFile_eq_ok.mp h
  obtain ⟨x₁, m₁, hq₁, hsame₁⟩ := g.find_of_frame hps hframe₁ hd₁ hq
  obtain ⟨x₃, m₃, hq₃, hsame₃⟩ := g.find_of_frame hps hframe₂ hd₃ (hkeep l x₁ m₁ hq₁)
  rw [Disk.readFile_of_find hq₃]
  by_cases hl : ∃ p ∈ ps, d₀.locate p = .ok l
  · -- a file that was written is the same captured content before and after
    obtain ⟨p, hp, hl⟩ := hl
    obtain ⟨l', c, m₀, hfind, -⟩ := g.copy.exists_file (hps p hp)
    obtain rfl : l = l' := by simpa [hl] using (Disk.find_eq_ok.mp hfind).1
    obtain ⟨m', hm'⟩ := hd.file p (hps p hp) l c m₀ hfind
    obtain ⟨m'', hm''⟩ := hd₃.file p (hps p hp) l c m₀ hfind
    have hx : d.node? l = some (.file x m) := (Disk.find_eq_ok.mp hq).2
    have hx₃ : d₃.node? l = some (.file x₃ m₃) := (Disk.find_eq_ok.mp hq₃).2
    rw [(Disk.find_eq_ok.mp hm').2] at hx
    rw [(Disk.find_eq_ok.mp hm'').2] at hx₃
    simp_all
  · have hno : ∀ p ∈ ps, d₀.locate p ≠ .ok l := fun p hp hl' => hl ⟨p, hp, hl'⟩
    rw [hsame₃ hno, hsame₁ hno]

end Groundwork

/-! ## Batches -/

section Batches

variable {σ R : Type} {env : Surroundings σ R}

/-- The checks of a run leave the file of a path alone. -/
def Surroundings.Spares (env : Surroundings σ R) (path : String) : Prop :=
  ∀ s d l c m, Disk.find d path = .ok (l, .file c m) →
    (env.validate s d).2.2.find path = .ok (l, .file c m)

/-- The checks of a run leave the compressed contents in the directory of a backup alone. -/
def Surroundings.SparesBlobs (env : Surroundings σ R) (dir : String) : Prop :=
  ∀ c, env.Spares (Path.join dir (blobName c))

theorem Surroundings.SparesBlobs.holds {dir : String} (h : env.SparesBlobs dir) {c : Bytes}
    (hc : Holds dir c d) (outer : σ) : Holds dir c (env.validate outer d).2.2 := by
  obtain ⟨l, m, z, hblob, hz⟩ := hc
  exact ⟨l, m, z, h c outer d l z m hblob, hz⟩

theorem Derived.validate (h : Derived b paths d₀ ranges d) (outer : σ)
    (hfiles : ∀ p ∈ paths, env.Spares p) (hblobs : env.SparesBlobs b.dir) :
    Derived b paths d₀ ranges (env.validate outer d).2.2 := by
  refine ⟨fun p hp l c m hfind => ?_, fun p hp c hc => ?_⟩
  · obtain ⟨m', hm'⟩ := h.file p hp l c m hfind
    exact ⟨m', hfiles p hp outer d l _ m' hm'⟩
  · exact hblobs.holds (h.blob p hp c hc) outer

variable [Scale R] {plan : RunPlan R} {s : RunState σ R}

/-- What writing the files of a batch does. -/
def writeBatch (plan : RunPlan R) (batch : List (Candidate R)) (s : RunState σ R) :
    Option Fault × Disk :=
  writeUntilFailure plan.backup
    (fun p => s.committed.of p ++ (batchRemovals plan.options batch).of p)
    (batchFiles plan.options batch) s.disk

/-- A batch is undone, either at once or after the check, or it is kept. -/
theorem runBatch_cases (env : Surroundings σ R) (plan : RunPlan R) (index : Nat)
    (batch : List (Candidate R)) (s : RunState σ R) :
    let (result, s') := runBatch env plan index batch s
    let (failure, written) := writeBatch plan batch s
    let checked := (env.validate s.outer written).2.2
    let files := batchFiles plan.options batch
    s'.outcome.batches = s.outcome.batches ∧
      ((∃ d, (d = written ∨ failure = none ∧ d = checked) ∧ result.status = .rolledBack ∧
          s'.committed = s.committed ∧
          s'.disk = (writeAll plan.backup (Removals.of s.committed) files d).2) ∨
        failure = none ∧ result.status = .committed ∧ s'.disk = checked ∧
          s'.committed = files.foldl (fun rs p =>
            rs.add p ((batchRemovals plan.options batch).of p)) s.committed) := by
  unfold runBatch
  simp only [writeBatch]
  generalize writeUntilFailure plan.backup _ _ s.disk = written
  obtain ⟨failure | _, d⟩ := written
  · simp only
    split_ifs
    · exact ⟨rfl, .inl ⟨_, .inr ⟨trivial, rfl⟩, rfl, rfl, rfl⟩⟩
    · exact ⟨rfl, .inl ⟨_, .inr ⟨trivial, rfl⟩, rfl, rfl, rfl⟩⟩
    · exact ⟨rfl, .inr ⟨trivial, rfl, rfl, rfl⟩⟩
  · exact ⟨rfl, .inl ⟨d, .inl rfl, rfl, rfl, rfl⟩⟩

/-- A run whose disk shows exactly the ranges of the batches that were kept as removed. -/
structure RunState.Sound (b : Backup) (paths : List String) (d₀ : Disk) (s : RunState σ R) :
    Prop where
  derived : Derived b paths d₀ (Removals.of s.committed) s.disk
  fits : ∀ p ∈ paths, Fits d₀ p (s.committed.of p)

/-- A batch keeps a run sound. If it is undone, every file that the check spares is as before, and
otherwise its ranges are removed for good. -/
theorem Groundwork.sound_runBatch (g : Groundwork plan.backup paths d₀)
    (hfiles : ∀ p ∈ paths, env.Spares p)
    (hblobs : env.SparesBlobs plan.backup.dir)
    (hs : s.Sound plan.backup paths d₀) {batch : List (Candidate R)}
    (hbatch : ∀ p ∈ batchFiles plan.options batch, p ∈ paths) (index : Nat) :
    let (result, s') := runBatch env plan index batch s
    s'.Sound plan.backup paths d₀ ∧ s'.outcome.batches = s.outcome.batches ∧
      (result.status = .rolledBack ∧ s'.committed = s.committed ∧
          (∀ q, env.Spares q → ∀ x, s.disk.readFile q = .ok x → s'.disk.readFile q = .ok x) ∨
        result.status = .committed ∧
          ∀ p, s'.committed.of p = s.committed.of p ++ rangesIn plan.options batch p) := by
  obtain ⟨ranges, hwritten, hframe, hsame, hnew⟩ := g.derived_writeUntilFailure hs.derived hbatch
    fun p => s.committed.of p ++ (batchRemovals plan.options batch).of p
  have hcases := runBatch_cases env plan index batch s
  simp only [writeBatch] at hcases
  generalize writeUntilFailure plan.backup _ _ s.disk = written at *
  generalize runBatch env plan index batch s = r at *
  obtain ⟨result, s'⟩ := r
  obtain ⟨hbatches, ⟨d, hd, hstatus, hcommitted, hdisk⟩ | ⟨hnone, hstatus, hdisk, hcommitted⟩⟩ :=
    hcases
  · have hderived : Derived plan.backup paths d₀ ranges d := by
      rcases hd with rfl | ⟨-, rfl⟩
      · exact hwritten
      · exact hwritten.validate s.outer hfiles hblobs
    obtain ⟨hundone, hframe'⟩ := g.derived_writeAll hderived hbatch (Removals.of s.committed)
      fun p hp => hs.fits p (hbatch p hp)
    -- files without room were not written, so nothing is left of the batch
    have hback : Derived plan.backup paths d₀ (Removals.of s.committed) s'.disk := by
      rw [hdisk]
      refine hundone.congr fun p => ?_
      rcases hsame p with h | h
      · simp [h]
      · simp [h]
    refine ⟨⟨hcommitted ▸ hback, hcommitted ▸ hs.fits⟩, hbatches,
      .inl ⟨hstatus, hcommitted, fun q hq x hx => ?_⟩⟩
    refine g.undone hbatch hs.derived hframe hwritten (hdisk ▸ hframe') hback ?_ hx
    intro l x m hfind
    rcases hd with rfl | ⟨-, rfl⟩
    · exact hfind
    · exact hq s.outer written.2 l x m hfind
  · have hranges : ∀ p, s'.committed.of p = s.committed.of p ++ rangesIn plan.options batch p := by
      intro p
      rw [hcommitted, of_foldl_batchRemovals]
    have hall : ∀ p, ranges p = s'.committed.of p := by
      intro p
      rw [hranges p]
      by_cases hp : p ∈ batchFiles plan.options batch
      · rw [(hnew hnone p hp).1, of_batchRemovals]
      · rw [(hsame p).resolve_right fun h => hp h.1, rangesIn_eq_nil hp, List.append_nil]
    refine ⟨⟨?_, fun p hp => ?_⟩, hbatches, .inr ⟨hstatus, hranges⟩⟩
    · rw [hdisk]
      exact (hwritten.validate s.outer hfiles hblobs).congr hall
    · by_cases hp' : p ∈ batchFiles plan.options batch
      · rw [← hall p, (hnew hnone p hp').1]
        exact (hnew hnone p hp').2
      · rw [hranges p, rangesIn_eq_nil hp', List.append_nil]
        exact hs.fits p hp

end Batches

end Deadwood
