import Deadwood.Proofs.Pruning.Run

/-!
# The keys of files

A run knows a file by the text to which its path resolves: the files of a batch, the ranges that are
committed and the entries of the backup are all told apart by it. For a path below a root directory
this text is a cleaned path; without such a directory, and for absolute paths, it is the path as it
was given. So one file can have several keys, and then each of them has ranges of its own. The file
ends up without the ranges of the key that is written last, as if the others had not been written.

## Main definitions

* `Path.placeFrom`: the place that a path names.
* `Path.SameKind`: paths that start in the same way.
* `PruneOptions.fullPath`: the path of a source file.
* `PruneOptions.Cleans`: a path whose key is a cleaned path.
* `Backup.InPlace`: a disk on which captured files can be written.

## Main results

* `Path.clean_eq_of_placeFrom`: cleaned paths of one kind that name one place.
* `Disk.placeFrom_of_locate`: where a path leads.
* `PruneOptions.resolve_eq_iff`: when two paths of one file have one key.
* `batchRemovals_of_iff`: when the ranges of every file are collected together.
* `Backup.InPlace.node?_writeUntilFailure`: what is left of a file that is written several times.
* `one_key_per_file_iff`: what the keys of a batch mean for its files.
-/

namespace Deadwood

open Backup (Holds)

/-! ## Places -/

namespace Path

open Text

variable {rooted : Bool} {w l start kept names : List String} {p q s : String}

/-- The place behind one more part of a path. -/
def step (l : List String) (part : String) : List String :=
  if part = "" ∨ part = "." then l else if part = ".." then l.dropLast else l ++ [part]

/-- The place that a path names if relative paths start from `w`. -/
def placeFrom (w : List String) (p : String) : List String :=
  (segments '/' p).foldl step (if isAbsolute p then [] else w)

theorem step_skip (h : s = "" ∨ s = ".") : step l s = l :=
  if_pos h

theorem step_name (hskip : ¬ (s = "" ∨ s = ".")) (hup : s ≠ "..") : step l s = l ++ [s] := by
  rw [step, if_neg hskip, if_neg hup]

/-- Going through what is left after one more part comes to where that part leads. -/
theorem foldl_step_push (hr : rooted = true → start = []) (hkept : ∀ t ∈ kept, t ≠ "" ∧ t ≠ ".")
    (s : String) :
    (push rooted kept s).reverse.foldl step start = step (kept.reverse.foldl step start) s := by
  by_cases hskip : s = "" ∨ s = "."
  · rw [push_skip hskip, step_skip hskip]
  by_cases hup : s = ".."
  · subst hup
    cases kept with
    | nil =>
      cases rooted with
      | true => simp [push, step, hr rfl]
      | false => simp [push, step]
    | cons last rest =>
      by_cases hlast : last = ".."
      · simp [push, hlast]
      -- going up from behind a name undoes that name
      · obtain ⟨hne, hhere⟩ := hkept last List.mem_cons_self
        simp [push, hlast, step, hne, hhere]
  · have hkeep : push rooted kept s = s :: kept := by simp [push, hskip, hup]
    simp [hkeep]

theorem foldl_step_foldl_push (hr : rooted = true → start = [])
    (hkept : ∀ t ∈ kept, t ≠ "" ∧ t ≠ ".") (names : List String) :
    (names.foldl (push rooted) kept).reverse.foldl step start =
      names.foldl step (kept.reverse.foldl step start) := by
  induction names generalizing kept with
  | nil => rfl
  | cons s names ih =>
    rw [List.foldl_cons, ih, foldl_step_push hr hkept, List.foldl_cons]
    intro t ht
    rcases mem_push ht with ht | ⟨rfl, hne⟩
    · exact hkept t ht
    · exact hne

/-- The parts that are left of a path name the same place. -/
theorem placeFrom_eq (w : List String) (p : String) :
    placeFrom w p = (parts p).foldl step (if isAbsolute p then [] else w) := by
  have hr : isAbsolute p = true → (if isAbsolute p then [] else w) = [] := fun h => if_pos h
  have hnone : ∀ t ∈ ([] : List String), t ≠ "" ∧ t ≠ "." := by simp
  exact (foldl_step_foldl_push hr hnone (segments '/' p)).symm

@[simp] theorem placeFrom_clean (w : List String) (p : String) :
    placeFrom w (clean p) = placeFrom w p := by
  rw [placeFrom_eq, placeFrom_eq, parts_clean, isAbsolute_clean]

theorem placeFrom_congr (h : clean p = clean q) (w : List String) :
    placeFrom w p = placeFrom w q := by
  rw [← placeFrom_clean, h, placeFrom_clean]

/-- A part that is neither left out nor goes up. -/
def IsStep (s : String) : Prop :=
  ¬ (s = "" ∨ s = ".") ∧ s ≠ ".."

theorem exists_push_eq (hnames : ∀ t ∈ names, IsStep t) (k : Nat) (rooted : Bool) (s : String) :
    ∃ k' names', push rooted (names ++ List.replicate k "..") s =
      names' ++ List.replicate k' ".." ∧ ∀ t ∈ names', IsStep t := by
  by_cases hskip : s = "" ∨ s = "."
  · exact ⟨k, names, push_skip hskip, hnames⟩
  by_cases hup : s = ".."
  · subst hup
    cases names with
    | nil =>
      cases k with
      | zero =>
        cases rooted with
        | true => exact ⟨0, [], by simp [push], by simp⟩
        | false => exact ⟨1, [], by simp [push], by simp⟩
      | succ k => exact ⟨k + 2, [], by simp [push, List.replicate_succ], by simp⟩
    | cons last rest =>
      have hlast := (hnames last List.mem_cons_self).2
      exact ⟨k, rest, by simp [push, hlast], fun t ht => hnames t (List.mem_cons_of_mem _ ht)⟩
  · refine ⟨k, s :: names, by simp [push, hskip, hup], ?_⟩
    exact List.forall_mem_cons.mpr ⟨⟨hskip, hup⟩, hnames⟩

/-- What is left of a path goes up first and then through names. -/
theorem exists_parts_eq (p : String) :
    ∃ names, parts p = List.replicate ((parts p).count "..") ".." ++ names ∧
      ∀ s ∈ names, IsStep s := by
  have hrun : ∀ (segs : List String) (k : Nat) (names : List String), (∀ t ∈ names, IsStep t) →
      ∃ k' names', segs.foldl (push (isAbsolute p)) (names ++ List.replicate k "..") =
        names' ++ List.replicate k' ".." ∧ ∀ t ∈ names', IsStep t := by
    intro segs
    induction segs with
    | nil => exact fun k names hnames => ⟨k, names, rfl, hnames⟩
    | cons s segs ih =>
      intro k names hnames
      obtain ⟨k', names', hpush, hnames'⟩ := exists_push_eq hnames k (isAbsolute p) s
      rw [List.foldl_cons, hpush]
      exact ih k' names' hnames'
  obtain ⟨k, names, hparts, hnames⟩ := hrun (segments '/' p) 0 [] (by simp)
  have hparts : parts p = List.replicate k ".." ++ names.reverse := by
    have := congrArg List.reverse hparts
    simpa [parts] using this
  have hcount : (parts p).count ".." = k := by
    have hnone : names.reverse.count ".." = 0 :=
      List.count_eq_zero.mpr fun h => (hnames ".." (List.mem_reverse.mp h)).2 rfl
    rw [hparts, List.count_append, hnone]
    simp
  exact ⟨names.reverse, hcount ▸ hparts, fun s hs => hnames s (List.mem_reverse.mp hs)⟩

theorem foldl_step_names (h : ∀ s ∈ names, IsStep s) : names.foldl step l = l ++ names := by
  induction names generalizing l with
  | nil => simp
  | cons s names ih =>
    have hs := h s List.mem_cons_self
    rw [List.foldl_cons, step_name hs.1 hs.2, ih fun t ht => h t (List.mem_cons_of_mem _ ht)]
    simp

/-- Two paths start in the same place: both are absolute or neither is, and they go up equally
far. -/
def SameKind (p q : String) : Prop :=
  isAbsolute p = isAbsolute q ∧ (parts p).count ".." = (parts q).count ".."

instance (p q : String) : Decidable (SameKind p q) :=
  inferInstanceAs (Decidable (_ ∧ _))

theorem SameKind.of_clean_eq (h : clean p = clean q) : SameKind p q :=
  ⟨by rw [← isAbsolute_clean p, h, isAbsolute_clean], by rw [← parts_clean p, h, parts_clean]⟩

/-- Paths of one kind that name one place are the same path once they are cleaned. -/
theorem clean_eq_of_placeFrom (hkind : SameKind p q) (h : placeFrom w p = placeFrom w q) :
    clean p = clean q := by
  obtain ⟨habs, hups⟩ := hkind
  obtain ⟨names, hp, hnames⟩ := exists_parts_eq p
  obtain ⟨names', hq, hnames'⟩ := exists_parts_eq q
  rw [placeFrom_eq, placeFrom_eq, hp, hq, habs, hups, List.foldl_append, List.foldl_append,
    foldl_step_names hnames, foldl_step_names hnames'] at h
  refine clean_congr ?_ habs
  rw [hp, hq, hups, List.append_cancel_left h]

end Path

/-- A path leads to the place that it names. -/
theorem Disk.placeFrom_of_locate {d : Disk} {p : String} {l : Location} (h : d.locate p = .ok l) :
    l = Path.placeFrom d.workDir p := by
  have hfollow : ∀ (names : List String) (start : Location), d.follow start names = .ok l →
      l = names.foldl Path.step start := by
    intro names
    induction names with
    | nil => exact fun start h => (Except.ok.inj h).symm
    | cons s names ih =>
      intro start h
      have hd := directory_of_follow h
      unfold follow at h
      rw [hd] at h
      simp only [Bool.or_eq_true, decide_eq_true_eq] at h
      rw [List.foldl_cons, Path.step]
      split_ifs at h ⊢ with hskip hup
      · exact ih _ h
      · exact ih _ h
      · exact ih _ h
  obtain ⟨-, -, -, hf⟩ := locate_eq_ok.mp h
  exact hfollow _ _ hf

/-! ## Keys -/

section Keys

variable {R : Type} [Scale R] {o : PruneOptions R} {w : Location} {p q : String}

namespace PruneOptions

/-- The path of a source file, from the root directory if there is one. -/
def fullPath (o : PruneOptions R) (p : String) : String :=
  if Path.isAbsolute p || o.rootDir = "" then p else o.rootDir ++ "/" ++ p

/-- The key of a path is a cleaned path. -/
def Cleans (o : PruneOptions R) (p : String) : Prop :=
  Path.isAbsolute p = false ∧ o.rootDir ≠ "" ∨ Path.clean p = p

instance (o : PruneOptions R) (p : String) : Decidable (o.Cleans p) :=
  inferInstanceAs (Decidable (_ ∨ _))

@[simp] theorem clean_resolve (o : PruneOptions R) (p : String) :
    Path.clean (o.resolve p) = Path.clean (o.fullPath p) := by
  unfold resolve fullPath
  split_ifs with hgiven
  · rfl
  · have hroot : o.rootDir ≠ "" := by simp_all
    rw [Path.join_eq_clean hroot, Path.clean_clean]

theorem cleans_iff : o.Cleans p ↔ o.resolve p = Path.clean (o.fullPath p) := by
  unfold Cleans resolve fullPath
  by_cases habs : Path.isAbsolute p
  · simp only [habs, Bool.true_or, if_true, Bool.true_eq_false, false_and, false_or]
    exact eq_comm
  by_cases hroot : o.rootDir = ""
  · simp only [hroot, decide_true, Bool.or_true, if_true, ne_eq, not_true, and_false, false_or]
    exact eq_comm
  · simp [habs, hroot, Path.join_eq_clean]

/-- The key of a path that is not cleaned is the path as it was given. -/
theorem resolve_of_not_cleans (h : ¬ o.Cleans p) : o.resolve p = p := by
  unfold resolve
  unfold Cleans at h
  split_ifs with hgiven
  · rfl
  · simp_all

/-- Two paths are spelled alike, or both keys are cleaned paths that start in the same place. -/
def ShareKey (o : PruneOptions R) (p q : String) : Prop :=
  p = q ∨ o.Cleans p ∧ o.Cleans q ∧ Path.SameKind (o.fullPath p) (o.fullPath q)

instance (o : PruneOptions R) (p q : String) : Decidable (o.ShareKey p q) :=
  inferInstanceAs (Decidable (_ ∨ _))

/-- This is what gives two paths of one file the same key. -/
theorem resolve_eq_iff
    (hsame : Path.placeFrom w (o.fullPath p) = Path.placeFrom w (o.fullPath q)) :
    o.resolve p = o.resolve q ↔ o.ShareKey p q := by
  constructor
  · intro h
    have hclean : Path.clean (o.fullPath p) = Path.clean (o.fullPath q) := by
      rw [← clean_resolve, h, clean_resolve]
    by_cases hp : o.Cleans p <;> by_cases hq : o.Cleans q
    · exact .inr ⟨hp, hq, .of_clean_eq hclean⟩
    · refine absurd ?_ hq
      rw [cleans_iff, ← h, cleans_iff.mp hp, hclean]
    · refine absurd ?_ hp
      rw [cleans_iff, h, cleans_iff.mp hq, hclean]
    · rw [resolve_of_not_cleans hp, resolve_of_not_cleans hq] at h
      exact .inl h
  · rintro (rfl | ⟨hp, hq, hkind⟩)
    · rfl
    · rw [cleans_iff.mp hp, cleans_iff.mp hq, Path.clean_eq_of_placeFrom hkind hsame]

@[simp] theorem placeFrom_resolve (o : PruneOptions R) (w : Location) (p : String) :
    Path.placeFrom w (o.resolve p) = Path.placeFrom w (o.fullPath p) :=
  Path.placeFrom_congr (o.clean_resolve p) w

end PruneOptions

/-- The place that the path of a function names. -/
def Candidate.placeFrom (o : PruneOptions R) (w : Location) (c : Candidate R) : Location :=
  Path.placeFrom w (o.fullPath c.function.filePath)

/-- The ranges of functions at one place. -/
def rangesAt (o : PruneOptions R) (w : Location) (cs : List (Candidate R)) (l : Location) :
    List LineRange :=
  (cs.filter fun c => c.placeFrom o w = l).map (·.function.range)

/-- The ranges of every file are collected under one key if and only if functions of one file share
it. -/
theorem batchRemovals_of_iff (o : PruneOptions R) (w : Location) (cs : List (Candidate R)) :
    (∀ c ∈ cs, (batchRemovals o cs).of (o.resolve c.function.filePath) =
        rangesAt o w cs (c.placeFrom o w)) ↔
      ∀ c ∈ cs, ∀ c' ∈ cs, c'.placeFrom o w = c.placeFrom o w →
        o.ShareKey c'.function.filePath c.function.filePath := by
  -- a key names one place only
  have hplace : ∀ c c' : Candidate R,
      o.resolve c'.function.filePath = o.resolve c.function.filePath →
        c'.placeFrom o w = c.placeFrom o w := by
    intro c c' h
    rw [Candidate.placeFrom, ← o.placeFrom_resolve, h, o.placeFrom_resolve, ← Candidate.placeFrom]
  simp only [of_batchRemovals, rangesIn, rangesAt]
  constructor
  · intro h c hc c' hc' hsame
    have hsub : (cs.filter fun x =>
        o.resolve x.function.filePath = o.resolve c.function.filePath).Sublist
          (cs.filter fun x => x.placeFrom o w = c.placeFrom o w) := by
      refine List.monotone_filter_right cs fun x hx => ?_
      exact decide_eq_true (hplace c x (of_decide_eq_true hx))
    have hlength := congrArg List.length (h c hc)
    rw [List.length_map, List.length_map] at hlength
    have hmem : c' ∈ cs.filter fun x => x.placeFrom o w = c.placeFrom o w :=
      List.mem_filter.mpr ⟨hc', decide_eq_true hsame⟩
    rw [← hsub.eq_of_length hlength] at hmem
    exact (PruneOptions.resolve_eq_iff hsame).mp (of_decide_eq_true (List.mem_filter.mp hmem).2)
  · intro h c hc
    congr 1
    refine List.filter_congr fun x hx => decide_eq_decide.mpr ⟨hplace c x, fun hsame => ?_⟩
    exact (PruneOptions.resolve_eq_iff hsame).mpr (h c hc x hx hsame)

end Keys

/-! ## Writing a file several times -/

section Writes

variable {b : Backup} {paths ps : List String} {d₀ d d' : Disk} {p : String}

/-- A disk on which every captured file is still a file in its place, and its captured content is in
the backup. -/
structure Backup.InPlace (b : Backup) (paths : List String) (d₀ d : Disk) : Prop where
  file : ∀ p ∈ paths, ∀ l c m, d₀.find p = .ok (l, .file c m) →
    ∃ x m', d.find p = .ok (l, .file x m')
  blob : ∀ p ∈ paths, ∀ c, d₀.readFile p = .ok c → Holds b.dir c d

namespace Backup.InPlace

theorem write (h : b.InPlace paths d₀ d) (stands : b.Stands paths d₀) (hp : p ∈ paths)
    {rs : List LineRange} (hw : writeWithout b p rs d = (none, d')) {l : Location} {c : Bytes}
    {m : Nat} (hfind : d₀.find p = .ok (l, .file c m)) :
    b.InPlace paths d₀ d' ∧ Disk.Frame (· = l) d d' ∧
      ∃ m', d'.node? l = some (.file (linesOutside c rs) m') := by
  obtain ⟨x, m₁, hnow⟩ := h.file p hp l c m hfind
  have hblob := h.blob p hp c (Disk.readFile_of_find hfind)
  rcases stands.write hp hfind hblob hnow rs with
    ⟨f, d'', hw', -⟩ | ⟨d'', m', hw', -, -, hframe, hnode⟩
  · simp [hw] at hw'
  obtain rfl : d' = d'' := by simpa [hw] using hw'
  refine ⟨⟨fun q hq lq cq mq hfindq => ?_, fun q hq cq hc => ?_⟩, hframe, m', hnode⟩
  · obtain ⟨xq, m₂, hm₂⟩ := h.file q hq lq cq mq hfindq
    by_cases hlq : lq = l
    · subst hlq
      exact ⟨_, m', Disk.find_eq_ok.mpr ⟨hframe.locate (Disk.find_eq_ok.mp hm₂).1, hnode⟩⟩
    · exact ⟨xq, m₂, hframe.find hm₂ hlq⟩
  · refine (h.blob q hq cq hc).frame hframe ?_
    rintro lb hlb rfl
    exact stands.outside p hp lb (Disk.find_eq_ok.mp hfind).1 d _ (.inr ⟨cq, rfl⟩) hlb

/-- If several paths lead to one place, the last of them to be written decides what is there. -/
theorem node?_writeUntilFailure (h : b.InPlace paths d₀ d) (stands : b.Stands paths d₀)
    (hps : ∀ p ∈ ps, p ∈ paths) {new : String → List LineRange}
    (hw : writeUntilFailure b new ps d = (none, d')) :
    b.InPlace paths d₀ d' ∧
      Disk.Frame (fun l => ∃ p ∈ ps, d₀.locate p = .ok l) d d' ∧
      ∀ front k back l c m, ps = front ++ k :: back → d₀.find k = .ok (l, .file c m) →
        (∀ q ∈ back, d₀.locate q ≠ .ok l) →
          ∃ m', d'.node? l = some (.file (linesOutside c (new k)) m') := by
  induction ps generalizing d with
  | nil =>
    obtain rfl : d = d' := by simpa [writeUntilFailure] using hw
    exact ⟨h, .refl _ d, by simp⟩
  | cons p ps ih =>
    have hp : p ∈ paths := hps p List.mem_cons_self
    obtain ⟨l₁, c₁, m₁, hfind, -⟩ := stands.copy.exists_file hp
    have hl₁ := (Disk.find_eq_ok.mp hfind).1
    unfold writeUntilFailure at hw
    cases hfirst : writeWithout b p (new p) d with
    | mk failure d₁ =>
      rw [hfirst] at hw
      cases failure with
      | some f => simp at hw
      | none =>
        obtain ⟨h₁, hframe₁, m', hnode₁⟩ := h.write stands hp hfirst hfind
        obtain ⟨h', hframe, hlast⟩ := ih h₁ (fun q hq => hps q (List.mem_cons_of_mem _ hq)) hw
        refine ⟨h', (hframe₁.mono ?_).trans (hframe.mono ?_), ?_⟩
        · rintro _ rfl
          exact ⟨p, List.mem_cons_self, hl₁⟩
        · rintro l ⟨q, hq, hl⟩
          exact ⟨q, List.mem_cons_of_mem _ hq, hl⟩
        · intro front k back l c m hsplit hk hback
          cases front with
          | nil =>
            obtain ⟨rfl, rfl⟩ := List.cons.inj hsplit
            obtain ⟨rfl, rfl, rfl⟩ : l₁ = l ∧ c₁ = c ∧ m₁ = m := by simpa [hfind] using hk
            refine ⟨m', (hframe.same l₁ ?_).trans hnode₁⟩
            rintro ⟨q, hq, hl⟩
            exact hback q hq hl
          | cons first front =>
            exact hlast front k back l c m (List.cons.inj hsplit).2 hk hback

end Backup.InPlace

end Writes

/-- Two paths of one file have one key if and only if they are spelled alike, or their keys are
cleaned paths that start in the same place. If this holds of all functions of one file, and only
then, the ranges of every file are collected together; different keys then lead to different files.
In any case a file lacks the ranges of the last of its keys once all files are written, and no
others. -/
theorem one_key_per_file_iff {R : Type} [Scale R] (o : PruneOptions R) (w : Location)
    (cs : List (Candidate R)) :
    (∀ p q, Path.placeFrom w (o.fullPath p) = Path.placeFrom w (o.fullPath q) →
        (o.resolve p = o.resolve q ↔ o.ShareKey p q)) ∧
      (∀ p q, Path.clean (o.fullPath p) = Path.clean (o.fullPath q) →
        (o.resolve p = o.resolve q ↔ p = q ∨ o.Cleans p ∧ o.Cleans q)) ∧
      ((∀ c ∈ cs, (batchRemovals o cs).of (o.resolve c.function.filePath) =
          rangesAt o w cs (c.placeFrom o w)) ↔
        ∀ c ∈ cs, ∀ c' ∈ cs, c'.placeFrom o w = c.placeFrom o w →
          o.ShareKey c'.function.filePath c.function.filePath) ∧
      ((∀ c ∈ cs, ∀ c' ∈ cs, c'.placeFrom o w = c.placeFrom o w →
          o.ShareKey c'.function.filePath c.function.filePath) →
        ∀ d : Disk, d.workDir = w → ∀ k ∈ batchFiles o cs, ∀ k' ∈ batchFiles o cs, ∀ l,
          d.locate k = .ok l → d.locate k' = .ok l → k = k') ∧
      ∀ (b : Backup) (paths : List String) (d₀ d d' : Disk) (committed : Removals),
        b.Stands paths d₀ → b.InPlace paths d₀ d → (∀ k ∈ batchFiles o cs, k ∈ paths) →
          writeUntilFailure b (fun p => committed.of p ++ (batchRemovals o cs).of p)
            (batchFiles o cs) d = (none, d') →
            ∀ front k back l c m, batchFiles o cs = front ++ k :: back →
              d₀.find k = .ok (l, .file c m) → (∀ q ∈ back, d₀.locate q ≠ .ok l) →
                ∀ p ∈ paths, d₀.locate p = .ok l →
                  d'.readFile p = .ok (linesOutside c (committed.of k ++ rangesIn o cs k)) := by
  refine ⟨fun p q => PruneOptions.resolve_eq_iff, fun p q hclean => ?_,
    batchRemovals_of_iff o w cs, fun hshare d hwork k hk k' hk' l hl hl' => ?_, ?_⟩
  · have hkind := Path.SameKind.of_clean_eq hclean
    rw [PruneOptions.resolve_eq_iff (Path.placeFrom_congr hclean []), PruneOptions.ShareKey,
      and_iff_left hkind]
  · obtain ⟨c, hc, rfl⟩ := List.mem_map.mp (mem_distinctTexts.mp hk)
    obtain ⟨c', hc', rfl⟩ := List.mem_map.mp (mem_distinctTexts.mp hk')
    have hplace := Disk.placeFrom_of_locate hl
    have hplace' := Disk.placeFrom_of_locate hl'
    rw [hwork, o.placeFrom_resolve] at hplace hplace'
    have hsame : c.placeFrom o w = c'.placeFrom o w := hplace.symm.trans hplace'
    exact (PruneOptions.resolve_eq_iff hsame).mpr (hshare c' hc' c hc hsame)
  · intro b paths d₀ d d' committed stands hd hfiles hw front k back l c m hsplit hk hback p hp hl
    obtain ⟨hd', -, hlast⟩ := hd.node?_writeUntilFailure stands hfiles hw
    obtain ⟨m', hnode⟩ := hlast front k back l c m hsplit hk hback
    obtain ⟨l', c', m₁, hfind, -⟩ := stands.copy.exists_file hp
    obtain rfl : l' = l := Except.ok.inj ((Disk.find_eq_ok.mp hfind).1.symm.trans hl)
    obtain ⟨x, m₂, hnow⟩ := hd'.file p hp l' c' m₁ hfind
    rw [of_batchRemovals] at hnode
    exact Disk.readFile_of_find (Disk.find_eq_ok.mpr ⟨(Disk.find_eq_ok.mp hnow).1, hnode⟩)

/-- Without a root directory, `a.go` and `./a.go` have two keys, although they name one file. Below
a root directory they have one. -/
theorem one_key_per_file_iff_dot :
    let given : PruneOptions Rat := {}
    let below : PruneOptions Rat := { rootDir := "src" }
    let w : Location := ["work"]
    (Path.placeFrom w (given.fullPath "a.go") = Path.placeFrom w (given.fullPath "./a.go") ∧
        given.resolve "a.go" ≠ given.resolve "./a.go") ∧
      Path.placeFrom w (below.fullPath "a.go") = Path.placeFrom w (below.fullPath "./a.go") ∧
        below.resolve "a.go" = below.resolve "./a.go" := by
  intro given below w
  have hgiven : Path.placeFrom w (given.fullPath "a.go") =
      Path.placeFrom w (given.fullPath "./a.go") := by decide +kernel
  have hbelow : Path.placeFrom w (below.fullPath "a.go") =
      Path.placeFrom w (below.fullPath "./a.go") := by decide +kernel
  have hapart : ¬ given.ShareKey "a.go" "./a.go" := by decide +kernel
  have hshared : below.ShareKey "a.go" "./a.go" := by decide +kernel
  exact ⟨⟨hgiven, mt ((one_key_per_file_iff given w []).1 _ _ hgiven).mp hapart⟩, hbelow,
    ((one_key_per_file_iff below w []).1 _ _ hbelow).mpr hshared⟩

end Deadwood
