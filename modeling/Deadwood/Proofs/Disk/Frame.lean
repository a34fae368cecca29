import Deadwood.Disk.Basic
import Deadwood.Proofs.Assoc

/-!
# What an operation leaves alone on a disk

A disk is seen through what lies at its places. `Frame` says which places an operation may have
changed: everything else is as it was, and no directory is lost, so every path still leads where it
led before.

## Main definitions

* `Disk.Frame`: two disks that differ in some places only.
* `Disk.Frame.find`: paths through a framed disk.
-/

namespace Deadwood

@[simp, grind =] theorem Refusal.orElse_eq_ok {α : Type} {refusal : Option Refusal}
    {op path : String} {x : Except Fault α} {a : α} :
    Refusal.orElse refusal op path x = .ok a ↔ refusal = none ∧ x = .ok a := by
  cases refusal <;> simp [orElse]

namespace Disk

variable {d d' d'' : Disk} {l l' : Location} {path : String}

/-! ## The view of a changed disk -/

@[simp] theorem workDir_put (n : DiskNode) : (d.put l n).workDir = d.workDir := rfl

@[simp] theorem workDir_erase : (d.erase l).workDir = d.workDir := rfl

/-- The places on the way to the working directory are directories whatever is put there. -/
@[grind =] theorem node?_put (n : DiskNode) :
    (d.put l n).node? l' =
      if l' = l ∧ l.isPrefixOf d.workDir = false then some n else d.node? l' := by
  by_cases h : l' = l
  · subst h
    cases hp : l'.isPrefixOf d.workDir <;> simp [node?, put, hp]
  · simp [node?, put, h]

@[grind =] theorem node?_erase :
    (d.erase l).node? l' =
      if l' = l ∧ l.isPrefixOf d.workDir = false then none else d.node? l' := by
  by_cases h : l' = l
  · subst h
    cases hp : l'.isPrefixOf d.workDir <;> simp [node?, erase, hp]
  · simp [node?, erase, h]

theorem node?_of_isPrefixOf (h : l.isPrefixOf d.workDir = true) :
    d.node? l = some .directory := by
  simp [node?, h]

@[simp] theorem node?_workDir : d.node? d.workDir = some .directory :=
  node?_of_isPrefixOf (by simp)

@[simp] theorem node?_root : d.node? [] = some .directory :=
  node?_of_isPrefixOf (by simp)

theorem isPrefixOf_eq_false (h : d.node? l ≠ some .directory) :
    l.isPrefixOf d.workDir = false :=
  Bool.eq_false_iff.mpr fun hp => h (node?_of_isPrefixOf hp)

@[simp] theorem node?_put_same (n : DiskNode) (h : d.node? l ≠ some .directory) :
    (d.put l n).node? l = some n := by
  simp [node?_put, isPrefixOf_eq_false h]

theorem node?_put_of_ne (n : DiskNode) (h : l' ≠ l) : (d.put l n).node? l' = d.node? l' := by
  simp [node?_put, h]

theorem node?_erase_of_ne (h : l' ≠ l) : (d.erase l).node? l' = d.node? l' := by
  simp [node?_erase, h]

/-! ## Frames -/

/-- The second disk is the first one but for the places in `changed`. Directories stay. -/
structure Frame (changed : Location → Prop) (d d' : Disk) : Prop where
  workDir : d'.workDir = d.workDir
  directory : ∀ l, d.node? l = some .directory → d'.node? l = some .directory
  same : ∀ l, ¬ changed l → d'.node? l = d.node? l

namespace Frame

variable {ch ch' : Location → Prop}

theorem refl (ch : Location → Prop) (d : Disk) : Frame ch d d :=
  ⟨rfl, fun _ h => h, fun _ _ => rfl⟩

theorem trans (h : Frame ch d d') (g : Frame ch d' d'') : Frame ch d d'' :=
  ⟨g.workDir.trans h.workDir, fun l hl => g.directory l (h.directory l hl),
    fun l hl => (g.same l hl).trans (h.same l hl)⟩

theorem mono (h : Frame ch d d') (hm : ∀ l, ch l → ch' l) : Frame ch' d d' :=
  ⟨h.workDir, h.directory, fun l hl => h.same l fun hc => hl (hm l hc)⟩

/-- Following names goes through directories only, so it still leads to the same place. -/
theorem follow {names : List String} {start : Location} (h : Frame ch d d')
    (hf : d.follow start names = .ok l) : d'.follow start names = .ok l := by
  induction names generalizing start with
  | nil => simpa [Disk.follow] using hf
  | cons name names ih =>
    unfold Disk.follow at hf ⊢
    match hn : d.node? start with
    | none => simp [hn] at hf
    | some (.file _ _) => simp [hn] at hf
    | some .directory =>
      rw [h.directory _ hn]
      rw [hn] at hf
      simp only at hf ⊢
      split_ifs at hf ⊢ <;> exact ih hf

theorem locate (h : Frame ch d d') (hl : d.locate path = .ok l) : d'.locate path = .ok l := by
  unfold Disk.locate at hl ⊢
  rw [h.workDir]
  split_ifs at hl ⊢ <;> exact h.follow hl

end Frame

/-! ## Paths that lead somewhere -/

@[grind =] theorem find_eq_ok {n : DiskNode} :
    d.find path = .ok (l, n) ↔ d.locate path = .ok l ∧ d.node? l = some n := by
  unfold find
  cases hl : d.locate path with
  | error e => simp
  | ok m =>
    simp only [Except.ok.injEq]
    cases hn : d.node? m with
    | none =>
      simp only [reduceCtorEq, false_iff, not_and]
      rintro rfl
      simp [hn]
    | some n' =>
      simp only [Except.ok.injEq, Prod.mk.injEq]
      constructor
      · rintro ⟨rfl, rfl⟩
        exact ⟨rfl, hn⟩
      · rintro ⟨rfl, h⟩
        exact ⟨rfl, Option.some.inj (hn.symm.trans h)⟩

@[grind =] theorem readFile_eq_ok {c : Bytes} :
    d.readFile path = .ok c ↔ ∃ l m, d.find path = .ok (l, .file c m) := by
  unfold readFile
  split <;> simp_all

theorem readFile_of_find {c : Bytes} {m : Nat} (h : d.find path = .ok (l, .file c m)) :
    d.readFile path = .ok c :=
  readFile_eq_ok.mpr ⟨l, m, h⟩

theorem Frame.find {ch : Location → Prop} {n : DiskNode} (h : Frame ch d d')
    (hf : d.find path = .ok (l, n)) (hl : ¬ ch l) : d'.find path = .ok (l, n) := by
  obtain ⟨hp, hn⟩ := find_eq_ok.mp hf
  exact find_eq_ok.mpr ⟨h.locate hp, (h.same l hl).trans hn⟩

/-! ## Single operations -/

/-- Putting something where no directory was changes that place only. -/
theorem frame_put (n : DiskNode) (h : d.node? l ≠ some .directory) :
    Frame (· = l) d (d.put l n) where
  workDir := rfl
  directory l' hl' := by
    have hne : l' ≠ l := fun he => h (he ▸ hl')
    rw [node?_put_of_ne n hne, hl']
  same l' hl' := node?_put_of_ne n hl'

theorem frame_erase (h : d.node? l ≠ some .directory) : Frame (· = l) d (d.erase l) where
  workDir := rfl
  directory l' hl' := by
    have hne : l' ≠ l := fun he => h (he ▸ hl')
    rw [node?_erase_of_ne hne, hl']
  same l' hl' := node?_erase_of_ne hl'

theorem writeFile_eq_ok {content : Bytes} {mode : Nat}
    (h : d.writeFile path content mode = .ok d') :
    ∃ l m, d.locate path = .ok l ∧ d.node? l ≠ some .directory ∧
      d' = d.put l (.file content m) := by
  unfold writeFile at h
  cases hl : d.locate path with
  | error e => simp [hl] at h
  | ok l =>
    rw [hl] at h
    simp only at h
    split at h
    · simp at h
    · rename_i old ho
      exact ⟨l, old, rfl, by simp [ho], by simpa using h.symm⟩
    · rename_i ho
      exact ⟨l, mode % 512, rfl, by simp [ho], by simpa using h.symm⟩

/-- Making directories adds places and changes none. -/
theorem frame_makeDir (h : d.makeDir path = .ok d') :
    Frame (fun l => d.node? l = none) d d' := by
  unfold makeDir at h
  cases hl : d.locate path with
  | error e => simp [hl] at h
  | ok l =>
    rw [hl] at h
    simp only at h
    split at h
    · cases h
      exact .refl _ _
    · simp at h
    · rename_i hn
      cases h
      exact (frame_put .directory (by simp [hn])).mono fun l' hl' => by rw [hl', hn]

theorem frame_makeEach (refused : String → Option Refusal) (paths : List String) (d : Disk) :
    Frame (fun l => d.node? l = none) d (makeEach refused paths d).2 := by
  induction paths generalizing d with
  | nil => exact .refl _ _
  | cons p ps ih =>
    unfold makeEach
    cases hp : Refusal.orElse (refused p) "mkdir" p (d.makeDir p) with
    | error f => exact .refl _ _
    | ok d₁ =>
      have first := frame_makeDir (Refusal.orElse_eq_ok.mp hp).2
      refine first.trans ((ih d₁).mono fun l hl => ?_)
      -- what is missing after the first step was missing before it
      by_contra hne
      exact hne ((first.same l hne).symm.trans hl)

theorem granted_of_makeEach {refused : String → Option Refusal} {paths : List String}
    (h : makeEach refused paths d = (none, d')) : ∀ p ∈ paths, refused p = none := by
  induction paths generalizing d with
  | nil => simp
  | cons p ps ih =>
    unfold makeEach at h
    cases hp : Refusal.orElse (refused p) "mkdir" p (d.makeDir p) with
    | error f => simp [hp] at h
    | ok d₁ =>
      rw [hp] at h
      exact List.forall_mem_cons.mpr ⟨(Refusal.orElse_eq_ok.mp hp).1, ih h⟩

/-- Making directories makes no files. -/
theorem file_of_makeDir (h : d.makeDir path = .ok d') {c : Bytes} {m : Nat}
    (hfile : d'.node? l = some (.file c m)) : d.node? l = some (.file c m) := by
  unfold makeDir at h
  cases hl : d.locate path with
  | error e => simp [hl] at h
  | ok l' =>
    rw [hl] at h
    simp only at h
    split at h
    · cases h
      exact hfile
    · simp at h
    · cases h
      rw [node?_put] at hfile
      split_ifs at hfile
      · simp at hfile
      · exact hfile

theorem file_of_makeEach (refused : String → Option Refusal) (paths : List String) {c : Bytes}
    {m : Nat} (hfile : (makeEach refused paths d).2.node? l = some (.file c m)) :
    d.node? l = some (.file c m) := by
  induction paths generalizing d with
  | nil => exact hfile
  | cons p ps ih =>
    unfold makeEach at hfile
    cases hp : Refusal.orElse (refused p) "mkdir" p (d.makeDir p) with
    | error f => simpa only [hp] using hfile
    | ok d₁ =>
      rw [hp] at hfile
      exact file_of_makeDir (Refusal.orElse_eq_ok.mp hp).2 (ih hfile)

/-! ## Listings -/

@[simp, grind =] theorem mem_children {name : String} {n : DiskNode} :
    (name, n) ∈ d.children l ↔ (l ++ [name], n) ∈ d.nodes := by
  have hname : ∀ l', nameIn? l l' = some name ↔ l' = l ++ [name] := by
    intro l'
    unfold nameIn?
    constructor
    · intro h
      split_ifs at h with hdir
      rw [← hdir]
      exact (List.dropLast_append_getLast? name h).symm
    · rintro rfl
      simp
  simp only [children, List.mem_mergeSort, List.mem_filterMap, Prod.exists, Option.map_eq_some_iff,
    Prod.mk.injEq]
  constructor
  · rintro ⟨l', n', hmem, name', hl', rfl, rfl⟩
    rwa [← (hname l').mp hl']
  · intro h
    exact ⟨_, _, h, name, (hname _).mpr rfl, rfl, rfl⟩

end Disk

end Deadwood
