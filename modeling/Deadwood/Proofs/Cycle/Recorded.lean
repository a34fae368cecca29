import Deadwood.Proofs.Cycle.Nesting

/-!
# Recorded paths

The path of a file may be recorded from the root of the file system or from the root of the code
base. Boundaries that know the root of the code base see the same path in both cases, so a file
belongs to the same layer and the same module, and a cycle is classified alike.

## Main definitions

* `IsRootPath`: a root that paths of files can start with.
* `IsInnerPath`: a path from the root of the code base.
* `FunctionRecord.under`: a function whose path is recorded from the root of the file system.

## Main results

* `Boundaries.relative_of_isInnerPath`, `Boundaries.relative_under`: the path that boundaries see.
* `ClassifiedCycle.ofCycle_under`: cycles by the boundaries that they cross.
* `recorded_paths_classify_alike`: layers, modules and cycles.
-/

namespace Deadwood

/-! ## Removing known ends -/

namespace Text

variable {start stop s t : String}

@[simp] theorem stripStart?_eq_some_iff : stripStart? start s = some t ↔ start ++ t = s := by
  simp only [stripStart?, Option.map_eq_some_iff, List.isPrefixOf?_eq_some_iff_append_eq]
  constructor
  · rintro ⟨rest, hrest, rfl⟩
    exact String.toList_injective (by simpa using hrest)
  · rintro rfl
    exact ⟨t.toList, by simp, by simp⟩

@[simp] theorem stripEnd?_eq_some_iff : stripEnd? stop s = some t ↔ t ++ stop = s := by
  simp only [stripEnd?, Option.map_eq_some_iff, List.isSuffixOf?_eq_some_iff_append_eq]
  constructor
  · rintro ⟨rest, hrest, rfl⟩
    exact String.toList_injective (by simpa using hrest)
  · rintro rfl
    exact ⟨t.toList, by simp, by simp⟩

@[simp] theorem stripStart_append (start s : String) : stripStart start (start ++ s) = s := by
  rw [stripStart, stripStart?_eq_some_iff.mpr rfl, Option.getD_some]

@[simp] theorem stripEnd_append_self (s stop : String) : stripEnd stop (s ++ stop) = s := by
  rw [stripEnd, stripEnd?_eq_some_iff.mpr rfl, Option.getD_some]

theorem stripStart_of_not_startsWith (h : startsWith start s = false) :
    stripStart start s = s := by
  have hnone : stripStart? start s = none := by
    rw [← Option.not_isSome_iff_eq_none, stripStart?, Option.isSome_map,
      List.isSome_isPrefixOf?_eq_isPrefixOf]
    exact Bool.eq_false_iff.mp h
  rw [stripStart, hnone, Option.getD_none]

theorem stripEnd_of_not_endsWith (h : endsWith stop s = false) : stripEnd stop s = s := by
  have hnone : stripEnd? stop s = none := by
    rw [← Option.not_isSome_iff_eq_none, stripEnd?, Option.isSome_map,
      List.isSome_isSuffixOf?_eq_isSuffixOf]
    exact Bool.eq_false_iff.mp h
  rw [stripEnd, hnone, Option.getD_none]

/-- What stands before a text does not change how it ends. -/
theorem stripEnd_append (start : String) (h : stop.length ≤ s.length) :
    stripEnd stop (start ++ s) = start ++ stripEnd stop s := by
  by_cases hends : endsWith stop s = true
  · obtain ⟨front, hfront⟩ := List.isSuffixOf_iff_suffix.mp hends
    obtain rfl : String.ofList front ++ stop = s := String.toList_injective (by simpa using hfront)
    rw [← String.append_assoc, stripEnd_append_self, stripEnd_append_self]
  · have hends' : endsWith stop (start ++ s) = false := by
      refine Bool.eq_false_iff.mpr fun hlong => hends ?_
      have hstop : stop.toList <:+ start.toList ++ s.toList := by
        simpa [endsWith] using hlong
      have hlength : stop.toList.length ≤ s.toList.length := by
        simpa only [String.length_toList] using h
      exact List.isSuffixOf_iff_suffix.mpr
        (List.suffix_of_suffix_length_le hstop (List.suffix_append _ _) hlength)
    rw [stripEnd_of_not_endsWith hends', stripEnd_of_not_endsWith (Bool.eq_false_iff.mpr hends)]

end Text

open Text

/-! ## Paths -/

/-- A path from the root of the file system that does not end in a slash. -/
structure IsRootPath (root : String) : Prop where
  isAbsolute : Path.isAbsolute root = true
  noSlash : endsWith "/" root = false

instance (root : String) : Decidable (IsRootPath root) :=
  decidable_of_iff (Path.isAbsolute root = true ∧ endsWith "/" root = false)
    ⟨fun ⟨a, b⟩ => ⟨a, b⟩, fun ⟨a, b⟩ => ⟨a, b⟩⟩

/-- A path from the root of the code base. -/
structure IsInnerPath (path : String) : Prop where
  nonempty : path ≠ ""
  isRelative : Path.isAbsolute path = false
  noDot : startsWith "./" path = false

instance (path : String) : Decidable (IsInnerPath path) :=
  decidable_of_iff (path ≠ "" ∧ Path.isAbsolute path = false ∧ startsWith "./" path = false)
    ⟨fun ⟨a, b, c⟩ => ⟨a, b, c⟩, fun ⟨a, b, c⟩ => ⟨a, b, c⟩⟩

variable {root path : String} {rules : List LayerRule}

theorem IsRootPath.ne_empty (h : IsRootPath root) : root ≠ "" := by
  rintro rfl
  exact absurd h.isAbsolute (by decide)

theorem IsRootPath.isAbsolute_append (h : IsRootPath root) (s : String) :
    Path.isAbsolute (root ++ s) = true :=
  (Path.isAbsolute_append h.ne_empty).trans h.isAbsolute

/-- Nothing is removed at the start of a path from the root of the file system. -/
theorem plainPath_of_isAbsolute (h : Path.isAbsolute path = true) :
    plainPath path = stripEnd "/" path := by
  obtain ⟨rest, hrest⟩ := List.isPrefixOf_iff_prefix.mp h
  have hdot : startsWith "./" path = false := by
    simp [startsWith, ← hrest, List.isPrefixOf]
  rw [plainPath, stripStart_of_not_startsWith hdot]

theorem plainPath_of_isInnerPath (h : IsInnerPath path) : plainPath path = stripEnd "/" path := by
  rw [plainPath, stripStart_of_not_startsWith h.noDot]

theorem isAbsolute_stripEnd_slash (h : IsInnerPath path) :
    Path.isAbsolute (stripEnd "/" path) = false := by
  by_cases hends : endsWith "/" path = true
  · obtain ⟨front, hfront⟩ := List.isSuffixOf_iff_suffix.mp hends
    obtain rfl : String.ofList front ++ "/" = path :=
      String.toList_injective (by simpa using hfront)
    have hrelative := h.isRelative
    rw [stripEnd_append_self]
    by_cases hempty : String.ofList front = ""
    · rw [hempty]
      decide
    · rwa [Path.isAbsolute_append hempty] at hrelative
  · rw [stripEnd_of_not_endsWith (Bool.eq_false_iff.mpr hends)]
    exact h.isRelative

/-- A path from the root of the file system is not the start of another path. -/
theorem stripStart_of_isAbsolute {q : String} (hroot : Path.isAbsolute root = true)
    (hq : Path.isAbsolute q = false) : stripStart root q = q := by
  refine stripStart_of_not_startsWith (Bool.eq_false_iff.mpr fun hstarts => ?_)
  have hslash := (List.isPrefixOf_iff_prefix.mp hroot).trans (List.isPrefixOf_iff_prefix.mp hstarts)
  exact Bool.eq_false_iff.mp hq (List.isPrefixOf_iff_prefix.mpr hslash)

namespace Boundaries

theorem ofRoot_eq (h : IsRootPath root) (rules : List LayerRule) :
    ofRoot root rules = ⟨root, rules⟩ := by
  rw [ofRoot, plainPath_of_isAbsolute h.isAbsolute, stripEnd_of_not_endsWith h.noSlash]

/-- A slash at the end of the root says nothing. -/
theorem ofRoot_slash (h : IsRootPath root) (rules : List LayerRule) :
    ofRoot (root ++ "/") rules = ofRoot root rules := by
  rw [ofRoot_eq h, ofRoot, plainPath_of_isAbsolute (h.isAbsolute_append "/"), stripEnd_append_self]

/-- A path from the root of the code base is seen as it is. -/
theorem relative_of_isInnerPath {b : Boundaries} (hb : b.rootDir = "" ∨ IsRootPath b.rootDir)
    (h : IsInnerPath path) : b.relative path = stripEnd "/" path := by
  have hrelative := isAbsolute_stripEnd_slash h
  have hslash : stripStart "/" (stripEnd "/" path) = stripEnd "/" path :=
    stripStart_of_isAbsolute (by decide) hrelative
  rw [relative, plainPath_of_isInnerPath h]
  split_ifs with hempty
  · exact hslash
  · have hroot := hb.resolve_left hempty
    rw [stripStart_of_isAbsolute (hroot.isAbsolute_append "/") hrelative, hslash]

/-- So is one from the root of the file system, without the root of the code base. -/
theorem relative_under {b : Boundaries} (hb : IsRootPath b.rootDir) (h : IsInnerPath path) :
    b.relative (b.rootDir ++ "/" ++ path) = stripEnd "/" path := by
  have hplain : plainPath (b.rootDir ++ "/" ++ path) = b.rootDir ++ "/" ++ stripEnd "/" path := by
    have hlength : "/".length ≤ path.length :=
      Nat.one_le_iff_ne_zero.mpr (by simpa using h.nonempty)
    rw [plainPath_of_isAbsolute (by rw [String.append_assoc]; exact hb.isAbsolute_append _),
      stripEnd_append _ hlength]
  rw [relative, hplain]
  simp only [if_neg hb.ne_empty, stripStart_append]
  exact stripStart_of_isAbsolute (by decide) (isAbsolute_stripEnd_slash h)

/-- Boundaries with the same rules that see the same path agree on it. -/
theorem resolve_congr {b b' : Boundaries} {p q : String} (hrules : b.rules = b'.rules)
    (hpath : b.relative p = b'.relative q) : b.resolve p = b'.resolve q := by
  simp only [resolve, ruleFor?, hrules, hpath]

theorem resolve_under {b : Boundaries} (hb : IsRootPath b.rootDir) (h : IsInnerPath path) :
    b.resolve (b.rootDir ++ "/" ++ path) = b.resolve path :=
  resolve_congr rfl ((relative_under hb h).trans (relative_of_isInnerPath (.inr hb) h).symm)

end Boundaries

/-! ## Cycles -/

/-- The function with its path recorded below a root. -/
def FunctionRecord.under (root : String) (f : FunctionRecord) : FunctionRecord :=
  { f with filePath := root ++ "/" ++ f.filePath }

namespace ClassifiedCycle

variable {idx idx' : FunctionIndex} {c : Cycle}

theorem distinctCount_map_congr {α : Type} {f g : α → String} {as : List α}
    (h : ∀ x ∈ as, ∀ y ∈ as, f x = f y ↔ g x = g y) :
    distinctCount (as.map f) = distinctCount (as.map g) :=
  Nat.le_antisymm (distinctCount_map_le fun x hx y hy => (h x hx y hy).mpr)
    (distinctCount_map_le fun x hx y hy => (h x hx y hy).mp)

/-- A cycle is classified alike if the paths of its functions are recorded below the root. -/
theorem ofCycle_under {b : Boundaries} (hb : IsRootPath b.rootDir)
    (hget : ∀ id ∈ c, idx'.get? id = (idx.get? id).map (·.under b.rootDir))
    (hpaths : ∀ f ∈ c.filterMap idx.get?, IsInnerPath f.filePath) :
    ofCycle idx' b c = ofCycle idx b c := by
  have hfunctions : c.filterMap idx'.get? = (c.filterMap idx.get?).map (·.under b.rootDir) := by
    rw [List.map_filterMap]
    exact List.filterMap_congr hget
  have hnames : (c.map fun id => ((idx'.get? id).map (·.displayName)).getD id) =
      c.map fun id => ((idx.get? id).map (·.displayName)).getD id := by
    refine List.map_congr_left fun id hid => ?_
    rw [hget id hid, Option.map_map]
    rfl
  have hfiles : distinctCount ((c.filterMap idx'.get?).map (·.filePath)) =
      distinctCount ((c.filterMap idx.get?).map (·.filePath)) := by
    rw [hfunctions, List.map_map]
    refine distinctCount_map_congr fun f _ g _ => ?_
    simp [FunctionRecord.under]
  have hplaces : ∀ place : String × String → String,
      (c.filterMap idx'.get?).map (fun f => place (b.resolve f.filePath)) =
        (c.filterMap idx.get?).map fun f => place (b.resolve f.filePath) := by
    intro place
    rw [hfunctions, List.map_map]
    exact List.map_congr_left fun f hf => congrArg place (Boundaries.resolve_under hb (hpaths f hf))
  have hcomplexity : (c.filterMap idx'.get?).foldl (fun sum f => Word.wrap (sum + f.complexity)) 0 =
      (c.filterMap idx.get?).foldl (fun sum f => Word.wrap (sum + f.complexity)) 0 := by
    rw [hfunctions, List.foldl_map]
    rfl
  have hmodules : (c.filterMap idx'.get?).map (fun f => b.module f.filePath) =
      (c.filterMap idx.get?).map fun f => b.module f.filePath := hplaces Prod.snd
  have hlayers : (c.filterMap idx'.get?).map (fun f => b.layer f.filePath) =
      (c.filterMap idx.get?).map fun f => b.layer f.filePath := hplaces Prod.fst
  rw [ofCycle, ofCycle, hnames, hfiles, hmodules, hlayers, hcomplexity]

end ClassifiedCycle

/-- A slash at the end of the root of a code base says nothing. With any rules, a file belongs to
the same layer and the same module whether its path is recorded from the root of the file system or
from the root of the code base; they are those that it has without a root, so the directories of the
root itself do not count. A cycle whose functions are all recorded in the one way has the same
classification as if they were all recorded in the other way: as many modules and layers, the same
importance and the same score. -/
theorem recorded_paths_classify_alike (root : String) (rules : List LayerRule)
    (hroot : IsRootPath root) :
    let b := Boundaries.ofRoot root rules
    Boundaries.ofRoot (root ++ "/") rules = b ∧
    (∀ path, IsInnerPath path →
      b.layer (root ++ "/" ++ path) = b.layer path ∧
      b.module (root ++ "/" ++ path) = b.module path ∧
      b.resolve path = (Boundaries.ofRoot "" rules).resolve path) ∧
    ∀ (idx idx' : FunctionIndex) (c : Cycle),
      (∀ id ∈ c, idx'.get? id = (idx.get? id).map (·.under root)) →
      (∀ f ∈ c.filterMap idx.get?, IsInnerPath f.filePath) →
      ClassifiedCycle.ofCycle idx' b c = ClassifiedCycle.ofCycle idx b c := by
  intro b
  have hb : b = ⟨root, rules⟩ := Boundaries.ofRoot_eq hroot rules
  have hnone : (Boundaries.ofRoot "" rules).rootDir = "" := (by decide : plainPath "" = "")
  refine ⟨Boundaries.ofRoot_slash hroot rules, fun path hpath => ?_, ?_⟩
  · rw [hb]
    have hunder := Boundaries.resolve_under (b := ⟨root, rules⟩) hroot hpath
    refine ⟨congrArg Prod.fst hunder, congrArg Prod.snd hunder, Boundaries.resolve_congr rfl ?_⟩
    rw [Boundaries.relative_of_isInnerPath (.inr hroot) hpath,
      Boundaries.relative_of_isInnerPath (.inl hnone) hpath]
  · intro idx idx' c hget hpaths
    rw [hb]
    exact ClassifiedCycle.ofCycle_under hroot hget hpaths

/-- The root lies below directories named `src` and `lib`, one of the functions below another `lib`,
and a rule names the layer of the other one. -/
theorem recorded_paths_classify_alike_lib :
    let root := "/home/src/tool/lib"
    let b := Boundaries.ofRoot root [⟨"cmd/**", "shell"⟩]
    let f : FunctionRecord := { id := "f", filePath := "lib/graph/walk.go" }
    let g : FunctionRecord := { id := "g", filePath := "cmd/run.go" }
    let idx := FunctionIndex.ofList [f, g]
    let idx' := FunctionIndex.ofList [f.under root, g.under root]
    IsRootPath root ∧ IsInnerPath f.filePath ∧ IsInnerPath g.filePath ∧
      b.layer (root ++ "/" ++ f.filePath) = "graph" ∧
      b.layer (root ++ "/" ++ g.filePath) = "shell" ∧
      ClassifiedCycle.ofCycle idx' b ["f", "g"] = ClassifiedCycle.ofCycle idx b ["f", "g"] := by
  intro root b f g idx idx'
  have hroot : IsRootPath root := by decide
  have hf : IsInnerPath f.filePath := by decide
  have hg : IsInnerPath g.filePath := by decide
  have hlayers : b.layer f.filePath = "graph" ∧ b.layer g.filePath = "shell" := by decide +kernel
  have hget : ∀ id ∈ ["f", "g"], idx'.get? id = (idx.get? id).map (·.under root) := by
    decide +kernel
  have hfunctions : ["f", "g"].filterMap idx.get? = [f, g] := by decide +kernel
  obtain ⟨-, hpaths, hcycles⟩ := recorded_paths_classify_alike root [⟨"cmd/**", "shell"⟩] hroot
  exact ⟨hroot, hf, hg, (hpaths _ hf).1.trans hlayers.1, (hpaths _ hg).1.trans hlayers.2,
    hcycles idx idx' ["f", "g"] hget (by simp [hfunctions, hf, hg])⟩

end Deadwood
