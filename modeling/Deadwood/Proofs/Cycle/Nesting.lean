import Deadwood.Cycle.Classified
import Deadwood.Proofs.Path
import Deadwood.Proofs.Sorted
import Mathlib.Data.Finset.Card

/-!
# Modules inside layers

The name of a module consists of the parts of its layer's name and one or two further parts. So the
module of a file tells its layer, unless rules name one layer like a directory right below another
one: then the same module may belong to both of them. Otherwise a cycle touches at most as many
layers as modules, and one that crosses layers also crosses modules.

## Main definitions

* `IsRightBelow`: a layer that is named like a directory right below another one.
* `LayersApart`: rules without such layers.
* `Boundaries.IsModuleTail`: the parts of a module's name that follow those of its layer.
* `Boundaries.SplitsModule`: two files of one module in two such layers.

## Main results

* `Boundaries.exists_isModuleTail`: the parts of a module's name.
* `Boundaries.layer_eq_or_isRightBelow`: the layers of one module.
* `ClassifiedCycle.distinctCount_map_le`: what is told by something else has no more values.
* `modules_nest_iff`: the layers, modules and files of a cycle.
-/

namespace Deadwood

open Text

/-- A layer is named like a directory right below another one. -/
def IsRightBelow (inner outer : String) : Prop :=
  ∃ dir, '/' ∉ dir.toList ∧ inner = outer ++ "/" ++ dir

/-- No rule names a layer like a directory right below the layer of a rule. -/
def LayersApart (rules : List LayerRule) : Prop :=
  ∀ r ∈ rules, ∀ r' ∈ rules, ¬ IsRightBelow r.layer r'.layer

/-! ## Names by their parts -/

theorem Text.segments_inj {s t : String} (h : segments '/' s = segments '/' t) : s = t := by
  rw [← join_segments s, h, join_segments]

theorem IsRightBelow.ne {inner outer : String} (h : IsRightBelow inner outer) : inner ≠ outer := by
  obtain ⟨dir, -, rfl⟩ := h
  intro heq
  have hlength := congrArg String.length heq
  simp only [String.length_append] at hlength
  have hslash : "/".length = 1 := rfl
  omega

theorem isRightBelow_of_segments {s t part : String}
    (h : segments '/' s = segments '/' t ++ [part]) : IsRightBelow s t := by
  have hmem : part ∈ segments '/' s := h ▸ List.mem_concat_self
  have hpart := not_mem_of_mem_segments hmem
  refine ⟨part, hpart, segments_inj ?_⟩
  rw [segments_slash, segments_eq_singleton hpart, h]

theorem mem_of_mem_belowSource {dirs : List String} {d : String} (h : d ∈ belowSource dirs) :
    d ∈ dirs := by
  unfold belowSource at h
  split at h
  · exact h
  · rename_i first rest hdrop
    exact (List.dropWhile_suffix _).subset (hdrop ▸ List.mem_cons_of_mem first h)

/-- A module is its layer or has one part more. -/
theorem segments_layerAndModule {dirs : List String} (h : ∀ d ∈ dirs, '/' ∉ d.toList) :
    segments '/' (layerAndModule dirs).1 = [(layerAndModule dirs).1] ∧
      ∃ tail, tail.length ≤ 1 ∧
        segments '/' (layerAndModule dirs).2 = (layerAndModule dirs).1 :: tail := by
  rcases dirs with _ | ⟨d, _ | ⟨e, dirs⟩⟩
  · have hroot : segments '/' "(root)" = ["(root)"] := segments_eq_singleton (by decide)
    exact ⟨hroot, [], Nat.zero_le 1, hroot⟩
  · have hd := segments_eq_singleton (h d List.mem_cons_self)
    exact ⟨hd, [], Nat.zero_le 1, hd⟩
  · have hd := segments_eq_singleton (h d List.mem_cons_self)
    have he := segments_eq_singleton (h e (by simp))
    refine ⟨hd, [e], Nat.le_refl 1, ?_⟩
    simp only [layerAndModule]
    rw [segments_slash, hd, he]
    rfl

namespace Boundaries

variable {b : Boundaries} {p q : String} {tail tail' : List String}

/-- A rule names the layer of a file. -/
def IsNamed (b : Boundaries) (path : String) : Prop :=
  ∃ r ∈ b.rules, b.layer path = r.layer

/-- The parts of a module's name that follow those of its layer: one or two of them if a rule names
the layer, and at most one if the layer is a directory. -/
structure IsModuleTail (b : Boundaries) (path : String) (tail : List String) : Prop where
  eq_append : segments '/' (b.module path) = segments '/' (b.layer path) ++ tail
  length_le : tail.length ≤ 2
  cases : b.IsNamed path ∧ 1 ≤ tail.length ∨
    (segments '/' (b.layer path)).length = 1 ∧ tail.length ≤ 1

theorem exists_isModuleTail (b : Boundaries) (path : String) :
    ∃ tail, b.IsModuleTail path tail := by
  have hdirs : ∀ d ∈ belowSource (segments '/' (b.relative path)).dropLast, '/' ∉ d.toList :=
    fun d hd => not_mem_of_mem_segments (List.mem_of_mem_dropLast (mem_of_mem_belowSource hd))
  obtain ⟨hlayer, tail, htail, hmodule⟩ := segments_layerAndModule hdirs
  rcases hnames : layerAndModule (belowSource (segments '/' (b.relative path)).dropLast) with
    ⟨dir, below⟩
  rw [hnames] at hlayer hmodule
  cases hrule : b.ruleFor? (b.relative path) with
  | none =>
    have hresolve : b.resolve path = (dir, below) := by simp only [resolve, hnames, hrule]
    refine ⟨tail, ?_, htail.trans (by decide), .inr ⟨?_, htail⟩⟩
    · rw [module, layer, hresolve, hmodule, hlayer]
      rfl
    · rw [layer, hresolve, hlayer]
      rfl
  | some named =>
    obtain ⟨r, hr, rfl⟩ := Option.map_eq_some_iff.mp hrule
    have hresolve : b.resolve path = (r.layer, r.layer ++ "/" ++ below) := by
      simp only [resolve, hnames, hrule]
    refine ⟨dir :: tail, ?_, Nat.succ_le_succ htail, .inl ⟨⟨r, ?_, ?_⟩, Nat.le_add_left 1 _⟩⟩
    · rw [module, layer, hresolve, segments_slash, hmodule]
    · exact List.mem_of_find?_eq_some hr
    · rw [layer, hresolve]

/-- If one of two layers of a module has more parts than the other one, it has one part more, and
rules name both. -/
theorem IsModuleTail.compare (hp : b.IsModuleTail p tail) (hq : b.IsModuleTail q tail')
    {more : List String} (hlayers : segments '/' (b.layer q) = segments '/' (b.layer p) ++ more)
    (htails : tail = more ++ tail') :
    b.layer q = b.layer p ∨
      b.IsNamed p ∧ b.IsNamed q ∧ IsRightBelow (b.layer q) (b.layer p) := by
  have hpos := List.length_pos_iff.mpr (segments_ne_nil '/' (b.layer p))
  have hcount := congrArg List.length hlayers
  have hcount' := congrArg List.length htails
  rw [List.length_append] at hcount hcount'
  by_cases hmore : more = []
  · rw [hmore, List.append_nil] at hlayers
    exact .inl (segments_inj hlayers)
  have hmorePos := List.length_pos_iff.mpr hmore
  -- the longer name has at least two parts, so it is no directory
  obtain ⟨hnamedq, hlengthq⟩ : b.IsNamed q ∧ 1 ≤ tail'.length :=
    hq.cases.resolve_right fun hdirectory => by omega
  obtain ⟨hnamedp, -⟩ : b.IsNamed p ∧ 1 ≤ tail.length :=
    hp.cases.resolve_right fun hdirectory => by omega
  have hle := hp.length_le
  obtain ⟨part, rfl⟩ : ∃ part, more = [part] := List.length_eq_one_iff.mp (by omega)
  exact .inr ⟨hnamedp, hnamedq, isRightBelow_of_segments hlayers⟩

/-- Files of one module belong to one layer, or rules name one of their layers like a directory
right below the other one. -/
theorem layer_eq_or_isRightBelow (h : b.module p = b.module q) :
    b.layer p = b.layer q ∨ b.IsNamed p ∧ b.IsNamed q ∧
      (IsRightBelow (b.layer p) (b.layer q) ∨ IsRightBelow (b.layer q) (b.layer p)) := by
  obtain ⟨tail, hp⟩ := b.exists_isModuleTail p
  obtain ⟨tail', hq⟩ := b.exists_isModuleTail q
  have hparts : segments '/' (b.layer p) ++ tail = segments '/' (b.layer q) ++ tail' := by
    rw [← hp.eq_append, ← hq.eq_append, h]
  rcases List.append_eq_append_iff.mp hparts with ⟨more, hlayers, htails⟩ | ⟨more, hlayers, htails⟩
  · rcases hp.compare hq hlayers htails with heq | ⟨hnamed, hnamed', hbelow⟩
    · exact .inl heq.symm
    · exact .inr ⟨hnamed, hnamed', .inr hbelow⟩
  · rcases hq.compare hp hlayers htails with heq | ⟨hnamed, hnamed', hbelow⟩
    · exact .inl heq
    · exact .inr ⟨hnamed', hnamed, .inl hbelow⟩

/-- Two files belong to one module, but the layer of the first one is named like a directory right
below the layer of the second one. -/
def SplitsModule (b : Boundaries) (p q : String) : Prop :=
  b.module p = b.module q ∧ IsRightBelow (b.layer p) (b.layer q)

theorem layer_ne_iff (h : b.module p = b.module q) :
    b.layer p ≠ b.layer q ↔ b.SplitsModule p q ∨ b.SplitsModule q p := by
  constructor
  · intro hne
    obtain ⟨-, -, hbelow⟩ := (layer_eq_or_isRightBelow h).resolve_left hne
    exact hbelow.imp (⟨h, ·⟩) (⟨h.symm, ·⟩)
  · rintro (hsplits | hsplits)
    · exact hsplits.2.ne
    · exact hsplits.2.ne.symm

theorem not_splitsModule (hapart : LayersApart b.rules) : ¬ b.SplitsModule p q := by
  rintro ⟨hmodule, hbelow⟩
  obtain ⟨⟨r, hr, hp⟩, ⟨r', hr', hq⟩, -⟩ :=
    (layer_eq_or_isRightBelow hmodule).resolve_left hbelow.ne
  rw [hp, hq] at hbelow
  exact hapart r hr r' hr' hbelow

end Boundaries

/-! ## Cycles -/

namespace ClassifiedCycle

theorem distinctCount_eq_card (ss : List String) : distinctCount ss = ss.toFinset.card := by
  have hset : ss.toFinset = (distinctTexts ss).toFinset := by
    ext s
    simp
  rw [hset, List.toFinset_card_of_nodup (nodup_distinctTexts ss)]
  rfl

/-- What is told by something else has no more values. -/
theorem distinctCount_map_le {α : Type} {f g : α → String} {as : List α}
    (h : ∀ x ∈ as, ∀ y ∈ as, f x = f y → g x = g y) :
    distinctCount (as.map g) ≤ distinctCount (as.map f) := by
  rw [distinctCount_eq_card, distinctCount_eq_card]
  refine Finset.card_le_card_of_surjOn (fun s => ((as.find? (f · = s)).map g).getD "") ?_
  intro s hs
  obtain ⟨x, hx, rfl⟩ : ∃ x ∈ as, g x = s := by simpa using hs
  refine ⟨f x, by simpa using ⟨x, hx, rfl⟩, ?_⟩
  obtain ⟨y, hy⟩ : ∃ y, as.find? (f · = f x) = some y :=
    Option.isSome_iff_exists.mp (List.find?_isSome.mpr ⟨x, hx, by simp⟩)
  have hkey : f y = f x := by simpa using List.find?_some hy
  simp only [hy, Option.map_some, Option.getD_some]
  exact h y (List.mem_of_find?_eq_some hy) x hx hkey

theorem distinctCount_le_length (ss : List String) : distinctCount ss ≤ ss.length := by
  rw [distinctCount_eq_card]
  exact List.toFinset_card_le ss

variable {idx : FunctionIndex} {b : Boundaries} {c : Cycle}

theorem crossLayer_of_critical (h : (ofCycle idx b c).importance = .critical) :
    (ofCycle idx b c).crossLayer = true := by
  simp only [ofCycle, importanceOf] at h ⊢
  split_ifs at h with hlayers
  exact hlayers

theorem advice_of_crossModule (h : (ofCycle idx b c).crossModule = true) :
    "Extract shared logic into a common module" ∈ (ofCycle idx b c).recommendations := by
  simp only [ofCycle] at h ⊢
  simp [advice, h]

end ClassifiedCycle

/-- Two files of one module belong to different layers exactly if one of the layers is named like a
directory right below the other one, which needs two rules with such names. On every cycle there are
at most as many modules as files and at most as many files as functions. If no two of its functions
split a module, there are at most as many layers as modules, so that a cycle that crosses layers
crosses modules, and a critical one is advised on that. -/
theorem modules_nest_iff (root : String) (rules : List LayerRule) :
    let b := Boundaries.ofRoot root rules
    (∀ p q, b.module p = b.module q →
      (b.layer p ≠ b.layer q ↔ b.SplitsModule p q ∨ b.SplitsModule q p)) ∧
    (LayersApart rules → ∀ p q, ¬ b.SplitsModule p q) ∧
    ∀ (idx : FunctionIndex) (c : Cycle),
      let classified := ClassifiedCycle.ofCycle idx b c
      let functions := c.filterMap idx.get?
      classified.moduleCount ≤ classified.fileCount ∧
      classified.fileCount ≤ classified.nodes.length ∧
      (classified.crossModule → classified.crossFile) ∧
      ((∀ f ∈ functions, ∀ g ∈ functions, ¬ b.SplitsModule f.filePath g.filePath) →
        classified.layerCount ≤ classified.moduleCount ∧
        (classified.crossLayer → classified.crossModule) ∧
        (classified.importance = .critical →
          "Extract shared logic into a common module" ∈ classified.recommendations)) := by
  intro b
  refine ⟨fun p q h => Boundaries.layer_ne_iff h,
    fun hapart p q => Boundaries.not_splitsModule hapart, fun idx c => ?_⟩
  intro classified functions
  have hmodules : ClassifiedCycle.distinctCount (functions.map fun f => b.module f.filePath) ≤
      ClassifiedCycle.distinctCount (functions.map (·.filePath)) :=
    ClassifiedCycle.distinctCount_map_le fun f _ g _ h => congrArg b.module h
  have hfiles : ClassifiedCycle.distinctCount (functions.map (·.filePath)) ≤ c.length :=
    (ClassifiedCycle.distinctCount_le_length _).trans
      ((List.length_map _).trans_le (List.length_filterMap_le _ c))
  refine ⟨Int.ofNat_le.mpr hmodules, Int.ofNat_le.mpr hfiles, fun h => ?_, fun hsplits => ?_⟩
  · exact decide_eq_true (Nat.lt_of_lt_of_le (of_decide_eq_true h) hmodules)
  have hlayers : ClassifiedCycle.distinctCount (functions.map fun f => b.layer f.filePath) ≤
      ClassifiedCycle.distinctCount (functions.map fun f => b.module f.filePath) := by
    refine ClassifiedCycle.distinctCount_map_le fun f hf g hg h => ?_
    refine Decidable.not_not.mp fun hne => ?_
    exact ((Boundaries.layer_ne_iff h).mp hne).elim (hsplits f hf g hg) (hsplits g hg f hf)
  have hcross : classified.crossLayer → classified.crossModule :=
    fun h => decide_eq_true (Nat.lt_of_lt_of_le (of_decide_eq_true h) hlayers)
  refine ⟨Int.ofNat_le.mpr hlayers, hcross, fun h => ?_⟩
  exact ClassifiedCycle.advice_of_crossModule (hcross (ClassifiedCycle.crossLayer_of_critical h))

/-- Two rules name the layers `core/analysis` and `core`. A cycle between files of these layers
crosses layers but no modules. -/
theorem modules_nest_iff_core :
    let b := Boundaries.ofRoot "" [⟨"graph/**", "core/analysis"⟩, ⟨"analysis/**", "core"⟩]
    let p := "graph/walk.go"
    let q := "analysis/graph/visit.go"
    let idx := FunctionIndex.ofList [{ id := "f", filePath := p }, { id := "g", filePath := q }]
    let classified := ClassifiedCycle.ofCycle idx b ["f", "g"]
    b.SplitsModule p q ∧ b.layer p ≠ b.layer q ∧
      classified.crossLayer = true ∧ classified.crossModule = false := by
  intro b p q idx classified
  have hmodule : b.module p = b.module q := by decide +kernel
  have hlayers : b.layer p = "core/analysis" ∧ b.layer q = "core" := by decide +kernel
  have hsplits : b.SplitsModule p q := by
    refine ⟨hmodule, "analysis", by decide, ?_⟩
    rw [hlayers.1, hlayers.2]
    rfl
  have hne := ((modules_nest_iff "" b.rules).1 p q hmodule).mpr (.inl hsplits)
  have hfunctions : ["f", "g"].filterMap idx.get? =
      [{ id := "f", filePath := p }, { id := "g", filePath := q }] := by decide +kernel
  refine ⟨hsplits, hne, ?_, ?_⟩
  · change decide (1 < ClassifiedCycle.distinctCount _) = true
    rw [hfunctions, ClassifiedCycle.distinctCount_eq_card]
    simp [hlayers]
  · change decide (1 < ClassifiedCycle.distinctCount _) = false
    rw [hfunctions, ClassifiedCycle.distinctCount_eq_card]
    simp [hmodule]

end Deadwood
