import Deadwood.Proofs.Evidence.Facts
import Deadwood.Proofs.Scale
import Deadwood.Proofs.Sorted
import Mathlib.Data.Rat.Cast.Order
import Mathlib.Tactic.Linarith
import Mathlib.Tactic.NormNum

/-!
# The score of type evidence

Evidence is decided by one class: the first one, in the order of strength, in which some override is
compatible with its target. The score is the least that the class gives, and a step for every
further target, up to a bound. It rises with every step below the bound, over exact and over
floating-point numbers. So whether a function has a score at all depends only on whether one of its
overrides is compatible and of a known kind.

## Main definitions

* `EvidenceClass.base`, `EvidenceClass.scoreAfter`: the scores of a class.
* `Scale.IsGraded`: scales on which scores rise.
* `TypeFacts.deciding?`: the class that decides.
* `TypeFacts.targetKeys`: the compatible targets of a class.
* `TypeFacts.classScore`: the score of a class.

## Main results

* `EvidenceGroup.mem_compatible_ofClass`, `EvidenceGroup.nodup_compatible_ofClass`: the compatible
  targets of a group.
* `TypeFacts.score_evidence`, `TypeFacts.reason_evidence`: score and reason of a function.
* `EvidenceClass.le_scoreAfter`: a class that decides protects.
-/

namespace Deadwood

variable {R : Type}

/-! ## Scores -/

/-- The least score of a class that decides. -/
def EvidenceClass.base [Scale R] : EvidenceClass → R
  | abstractMethod => 0.8
  | interfaceMethod => 0.8
  | parentMethod => 0.7

/-- The score of a class that decides, with some steps. -/
def EvidenceClass.scoreAfter [Scale R] (c : EvidenceClass) (steps : Nat) : R :=
  Scale.least (c.base + (0.05 : R) * Scale.count steps) (0.98 : R)

/-- Scores are above zero and rise with every step until they reach the bound. -/
class Scale.IsGraded (R : Type) [Scale R] : Prop where
  zero_le_zero : (0.0 : R) ≤ 0.0
  not_zero_lt_zero : ¬ (0.0 : R) < 0.0
  pos : ∀ (c : EvidenceClass) n, (0.0 : R) < c.scoreAfter n
  le : ∀ (c : EvidenceClass) {m n}, m ≤ n → (c.scoreAfter m : R) ≤ c.scoreAfter n
  lt_iff : ∀ (c : EvidenceClass) {m n},
    (c.scoreAfter m : R) < c.scoreAfter n ↔ (c.scoreAfter m : R) < 0.98 ∧ m < n

theorem EvidenceClass.scoreAfter_rat (c : EvidenceClass) (n : Nat) :
    (c.scoreAfter n : Rat) = min (c.base + 0.05 * (n : Rat)) 0.98 := by
  change Scale.least (c.base + 0.05 * (n : Rat)) 0.98 = _
  unfold Scale.least
  grind

theorem EvidenceClass.le_scoreAfter (c : EvidenceClass) (n : Nat) :
    0.7 ≤ (c.scoreAfter n : Rat) := by
  have hsteps : (0 : Rat) ≤ n := Nat.cast_nonneg _
  rw [scoreAfter_rat]
  refine le_min ?_ (by norm_num)
  cases c <;> norm_num [base] <;> linarith

instance : Scale.IsGraded Rat where
  zero_le_zero := le_rfl
  not_zero_lt_zero := lt_irrefl _
  pos c n := lt_of_lt_of_le (by norm_num) (c.le_scoreAfter n)
  le c m n h := by
    have hsteps : (m : Rat) ≤ n := Nat.cast_le.mpr h
    rw [c.scoreAfter_rat, c.scoreAfter_rat]
    refine min_le_min_right _ ?_
    linarith
  lt_iff c m n := by
    have hsteps : c.base + 0.05 * (m : Rat) < c.base + 0.05 * n ↔ m < n := by
      rw [← Nat.cast_lt (α := Rat)]
      constructor <;> intro h <;> linarith
    rw [← hsteps, c.scoreAfter_rat, c.scoreAfter_rat]
    grind

/-- After sixteen steps, a score has reached the bound. -/
theorem EvidenceClass.scoreAfter_min (c : EvidenceClass) (n : Nat) :
    (c.scoreAfter n : Float) = c.scoreAfter (min n 16) := by
  rcases le_total n 16 with h | h
  · rw [min_eq_left h]
  have hbase : ∃ m h, (c.base : Float).toModel.unpack = .finite .positive m (-53) h ∧
      m.log2 = 52 := by
    cases c <;> exact ⟨_, _, rfl, by decide⟩
  have hbound : ∀ n, 16 ≤ n → (c.scoreAfter n : Float) = 0.98 := fun n hn =>
    if_neg (Float.not_add_mul_ofNat_lt hbase hn)
  rw [hbound n h, min_eq_right h, hbound 16 le_rfl]

theorem EvidenceClass.scoreAfter_of_le (c : EvidenceClass) : ∀ n < 17, ∀ m < 17,
    ((c.scoreAfter m : Float) < c.scoreAfter n ↔ (c.scoreAfter m : Float) < 0.98 ∧ m < n) ∧
      (m ≤ n → (c.scoreAfter m : Float) ≤ c.scoreAfter n) := by
  cases c <;> decide +kernel

instance : Scale.IsGraded Float where
  zero_le_zero := by decide
  not_zero_lt_zero := by decide
  pos c n := by
    have hpos : ∀ n < 17, (0.0 : Float) < c.scoreAfter n := by cases c <;> decide +kernel
    rw [c.scoreAfter_min]
    exact hpos _ (by omega)
  le c m n h := by
    rw [c.scoreAfter_min, c.scoreAfter_min n]
    exact (c.scoreAfter_of_le _ (by omega) _ (by omega)).2 (by omega)
  lt_iff c m n := by
    have hlast : ¬ (c.scoreAfter 16 : Float) < 0.98 := by cases c <;> decide +kernel
    rw [c.scoreAfter_min, c.scoreAfter_min n, (c.scoreAfter_of_le _ (by omega) _ (by omega)).1]
    refine and_congr_right fun hbelow => ?_
    have hfew : m < 16 := by
      by_contra hmany
      exact hlast (min_eq_right (not_lt.mp hmany) ▸ hbelow)
    omega

/-! ## The targets of a class -/

namespace EvidenceGroup

variable {g : EvidenceGroup} {k : String}

theorem mem_compatible_add {o : MethodOverride R} :
    k ∈ (g.add o).compatible.map (·.1) ↔
      k ∈ g.compatible.map (·.1) ∨ o.isCompatible ∧ k = o.targetKey := by
  unfold add
  split_ifs with h
  · rw [mem_keys_assign]
    simp [h]
  · simp [h]

theorem nodup_compatible_add {o : MethodOverride R} (h : (g.compatible.map (·.1)).Nodup) :
    ((g.add o).compatible.map (·.1)).Nodup := by
  unfold add
  split_ifs
  · exact nodup_keys_assign h
  · exact h

/-- The keys of the compatible targets after some overrides were added. -/
theorem compatible_foldl_add (os : List (Classed R)) (h : (g.compatible.map (·.1)).Nodup) :
    ((os.foldl (fun g o => g.add o.2) g).compatible.map (·.1)).Nodup ∧
      ∀ k, k ∈ (os.foldl (fun g o => g.add o.2) g).compatible.map (·.1) ↔
        k ∈ g.compatible.map (·.1) ∨ ∃ o ∈ os, o.2.isCompatible ∧ k = o.2.targetKey := by
  induction os generalizing g with
  | nil => simp [h]
  | cons o os ih =>
    obtain ⟨hnodup, hmem⟩ := ih (nodup_compatible_add (o := o.2) h)
    refine ⟨hnodup, fun k => ?_⟩
    rw [List.foldl_cons, hmem, mem_compatible_add, List.exists_mem_cons_iff, or_assoc]

variable {c : EvidenceClass} {all : List (Classed R)}

theorem mem_compatible_ofClass :
    k ∈ (ofClass c all).compatible.map (·.1) ↔
      ∃ o, (c, o) ∈ all ∧ o.isCompatible ∧ k = o.targetKey := by
  rw [ofClass, (compatible_foldl_add _ (by simp)).2]
  constructor
  · rintro (h | ⟨⟨c', o⟩, ho, hk⟩)
    · simp at h
    · obtain ⟨hall, rfl⟩ : (c', o) ∈ all ∧ c' = c := by simpa using ho
      exact ⟨o, hall, hk⟩
  · rintro ⟨o, ho, hk⟩
    exact .inr ⟨(c, o), by simpa using ho, hk⟩

theorem nodup_compatible_ofClass : ((ofClass c all).compatible.map (·.1)).Nodup :=
  (compatible_foldl_add _ (by simp)).1

end EvidenceGroup

namespace TypeFacts

@[simp, grind =] theorem mem_classed {t : TypeFacts R} {os : List (MethodOverride R)}
    {c : EvidenceClass} {o : MethodOverride R} :
    (c, o) ∈ t.classed os ↔ o ∈ os ∧ t.classOf o = some c := by
  simp [classed]

/-- A class has an override of a function that is compatible with its target. -/
def supports (t : TypeFacts R) (id : String) (c : EvidenceClass) : Bool :=
  (t.overridesOf id).any fun o => o.isCompatible && t.classOf o = some c

/-- The first class that has a compatible override. -/
def deciding? (t : TypeFacts R) (id : String) : Option EvidenceClass :=
  [EvidenceClass.abstractMethod, .interfaceMethod, .parentMethod].find? (t.supports id)

/-- What tells the compatible targets of a class apart, each once. -/
def targetKeys (t : TypeFacts R) (id : String) (c : EvidenceClass) : List String :=
  distinctTexts (((t.overridesOf id).filter fun o => o.isCompatible && t.classOf o = some c).map
    (·.targetKey))

/-- The targets of a class. -/
def group (t : TypeFacts R) (id : String) (c : EvidenceClass) : EvidenceGroup :=
  .ofClass c (t.allOf id)

section Classes

variable {t : TypeFacts R} {id : String} {c : EvidenceClass}

@[grind =] theorem supports_iff :
    t.supports id c ↔ ∃ o ∈ t.overridesOf id, o.isCompatible ∧ t.classOf o = some c := by
  simp [supports]

@[grind =] theorem mem_targetKeys {k : String} :
    k ∈ t.targetKeys id c ↔
      ∃ o ∈ t.overridesOf id, (o.isCompatible ∧ t.classOf o = some c) ∧ o.targetKey = k := by
  simp [targetKeys, and_assoc]

@[grind =] theorem mem_compatible_group {k : String} :
    k ∈ (t.group id c).compatible.map (·.1) ↔
      ∃ o ∈ t.overridesOf id, (o.isCompatible ∧ t.classOf o = some c) ∧ o.targetKey = k := by
  rw [group, EvidenceGroup.mem_compatible_ofClass]
  grind [allOf]

@[simp] theorem length_compatible_group :
    (t.group id c).compatible.length = (t.targetKeys id c).length := by
  have hkeys : ((t.group id c).compatible.map (·.1)).Perm (t.targetKeys id c) := by
    refine (List.perm_ext_iff_of_nodup EvidenceGroup.nodup_compatible_ofClass
      (nodup_distinctTexts _)).mpr fun k => ?_
    exact mem_compatible_group.trans mem_targetKeys.symm
  rw [← hkeys.length_eq, List.length_map]

@[simp] theorem compatible_group_eq_nil : (t.group id c).compatible = [] ↔ ¬ t.supports id c := by
  rw [← List.map_eq_nil_iff (f := (·.1)), List.eq_nil_iff_forall_not_mem, supports_iff]
  simp only [mem_compatible_group]
  constructor
  · rintro h ⟨o, ho, hsupports⟩
    exact h _ ⟨o, ho, hsupports, rfl⟩
  · rintro h k ⟨o, ho, hsupports, -⟩
    exact h ⟨o, ho, hsupports⟩

theorem deciding?_eq_none :
    t.deciding? id = none ↔ ¬ ∃ o ∈ t.overridesOf id, o.kind.isKnown ∧ o.isCompatible := by
  have hknown : ∀ o : MethodOverride R, o.kind.isKnown ↔ ∃ c, t.classOf o = some c := by
    intro o
    unfold classOf
    cases o.kind <;> simp [OverrideKind.isKnown]
  have hsome : (∃ o ∈ t.overridesOf id, o.kind.isKnown ∧ o.isCompatible) ↔
      ∃ c, t.supports id c := by
    simp only [hknown, supports_iff]
    grind
  rw [hsome, deciding?, List.find?_eq_none, not_exists]
  refine ⟨fun h c => h c ?_, fun h c _ => h c⟩
  cases c <;> simp

theorem supports_of_deciding? (h : t.deciding? id = some c) : t.supports id c :=
  List.find?_some h

end Classes

/-! ## The score of a function -/

/-- How many steps a class adds to its least score: one for every further compatible target and, for
methods of interfaces, one for every further class that shares an interface. -/
def steps (t : TypeFacts R) (id : String) (c : EvidenceClass) : Nat :=
  (t.targetKeys id c).length - 1 + if c = .interfaceMethod then (t.classNames id).length - 1 else 0

variable [Scale R]

/-- The score of a class that decides. -/
def classScore (t : TypeFacts R) (id : String) (c : EvidenceClass) : R :=
  c.scoreAfter (t.steps id c)

variable {t : TypeFacts R} {id : String} {c : EvidenceClass}

theorem score_group (base : R) (extra : Nat) :
    (t.group id c).score base extra =
      if t.supports id c then
        Scale.least (base + (0.05 : R) * Scale.count ((t.targetKeys id c).length - 1 + extra))
          (0.98 : R)
      else 0.0 := by
  unfold EvidenceGroup.score
  by_cases h : t.supports id c
  · have hsome : (t.group id c).compatible.isEmpty = false := by
      simpa using h
    simp [h, hsome]
  · have hnone : (t.group id c).compatible = [] := compatible_group_eq_nil.mpr h
    simp [h, hnone]

/-- The classes as they are weighed, with their targets and scores. -/
def entries (t : TypeFacts R) (id : String) : List (EvidenceClass × EvidenceGroup × R) :=
  [(.abstractMethod, t.group id .abstractMethod, (t.group id .abstractMethod).score 0.8 0),
    (.interfaceMethod, t.group id .interfaceMethod,
      (t.group id .interfaceMethod).score 0.8 ((t.classNames id).length - 1)),
    (.parentMethod, t.group id .parentMethod, (t.group id .parentMethod).score 0.7 0)]

variable [Scale.IsGraded R]

theorem find?_entries :
    (t.entries id).find? (fun e => (0.0 : R) < e.2.2) =
      (t.deciding? id).map fun c => (c, t.group id c, t.classScore id c) := by
  have hentries : t.entries id =
      [EvidenceClass.abstractMethod, .interfaceMethod, .parentMethod].map fun c =>
        (c, t.group id c, if t.supports id c then t.classScore id c else 0.0) := by
    simp [entries, score_group, classScore, EvidenceClass.scoreAfter, EvidenceClass.base, steps]
  -- a class without compatible overrides has no score, and any other a positive one
  have hscored : ∀ c, decide ((0.0 : R) < if t.supports id c then t.classScore id c else 0.0) =
      t.supports id c := by
    intro c
    have hpositive : (0.0 : R) < t.classScore id c := Scale.IsGraded.pos c _
    by_cases h : t.supports id c
    · simp [h, hpositive]
    · simp [h, Scale.IsGraded.not_zero_lt_zero]
  rw [hentries, List.find?_map]
  simp only [Function.comp_def, hscored]
  refine Option.map_congr fun c hc => ?_
  rw [if_pos (supports_of_deciding? hc)]

theorem score_evidence :
    (t.evidence id).score = ((t.deciding? id).map (t.classScore id)).getD 0.0 := by
  have hbest : (t.evidence id).score =
      (((t.entries id).find? (fun e => (0.0 : R) < e.2.2)).map (·.2.2)).getD 0.0 := rfl
  rw [hbest, find?_entries, Option.map_map]
  rfl

theorem reason_evidence :
    (t.evidence id).reason = (t.deciding? id).map fun c =>
      Evidence.describe c (t.group id c) (t.classNames id).length := by
  have hbest : (t.evidence id).reason =
      ((t.entries id).find? (fun e => (0.0 : R) < e.2.2)).map fun e =>
        Evidence.describe e.1 e.2.1 (t.classNames id).length := rfl
  rw [hbest, find?_entries, Option.map_map]
  rfl

end TypeFacts

end Deadwood
