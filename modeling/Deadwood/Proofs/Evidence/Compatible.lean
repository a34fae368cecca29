import Deadwood.Proofs.Evidence.Score
import Deadwood.Proofs.Evidence.Session
import Deadwood.Proofs.Pruning.Select

/-!
# Compatible and incompatible evidence

One compatible override of a known kind keeps a function, whatever else is known of it. Overrides
that are not compatible with their targets count for nothing in the choice of the class and in its
targets. They do count in one place: the classes that implement their interfaces are among those
that share an interface with the function, and every such class but one is worth a step.

## Main definitions

* `TypeFacts.dropIncompatible`: the type relations without the incompatible overrides of a function.
* `TypeFacts.SharesInterface`: the classes that share an interface with some overrides.

## Main results

* `select_spares_compatible_overrides`: functions with compatible overrides are no candidates.
* `TypeFacts.steps_dropIncompatible`: what incompatible overrides are worth.
* `score_dropIncompatible`: when they raise a score.
-/

namespace Deadwood

open TypeFacts

variable {R : Type}

/-! ## Compatible evidence -/

/-- With a threshold of at most 0.7, a function with a compatible override of a known kind is no
candidate. Without one its score is zero and there is no reason to keep it. The first class, in the
order of strength, with a compatible override decides on score and reason. -/
theorem select_spares_compatible_overrides (t : TypeFacts Rat) (failClosed : Bool)
    (o : PruneOptions Rat) (fs : List FunctionRecord) (edges : List (CallEdge Rat))
    (f : FunctionRecord) (hthreshold : o.protectionThreshold ≤ 0.7) :
    let evidenceOn := fun g : FunctionRecord => Evidence.of t.source failClosed o.snapshotId g.id
    let isSupported := ∃ m ∈ t.overridesOf f.id, m.kind.isKnown ∧ m.isCompatible
    (isSupported → ∀ c ∈ (select o fs edges (some evidenceOn)).candidates, c.function.id ≠ f.id) ∧
      (¬ isSupported → (evidenceOn f).score = 0 ∧ (evidenceOn f).reason = none) ∧
      (isSupported → ∃ c, t.deciding? f.id = some c ∧ (evidenceOn f).score = t.classScore f.id c ∧
        (evidenceOn f).reason =
          some (Evidence.describe c (t.group f.id c) (evidenceOn f).classes.length)) := by
  intro evidenceOn isSupported
  have hevidence : ∀ g, evidenceOn g = t.evidence g.id := fun g => Evidence.of_source t _ _ g.id
  have hdecides : isSupported → ∃ c, t.deciding? f.id = some c := by
    intro h
    rw [← Option.ne_none_iff_exists']
    exact fun hnone => deciding?_eq_none.mp hnone h
  refine ⟨fun h c hc hid => ?_, fun h => ?_, fun h => ?_⟩
  · obtain ⟨k, hk⟩ := hdecides h
    have hscore : (evidenceOn c.function).score = t.classScore f.id k := by
      rw [hevidence, hid, score_evidence, hk]
      rfl
    have hlow := (mem_select_candidates.mp hc).2 evidenceOn rfl
    rw [hscore] at hlow
    exact hlow (hthreshold.trans (k.le_scoreAfter _))
  · have hnone := deciding?_eq_none.mpr h
    rw [hevidence, score_evidence, reason_evidence, hnone]
    exact ⟨by norm_num, rfl⟩
  · obtain ⟨k, hk⟩ := hdecides h
    refine ⟨k, hk, ?_⟩
    rw [hevidence, score_evidence, reason_evidence, hk]
    exact ⟨rfl, rfl⟩

/-- A function that nothing calls, with one compatible override among others that do not count. -/
theorem select_spares_compatible_overrides_mixed :
    let t : TypeFacts Rat :=
      { overridesOf := fun _ =>
          [{ id := "o1", targetTypeId := "A", kind := .abstractImplement, confidence := 1 },
            { id := "o2", targetTypeId := "B", kind := .other "friend", isCompatible := true,
              confidence := 1 },
            { id := "o3", targetTypeName := "Shape", kind := .signatureImplement,
              isCompatible := true, confidence := 1 }]
        membersOf := fun _ => []
        implementorsOf := fun _ => [] }
    let o : PruneOptions Rat := {}
    let f : FunctionRecord :=
      { id := "f", name := "area", filePath := "a.go", startLine := 1, endLine := 2 }
    let evidenceOn := fun g : FunctionRecord => Evidence.of t.source false o.snapshotId g.id
    o.protectionThreshold ≤ 0.7 ∧ (select o [f] [] none).candidates.map (·.function.id) = ["f"] ∧
      (∀ c ∈ (select o [f] [] (some evidenceOn)).candidates, c.function.id ≠ "f") ∧
      t.deciding? "f" = some .parentMethod ∧
      (evidenceOn f).score = t.classScore "f" .parentMethod := by
  intro t o f evidenceOn
  have hthreshold : o.protectionThreshold ≤ 0.7 := le_refl _
  have hsupported : ∃ m ∈ t.overridesOf f.id, m.kind.isKnown ∧ m.isCompatible :=
    ⟨_, .tail _ (.tail _ (.head _)), rfl, rfl⟩
  have hdeciding : t.deciding? "f" = some .parentMethod := by decide
  obtain ⟨hspared, -, hdecided⟩ :=
    select_spares_compatible_overrides t false o [f] [] f hthreshold
  obtain ⟨c, hc, hscore, -⟩ := hdecided hsupported
  obtain rfl : .parentMethod = c := Option.some.inj (hdeciding.symm.trans hc)
  exact ⟨hthreshold, by decide +kernel, hspared hsupported, hdeciding, hscore⟩

/-! ## Incompatible evidence -/

/-- Of two lists of different items, one within the other, the larger has more items beyond the
first. -/
theorem length_sub_one_lt_iff {α : Type} {l l' : List α} (hl : l.Nodup) (hl' : l'.Nodup)
    (hsub : l' ⊆ l) :
    l'.length - 1 < l.length - 1 ↔ ∃ a ∈ l, a ∉ l' ∧ ∃ b ∈ l, b ≠ a := by
  constructor
  · intro h
    by_contra! hno
    -- nothing is new, or all that there is
    by_cases hall : l ⊆ l'
    · have hle := (hl.subperm hall).length_le
      omega
    · obtain ⟨a, ha, hnew⟩ : ∃ a ∈ l, a ∉ l' := by simpa [List.subset_def] using hall
      have honly : l ⊆ [a] := fun b hb => List.mem_singleton.mpr (hno a ha hnew b hb)
      have hle := (hl.subperm honly).length_le
      rw [List.length_singleton] at hle
      omega
  · rintro ⟨a, ha, hnew, b, hb, hne⟩
    have hmore := ((List.nodup_cons.mpr ⟨hnew, hl'⟩).subperm
      (List.cons_subset.mpr ⟨ha, hsub⟩)).length_le
    have htwo : [a, b].length ≤ l.length :=
      (List.Nodup.subperm (by simp [hne.symm]) (by simp [ha, hb])).length_le
    simp only [List.length_cons, List.length_nil] at hmore htwo
    omega

namespace TypeFacts

/-- The type relations without the incompatible overrides of a function. -/
def dropIncompatible (t : TypeFacts R) (id : String) : TypeFacts R :=
  { t with overridesOf := fun k =>
      if k = id then (t.overridesOf k).filter (·.isCompatible) else t.overridesOf k }

/-- A class implements an interface of which some override is a method. -/
def SharesInterface (t : TypeFacts R) (os : List (MethodOverride R)) (classId : String) : Prop :=
  ∃ o ∈ os, o.kind = .implement ∧ o.targetTypeId ≠ "" ∧
    ∃ d ∈ t.implementorsOf o.targetTypeId, d.id = classId

section Classes

variable {t : TypeFacts R} {id : String} {c : EvidenceClass}

@[simp] theorem overridesOf_dropIncompatible :
    (t.dropIncompatible id).overridesOf id = (t.overridesOf id).filter (·.isCompatible) := by
  simp [dropIncompatible]

@[simp] theorem supports_dropIncompatible :
    (t.dropIncompatible id).supports id = t.supports id := by
  funext c
  simp [supports, List.any_filter, dropIncompatible, classOf, replacesAbstract]

@[simp] theorem deciding?_dropIncompatible :
    (t.dropIncompatible id).deciding? id = t.deciding? id := by
  rw [deciding?, supports_dropIncompatible, deciding?]

@[simp] theorem targetKeys_dropIncompatible :
    (t.dropIncompatible id).targetKeys id c = t.targetKeys id c := by
  have hclass : (t.dropIncompatible id).classOf = t.classOf := rfl
  simp only [targetKeys, overridesOf_dropIncompatible, hclass, List.filter_filter]
  congr 3
  funext o
  cases o.isCompatible <;> simp

@[grind =] theorem mem_interfaceIds {all : List (Classed R)} {i : String} :
    i ∈ EvidenceSession.interfaceIds all ↔
      ∃ o, (.interfaceMethod, o) ∈ all ∧ o.targetTypeId ≠ "" ∧ o.targetTypeId = i := by
  simp only [EvidenceSession.interfaceIds, mem_distinctTexts, List.mem_filterMap]
  constructor
  · rintro ⟨⟨c, o⟩, ho, hi⟩
    obtain ⟨⟨rfl, hid⟩, htarget⟩ :
        (c = .interfaceMethod ∧ o.targetTypeId ≠ "") ∧ o.targetTypeId = i := by
      simpa using hi
    exact ⟨o, ho, hid, htarget⟩
  · rintro ⟨o, ho, hid, rfl⟩
    exact ⟨(.interfaceMethod, o), ho, by simp [hid]⟩

@[simp] theorem classOf_eq_interfaceMethod {o : MethodOverride R} :
    t.classOf o = some .interfaceMethod ↔ o.kind = .implement := by
  unfold classOf
  cases o.kind with
  | override => split_ifs <;> simp
  | _ => simp

theorem mem_ids_implementors {os : List (MethodOverride R)} {k : String} :
    k ∈ (t.implementors (t.classed os)).map (·.id) ↔ t.SharesInterface os k := by
  rw [implementors, mem_keys_keepFirst, List.mem_map]
  simp only [List.mem_flatMap, mem_interfaceIds, mem_classed, classOf_eq_interfaceMethod]
  constructor
  · rintro ⟨d, ⟨_, ⟨o, ⟨ho, hkind⟩, hid, rfl⟩, hd⟩, hk⟩
    exact ⟨o, ho, hkind, hid, d, hd, hk⟩
  · rintro ⟨o, ho, hkind, hid, d, hd, hk⟩
    exact ⟨d, ⟨_, ⟨o, ⟨ho, hkind⟩, hid, rfl⟩, hd⟩, hk⟩

theorem length_classNames :
    (t.classNames id).length = ((t.implementors (t.allOf id)).map (·.id)).length := by
  simp [classNames, sortedTexts]

theorem SharesInterface.of_filter {os : List (MethodOverride R)} {k : String}
    (h : t.SharesInterface (os.filter (·.isCompatible)) k) : t.SharesInterface os k := by
  obtain ⟨o, ho, hshares⟩ := h
  exact ⟨o, (List.mem_filter.mp ho).1, hshares⟩

/-- Of the classes that share an interface, all but one are worth a step. Steps are lost with the
incompatible overrides if and only if a class is lost that is not the only one. -/
theorem classNames_dropIncompatible (t : TypeFacts R) (id : String) :
    ((t.dropIncompatible id).classNames id).length ≤ (t.classNames id).length ∧
      (((t.dropIncompatible id).classNames id).length - 1 < (t.classNames id).length - 1 ↔
        ∃ k, t.SharesInterface (t.overridesOf id) k ∧
          ¬ t.SharesInterface ((t.overridesOf id).filter (·.isCompatible)) k ∧
          ∃ k', t.SharesInterface (t.overridesOf id) k' ∧ k' ≠ k) := by
  have hkept : (t.dropIncompatible id).implementors ((t.dropIncompatible id).allOf id) =
      t.implementors (t.classed ((t.overridesOf id).filter (·.isCompatible))) := by
    rw [allOf, overridesOf_dropIncompatible]
    rfl
  have hnodup : ∀ all, ((t.implementors all).map (·.id)).Nodup := fun all =>
    nodup_keys_keepFirst _ _
  have hsub : (t.implementors (t.classed ((t.overridesOf id).filter (·.isCompatible)))).map (·.id) ⊆
      (t.implementors (t.allOf id)).map (·.id) := fun k hk =>
    mem_ids_implementors.mpr (mem_ids_implementors.mp hk).of_filter
  rw [length_classNames, length_classNames, hkept]
  refine ⟨((hnodup _).subperm hsub).length_le, ?_⟩
  rw [length_sub_one_lt_iff (hnodup _) (hnodup _) hsub]
  simp only [allOf, mem_ids_implementors]

end Classes

/-- Without the incompatible overrides, a class has no more steps, and fewer only if it is that of
methods of interfaces. -/
theorem steps_dropIncompatible (t : TypeFacts R) (id : String) (c : EvidenceClass) :
    (t.dropIncompatible id).steps id c ≤ t.steps id c ∧
      ((t.dropIncompatible id).steps id c < t.steps id c ↔ c = .interfaceMethod ∧
        ((t.dropIncompatible id).classNames id).length - 1 < (t.classNames id).length - 1) := by
  have hle := (classNames_dropIncompatible t id).1
  unfold steps
  rw [targetKeys_dropIncompatible]
  split_ifs with hc
  · simp only [hc, true_and]
    omega
  · simp [hc]

end TypeFacts

/-- The incompatible overrides of a function never lower its score. They raise it if and only if
methods of interfaces decide, the score without them is below the bound, and some class, which is
not the only one that shares an interface with the function, shares one through them alone. -/
theorem score_dropIncompatible [Scale R] [Scale.IsGraded R] (t : TypeFacts R) (failClosed : Bool)
    (snapshot id : String) :
    let full := Evidence.of t.source failClosed snapshot id
    let kept := Evidence.of (t.dropIncompatible id).source failClosed snapshot id
    kept.score ≤ full.score ∧
      (kept.score < full.score ↔ t.deciding? id = some .interfaceMethod ∧
        kept.score < (0.98 : R) ∧
        ∃ k, t.SharesInterface (t.overridesOf id) k ∧
          ¬ t.SharesInterface ((t.overridesOf id).filter (·.isCompatible)) k ∧
          ∃ k', t.SharesInterface (t.overridesOf id) k' ∧ k' ≠ k) := by
  intro full kept
  have hfull : full.score = ((t.deciding? id).map (t.classScore id)).getD 0.0 := by
    rw [← score_evidence, ← Evidence.of_source t failClosed snapshot id]
  have hkept : kept.score =
      ((t.deciding? id).map ((t.dropIncompatible id).classScore id)).getD 0.0 := by
    rw [← deciding?_dropIncompatible, ← score_evidence,
      ← Evidence.of_source _ failClosed snapshot id]
  rw [hfull, hkept, ← (classNames_dropIncompatible t id).2]
  cases t.deciding? id with
  | none => simp [Scale.IsGraded.zero_le_zero, Scale.IsGraded.not_zero_lt_zero]
  | some c =>
    simp only [Option.map_some, Option.getD_some, Option.some.injEq]
    obtain ⟨hle, hlt⟩ := steps_dropIncompatible t id c
    refine ⟨Scale.IsGraded.le c hle, ?_⟩
    rw [classScore, classScore, Scale.IsGraded.lt_iff, hlt]
    exact and_left_comm

/-- An override that is not compatible with its interface raises the score: the one class that
implements the interface is a second one beside the class of the compatible override. -/
theorem score_dropIncompatible_second_interface :
    let t : TypeFacts Float :=
      { overridesOf := fun _ =>
          [{ id := "o1", targetTypeId := "I", targetTypeName := "Store", kind := .implement,
             isCompatible := true, confidence := 1 },
            { id := "o2", targetTypeId := "J", targetTypeName := "Queue", kind := .implement,
              confidence := 1 }]
        membersOf := fun _ => []
        implementorsOf := fun i =>
          if i = "I" then [{ id := "A", name := "A" }] else [{ id := "B", name := "B" }] }
    (Evidence.of (t.dropIncompatible "f").source false "s" "f").score <
      (Evidence.of t.source false "s" "f").score := by
  intro t
  have hkept : (Evidence.of (t.dropIncompatible "f").source false "s" "f").score < 0.98 := by
    decide +kernel
  refine (score_dropIncompatible t false "s" "f").2.mpr
    ⟨by decide, hkept, "B", ?_, ?_, "A", ?_, by decide⟩
  · exact ⟨_, .tail _ (.head _), rfl, by decide, _, .head _, rfl⟩
  · rintro ⟨o, ho, -, -, d, hd, hid⟩
    obtain rfl : o = _ := by simpa [t] using ho
    obtain rfl : d = _ := by simpa [t] using hd
    simp at hid
  · exact ⟨_, .head _, rfl, by decide, _, .head _, rfl⟩

end Deadwood
