import Deadwood.Proofs.Pruning.Callees
import Deadwood.Proofs.Scale

/-!
# Removing dead code

Candidates that nothing reaches may be removed, all of them or some. Calls that touch a removed
function no longer count, but no path from a root used such a call. So what is reached stays the
same, and a function that is dead afterwards was dead before. It may have lost the calls that
touched it; then it is isolated, which is less sure than that nothing reaches it.

## Main definitions

* `Candidate.IsDead`: a candidate that nothing reaches.
* `remaining`: the functions that are left.

## Main results

* `mem_validEdges_remove`: the calls that still count.
* `isRoot_remove`, `isReached_remove`: what is in use is so with or without dead code.
* `PruneReason.lt_of_confidence_lt`: a bound above the surest reason is above all of them.
* `select_remove_dead`: the candidates without some dead code.
-/

namespace Deadwood

open Relation (ReflTransGen)

/-- Nothing reaches a candidate. -/
def Candidate.IsDead {R : Type} (c : Candidate R) : Prop :=
  c.reason = .unreachable ∨ c.reason = .isolated

/-- The functions that are left without those of some ids. -/
def remaining (dead : List String) (fs : List FunctionRecord) : List FunctionRecord :=
  fs.filter (·.id ∉ dead)

variable {R : Type} {fs : List FunctionRecord} {edges : List (CallEdge R)} {dead : List String}
  {id : String}

/-! ## The functions and calls that are left -/

theorem exists_remove : (∃ f ∈ remaining dead fs, f.id = id) ↔
    (∃ f ∈ fs, f.id = id) ∧ id ∉ dead := by
  simp only [remaining, List.mem_filter, decide_eq_true_eq]
  constructor
  · rintro ⟨f, ⟨hf, hleft⟩, rfl⟩
    exact ⟨⟨f, hf, rfl⟩, hleft⟩
  · rintro ⟨⟨f, hf, rfl⟩, hleft⟩
    exact ⟨f, ⟨hf, hleft⟩, rfl⟩

theorem find?_remove (hleft : id ∉ dead) :
    (remaining dead fs).find? (·.id = id) = fs.find? (·.id = id) := by
  rw [remaining, List.find?_filter]
  congr 1
  funext f
  by_cases hid : f.id = id
  · simp [hid, hleft]
  · simp [hid]

@[grind =] theorem isValidCall_remove {e : CallEdge R} :
    IsValidCall (remaining dead fs) e ↔
      IsValidCall fs e ∧ ∀ id ∈ dead, ¬ e.Touches id := by
  simp only [IsValidCall, exists_remove, CallEdge.Touches]
  grind

/-- The calls that still count are those that touch no removed function. -/
@[grind =] theorem mem_validEdges_remove {e : CallEdge R} :
    e ∈ (FunctionIndex.ofList (remaining dead fs)).validEdges edges ↔
      e ∈ (FunctionIndex.ofList fs).validEdges edges ∧ ∀ id ∈ dead, ¬ e.Touches id := by
  rw [mem_validEdges, mem_validEdges, isValidCall_remove, and_assoc]

/-- A call that does not count is reported. -/
theorem exists_problem [Scale R] {o : PruneOptions R}
    {protector : Option (FunctionRecord → Evidence R)} {e : CallEdge R} (he : e ∈ edges)
    (hnot : e ∉ (FunctionIndex.ofList fs).validEdges edges) :
    ∃ p ∈ (select o fs edges protector).problems, p.caller = e.caller ∧ p.callee = e.callee := by
  have hproblems : (select o fs edges protector).problems =
      (FunctionIndex.ofList fs).edgeProblems edges := by
    cases protector <;> rfl
  have hsome : ((FunctionIndex.ofList fs).problem? e).isSome := by
    simpa [FunctionIndex.validEdges, he, Option.ne_none_iff_isSome] using hnot
  obtain ⟨p, hp⟩ := Option.isSome_iff_exists.mp hsome
  refine ⟨p, hproblems ▸ List.mem_filterMap.mpr ⟨e, he, hp⟩, ?_⟩
  unfold FunctionIndex.problem? at hp
  split_ifs at hp <;> obtain rfl := Option.some.inj hp <;> exact ⟨rfl, rfl⟩

/-! ## Code in use -/

section InUse

variable [Scale R] {o : PruneOptions R}

theorem isRoot_remove (hdead : ∀ id ∈ dead, ¬ IsRoot o fs id) :
    IsRoot o (remaining dead fs) id ↔ IsRoot o fs id := by
  constructor
  · rintro ⟨f, hf, hroot⟩
    exact ⟨f, List.mem_of_mem_filter hf, hroot⟩
  · rintro ⟨f, hf, rfl, hroot⟩
    have hleft : f.id ∉ dead := fun hid => hdead f.id hid ⟨f, hf, rfl, hroot⟩
    exact ⟨f, List.mem_filter.mpr ⟨hf, by simpa using hleft⟩, rfl, hroot⟩

/-- All functions on a path from a root are reached, so none of them is removed. -/
theorem isReached_remove
    (hdead : ∀ id ∈ dead, ¬ IsReached o fs ((FunctionIndex.ofList fs).validEdges edges) id) :
    IsReached o (remaining dead fs)
        ((FunctionIndex.ofList (remaining dead fs)).validEdges edges) id ↔
      IsReached o fs ((FunctionIndex.ofList fs).validEdges edges) id := by
  have hroots : ∀ {id}, IsRoot o (remaining dead fs) id ↔ IsRoot o fs id :=
    isRoot_remove fun id hid hroot => hdead id hid hroot.isReached
  constructor
  · rintro ⟨r, hr, hpath⟩
    refine ⟨r, hroots.mp hr, ReflTransGen.mono ?_ _ _ hpath⟩
    rintro a b ⟨e, he, hcalls⟩
    exact ⟨e, (mem_validEdges_remove.mp he).1, hcalls⟩
  · rintro ⟨r, hr, hpath⟩
    refine ⟨r, hroots.mpr hr, ?_⟩
    induction hpath with
    | refl => exact .refl
    | @tail a b hbefore hcalls ih =>
      -- both ends of the last call are reached, so the call touches nothing that is removed
      obtain ⟨e, he, hinternal, rfl, rfl⟩ := hcalls
      have hcaller : IsReached o fs _ e.caller := ⟨r, hr, hbefore⟩
      have hcallee : IsReached o fs _ e.callee := hcaller.callee he hinternal
      refine ih.tail ⟨e, mem_validEdges_remove.mpr ⟨he, ?_⟩, hinternal, rfl, rfl⟩
      rintro id hid (rfl | ⟨-, rfl⟩)
      · exact hdead _ hid hcaller
      · exact hdead _ hid hcallee

/-- A function that is not reached was not reached before. If calls touch it, they did so before. -/
theorem explains_remove
    (hdead : ∀ id ∈ dead, ¬ IsReached o fs ((FunctionIndex.ofList fs).validEdges edges) id)
    {r : PruneReason}
    (hr : Explains o (remaining dead fs)
      ((FunctionIndex.ofList (remaining dead fs)).validEdges edges) id r)
    (hlost : ¬ IsReached o (remaining dead fs)
      ((FunctionIndex.ofList (remaining dead fs)).validEdges edges) id) :
    ∃ r₀, Explains o fs ((FunctionIndex.ofList fs).validEdges edges) id r₀ ∧
      (r₀ = r ∨ r₀ = .unreachable) := by
  by_cases huntouched : IsUntouched ((FunctionIndex.ofList fs).validEdges edges) id
  · -- there are fewer calls now, so no call touches it now either
    have hisolated : Explains o (remaining dead fs)
        ((FunctionIndex.ofList (remaining dead fs)).validEdges edges) id .isolated :=
      fun e he => huntouched e (mem_validEdges_remove.mp he).1
    exact ⟨.isolated, huntouched, .inl (explains_unique hisolated hr)⟩
  · exact ⟨.unreachable, ⟨huntouched, mt (isReached_remove hdead).mpr hlost⟩, .inr rfl⟩

end InUse

/-! ## Candidates -/

theorem Candidate.IsDead.not_isReached [Scale R] {o : PruneOptions R} {c : Candidate R}
    (hdead : c.IsDead) (hc : c ∈ pendingCandidates o fs edges) :
    ¬ IsReached o fs ((FunctionIndex.ofList fs).validEdges edges) c.function.id := by
  obtain ⟨-, hroot, hr, -⟩ := mem_pendingCandidates.mp hc
  obtain h | h := hdead <;> rw [h] at hr
  · exact hr.2
  · exact not_isReached_of_isUntouched hroot hr

/-- A bound above the confidence in the surest reason is above that in any other, be it a number or
not. -/
theorem PruneReason.lt_of_confidence_lt {r r₀ : PruneReason} (h : r₀ = r ∨ r₀ = unreachable)
    {isExported : Bool} {bound : Float} (hlt : r₀.confidence isExported < bound) :
    r.confidence isExported < bound := by
  obtain rfl | rfl := h
  · exact hlt
  cases r with
  | unreachable => exact hlt
  | isolated => exact Float.lt_trans (by cases isExported <;> decide +kernel) hlt
  | weakCallers => exact Float.lt_trans (by cases isExported <;> decide +kernel) hlt

/-- If some dead candidates are removed, only functions are dead that were dead candidates before,
and the roots reach what they reached before. The calls that touched what was removed are reported
and do not count. -/
theorem select_remove_dead (o : PruneOptions Float) (fs : List FunctionRecord)
    (edges : List (CallEdge Float)) (protector : Option (FunctionRecord → Evidence Float))
    (dead : List String)
    (hdead : ∀ id ∈ dead, ∃ c ∈ (select o fs edges protector).candidates,
      c.function.id = id ∧ c.IsDead) :
    let rest := remaining dead fs
    let valid := (FunctionIndex.ofList fs).validEdges edges
    let valid' := (FunctionIndex.ofList rest).validEdges edges
    (∀ c ∈ (select o rest edges protector).candidates, c.IsDead →
        ∃ c₀ ∈ (select o fs edges protector).candidates, c₀.function = c.function ∧ c₀.IsDead) ∧
      roots o rest = roots o fs ∧
      reachableFrom (roots o rest) valid' = reachableFrom (roots o fs) valid ∧
      (∀ e, e ∈ valid' ↔ e ∈ valid ∧ ∀ id ∈ dead, ¬ e.Touches id) ∧
      ∀ e ∈ edges, (∃ id ∈ dead, e.Touches id) →
        ∃ p ∈ (select o rest edges protector).problems,
          p.caller = e.caller ∧ p.callee = e.callee := by
  intro rest valid valid'
  have hlost : ∀ id ∈ dead, ¬ IsReached o fs valid id := by
    intro id hid
    obtain ⟨c, hc, rfl, hc'⟩ := hdead id hid
    exact hc'.not_isReached (mem_select_candidates.mp hc).1
  have hreached : ∀ {id}, IsReached o rest valid' id ↔ IsReached o fs valid id :=
    isReached_remove hlost
  have hroot : ∀ {id}, IsRoot o rest id ↔ IsRoot o fs id :=
    isRoot_remove fun id hid hroot => hlost id hid hroot.isReached
  refine ⟨fun c hc hcdead => ?_, ?_, ?_, fun e => mem_validEdges_remove, fun e he htouches => ?_⟩
  · obtain ⟨hpending, hsafe⟩ := mem_select_candidates.mp hc
    obtain ⟨hfind, hnotRoot, hr, hkept, hsure, -⟩ := mem_pendingCandidates.mp hpending
    obtain ⟨r₀, hr₀, hreason⟩ := explains_remove hlost hr (hcdead.not_isReached hpending)
    have hleft : c.function.id ∉ dead :=
      (exists_remove.mp ⟨c.function, List.mem_of_find?_eq_some hfind, rfl⟩).2
    refine ⟨candidateFor valid c.function r₀, mem_select_candidates.mpr ⟨mem_pendingCandidates.mpr
      ⟨?_, mt hroot.mpr hnotRoot, hr₀, hkept, ?_, rfl⟩, hsafe⟩, rfl, ?_⟩
    · exact (find?_remove hleft).symm.trans hfind
    · exact mt (PruneReason.lt_of_confidence_lt hreason) hsure
    · obtain rfl | rfl := hreason
      · exact hcdead
      · exact .inl rfl
  · exact List.Pairwise.eq_of_mem_iff (pairwise_distinctTexts _) (pairwise_distinctTexts _)
      fun id => mem_roots.trans (hroot.trans mem_roots.symm)
  · refine List.Pairwise.eq_of_mem_iff (CallGraph.pairwise_reachable ..)
      (CallGraph.pairwise_reachable ..) fun id => ?_
    exact mem_reachable_view.trans (hreached.trans mem_reachable_view.symm)
  · refine exists_problem he fun hvalid => ?_
    obtain ⟨id, hid, htouch⟩ := htouches
    exact (mem_validEdges_remove.mp hvalid).2 id hid htouch

/-- Of two functions that nothing reaches, one calls the other. Without the caller, the other one is
isolated. -/
theorem select_remove_dead_caller :
    let o : PruneOptions Float := {}
    let main : FunctionRecord :=
      { id := "m", name := "main", filePath := "a.go", startLine := 1, endLine := 2 }
    let caller : FunctionRecord :=
      { id := "a", name := "old", filePath := "a.go", startLine := 4, endLine := 5 }
    let helper : FunctionRecord :=
      { id := "b", name := "helper", filePath := "a.go", startLine := 7, endLine := 8 }
    let e : CallEdge Float := { caller := "a", callee := "b", kind := .direct }
    let fs := [main, caller, helper]
    (∀ id ∈ ["a"], ∃ c ∈ (select o fs [e] none).candidates, c.function.id = id ∧ c.IsDead) ∧
      (∃ c ∈ (select o (remaining ["a"] fs) [e] none).candidates,
        c.function = helper ∧ c.reason = .isolated) ∧
      (∃ c₀ ∈ (select o fs [e] none).candidates, c₀.function = helper ∧ c₀.IsDead) ∧
      roots o (remaining ["a"] fs) = roots o fs := by
  intro o main caller helper e fs
  let valid := (FunctionIndex.ofList fs).validEdges [e]
  let valid' := (FunctionIndex.ofList (remaining ["a"] fs)).validEdges [e]
  have hcall : e ∈ valid := mem_validEdges.mpr ⟨.head _, ⟨caller, .tail _ (.head _), rfl⟩,
    fun _ => ⟨helper, .tail _ (.tail _ (.head _)), rfl⟩⟩
  have honly : ∀ d ∈ valid, d = e := fun d hd => List.mem_singleton.mp (mem_validEdges.mp hd).1
  have hnone : ∀ d, d ∉ valid' := by
    intro d hd
    obtain ⟨hvalid, hfree⟩ := mem_validEdges_remove.mp hd
    obtain rfl := honly d hvalid
    exact hfree "a" (.head _) (.inl rfl)
  have hroot : ∀ id, IsRoot o fs id → id = "m" := by
    rintro id ⟨f, hf, rfl, hreasons, -⟩
    obtain rfl | rfl | rfl : f = main ∨ f = caller ∨ f = helper := by simpa [fs] using hf
    · rfl
    · exact absurd (by decide +kernel) hreasons
    · exact absurd (by decide +kernel) hreasons
  have hlost : ∀ id, IsReached o fs valid id → id = "m" := by
    rintro id ⟨r, hr, hpath⟩
    obtain rfl := hroot r hr
    rcases hpath.cases_head with rfl | ⟨b, ⟨d, hd, -, hcaller, -⟩, -⟩
    · rfl
    · rw [honly d hd] at hcaller
      exact absurd hcaller (by decide)
  have hdead : ∀ id ∈ ["a"], ∃ c ∈ (select o fs [e] none).candidates,
      c.function.id = id ∧ c.IsDead := by
    intro id hid
    obtain rfl := List.mem_singleton.mp hid
    refine ⟨candidateFor valid caller .unreachable, mem_select_candidates.mpr
      ⟨mem_pendingCandidates.mpr ⟨rfl, ?_, ⟨?_, ?_⟩, ?_, ?_, rfl⟩, nofun⟩, rfl, .inl rfl⟩
    · exact fun h => absurd (hroot _ h) (by decide)
    · exact fun huntouched => huntouched e hcall (.inl rfl)
    · exact fun h => absurd (hlost _ h) (by decide)
    · rw [← isKept_iff]
      decide +kernel
    · decide +kernel
  have hisolated : candidateFor valid' helper .isolated ∈
      (select o (remaining ["a"] fs) [e] none).candidates := by
    refine mem_select_candidates.mpr ⟨mem_pendingCandidates.mpr ⟨rfl, ?_, ?_, ?_, ?_, rfl⟩, nofun⟩
    · rintro ⟨f, hf, hid, hroot'⟩
      exact absurd (hroot _ ⟨f, List.mem_of_mem_filter hf, hid, hroot'⟩) (by decide)
    · exact fun d hd => absurd hd (hnone d)
    · rw [← isKept_iff]
      decide +kernel
    · decide +kernel
  obtain ⟨hbefore, hroots, -⟩ := select_remove_dead o fs [e] none ["a"] hdead
  exact ⟨hdead, ⟨_, hisolated, rfl, rfl⟩, hbefore _ hisolated (.inr rfl), hroots⟩

end Deadwood
