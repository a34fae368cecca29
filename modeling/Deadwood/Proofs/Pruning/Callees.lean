import Deadwood.Proofs.Pruning.Select

/-!
# What the calls of a function keep

A call that is not weak keeps its target as long as its caller is in use, whatever else calls the
target. A caller that is not in use keeps nothing, even if a rule or type evidence keeps the caller
itself: only the rules for tests and for exported functions also make roots of what they keep.

## Main definitions

* `IsFirmCall`: a call between two known functions that is not weak.

## Main results

* `IsFirmCall.not_pending`: what is called firmly from code in use is not even looked at.
* `select_spares_callees_in_use`: the same of the selection.
* `select_takes_callee_iff`: when the selection takes a function that another one calls firmly.
-/

namespace Deadwood

variable {R : Type} [Scale R] {o : PruneOptions R} {fs : List FunctionRecord}
  {edges valid : List (CallEdge R)} {e : CallEdge R} {id : String}

/-- A call from one known function to another that is not weak. -/
structure IsFirmCall (o : PruneOptions R) (fs : List FunctionRecord) (edges : List (CallEdge R))
    (e : CallEdge R) : Prop where
  mem : e ∈ edges
  valid : IsValidCall fs e
  internal : e.isInternal
  other : e.callee ≠ e.caller
  firm : ¬ e.isWeak o.confidenceThreshold

/-! ## Being in use -/

theorem IsRoot.isReached (h : IsRoot o fs id) : IsReached o fs valid id :=
  ⟨id, h, .refl⟩

/-- What code in use calls is in use. -/
theorem IsReached.callee (h : IsReached o fs valid e.caller) (he : e ∈ valid)
    (hinternal : e.isInternal) : IsReached o fs valid e.callee := by
  obtain ⟨r, hr, hpath⟩ := h
  exact ⟨r, hr, hpath.tail ⟨e, he, hinternal, rfl, rfl⟩⟩

/-- Exported functions that are no methods are roots unless exported functions may be deleted. -/
theorem isRoot_of_exported {f : FunctionRecord} (hf : f ∈ fs) (hexported : f.isExported)
    (hmethod : ¬ f.isMethod) (hinclude : ¬ o.includeExports) : IsRoot o fs f.id := by
  refine ⟨f, hf, rfl, ?_, fun h => hinclude h.1⟩
  simp [EntryRules.reasons, hexported, hmethod]

theorem isRoot_of_test {f : FunctionRecord} (hf : f ∈ fs) (hexclude : o.excludeTests)
    (htest : isTestFunction f) : IsRoot o fs f.id := by
  have hmem : EntryReason.test ∈ o.entryRules.reasons f := by
    simp [EntryRules.reasons, PruneOptions.entryRules, hexclude, htest]
  refine ⟨f, hf, rfl, List.ne_nil_of_mem hmem, fun h => ?_⟩
  simp [h.2] at hmem

namespace IsFirmCall

theorem mem_valid (h : IsFirmCall o fs edges e) :
    e ∈ (FunctionIndex.ofList fs).validEdges edges :=
  mem_validEdges.mpr ⟨h.mem, h.valid⟩

theorem enters (h : IsFirmCall o fs edges e) : e.Enters e.callee :=
  ⟨h.internal, rfl, h.other.symm⟩

theorem not_isCalledWeakly (h : IsFirmCall o fs edges e) :
    ¬ IsCalledWeakly o ((FunctionIndex.ofList fs).validEdges edges) e.callee :=
  fun hweak => h.firm (hweak.2 e h.mem_valid h.enters)

/-- The only reason for deleting what is called firmly is that nothing reaches it. -/
theorem explains_callee (h : IsFirmCall o fs edges e) {r : PruneReason} :
    Explains o fs ((FunctionIndex.ofList fs).validEdges edges) e.callee r ↔
      r = .unreachable ∧
        ¬ IsReached o fs ((FunctionIndex.ofList fs).validEdges edges) e.callee := by
  have htouched : ¬ IsUntouched ((FunctionIndex.ofList fs).validEdges edges) e.callee :=
    fun hno => hno e h.mem_valid (.inr ⟨h.internal, rfl⟩)
  cases r <;> simp [Explains, htouched, h.not_isCalledWeakly]

/-- What code in use calls firmly is no candidate, not even before type evidence is asked. -/
theorem not_pending (h : IsFirmCall o fs edges e)
    (hlive : IsReached o fs ((FunctionIndex.ofList fs).validEdges edges) e.caller)
    {c : Candidate R} (hc : c ∈ pendingCandidates o fs edges) : c.function.id ≠ e.callee := by
  intro hid
  obtain ⟨-, -, hr, -⟩ := mem_pendingCandidates.mp hc
  rw [hid, h.explains_callee] at hr
  exact hr.2 (hlive.callee h.mem_valid h.internal)

end IsFirmCall

/-! ## The selection -/

theorem pending_of_mem_shielded {protector : Option (FunctionRecord → Evidence R)}
    {p : ProtectedFunction R} (h : p ∈ (select o fs edges protector).shielded) :
    ∃ c ∈ pendingCandidates o fs edges, c.function = p.function := by
  cases protector with
  | none => simp [select] at h
  | some evidenceOn =>
    simp only [select, List.mem_map, List.mem_filter] at h
    obtain ⟨j, ⟨⟨c, hc, rfl⟩, -⟩, rfl⟩ := h
    exact ⟨c, hc, rfl⟩

/-- What code in use calls firmly is not selected, and needs no type evidence to be spared. It does
not matter what else calls it, or whether the caller itself is selected. -/
theorem select_spares_callees_in_use (o : PruneOptions R) (fs : List FunctionRecord)
    (edges : List (CallEdge R)) (protector : Option (FunctionRecord → Evidence R))
    (e : CallEdge R) (hcall : IsFirmCall o fs edges e)
    (hlive : IsReached o fs ((FunctionIndex.ofList fs).validEdges edges) e.caller) :
    (∀ c ∈ (select o fs edges protector).candidates, c.function.id ≠ e.callee) ∧
      ∀ p ∈ (select o fs edges protector).shielded, p.function.id ≠ e.callee := by
  refine ⟨fun c hc => ?_, fun p hp => ?_⟩
  · exact hcall.not_pending hlive (mem_select_candidates.mp hc).1
  · obtain ⟨c, hc, hfunction⟩ := pending_of_mem_shielded hp
    exact hfunction ▸ hcall.not_pending hlive hc

/-- Only a weak call leads to the caller, and dead code calls its target, but weakly. -/
theorem select_spares_callees_in_use_of_weak_caller :
    let o : PruneOptions Float := {}
    let fs : List FunctionRecord :=
      [{ id := "m", name := "main" }, { id := "u", name := "maybe" }, { id := "v", name := "sure" },
        { id := "w", name := "dead" }]
    let weak : CallEdge Float := { caller := "m", callee := "u", kind := .virtual }
    let firm : CallEdge Float := { caller := "u", callee := "v", kind := .direct }
    let edges := [weak, firm, { caller := "w", callee := "v", kind := .conditional }]
    weak.isWeak o.confidenceThreshold ∧ IsFirmCall o fs edges firm ∧
      IsReached o fs ((FunctionIndex.ofList fs).validEdges edges) "u" ∧
      ∀ c ∈ (select o fs edges none).candidates, c.function.id ≠ "v" := by
  intro o fs weak firm edges
  have hfirm : IsFirmCall o fs edges firm := by
    have hends : IsValidCall fs firm := by simp [IsValidCall, firm, fs]
    exact ⟨by simp [edges], hends, by decide, by decide, by decide +kernel⟩
  have hroot : IsRoot o fs "m" :=
    ⟨{ id := "m", name := "main" }, by simp [fs], rfl, by decide +kernel, by decide +kernel⟩
  have hweak : weak ∈ (FunctionIndex.ofList fs).validEdges edges :=
    mem_validEdges.mpr ⟨by simp [edges], by simp [IsValidCall, weak, fs]⟩
  have hlive : IsReached o fs ((FunctionIndex.ofList fs).validEdges edges) "u" :=
    hroot.isReached.callee hweak (by decide)
  obtain ⟨hspared, -⟩ := select_spares_callees_in_use o fs edges none firm hfirm hlive
  exact ⟨by decide, hfirm, hlive, hspared⟩

/-- A caller that a rule keeps spares what it calls firmly if the rule is that for tests, or that
for exported functions and the caller is no method. In general the target of a firm call is selected
exactly if nothing in use reaches it and nothing speaks for the target itself; that its caller is
kept, be it by a rule or by type evidence, does not matter. -/
theorem select_takes_callee_iff (o : PruneOptions R) (fs : List FunctionRecord)
    (edges : List (CallEdge R)) (protector : Option (FunctionRecord → Evidence R))
    (e : CallEdge R) (hcall : IsFirmCall o fs edges e) :
    let valid := (FunctionIndex.ofList fs).validEdges edges
    let chosen := (select o fs edges protector).candidates.map (·.function.id)
    (∀ p ∈ fs, p.id = e.caller →
        (p.isExported ∧ ¬ p.isMethod ∧ ¬ o.includeExports ∨ o.excludeTests ∧ isTestFunction p) →
        e.callee ∉ chosen) ∧
      (e.callee ∈ chosen ↔ ∃ f, fs.find? (·.id = e.callee) = some f ∧
        ¬ IsReached o fs valid e.callee ∧ ¬ IsExcluded o f ∧
        ¬ (PruneReason.unreachable.confidence f.isExported : R) < o.candidateMinConfidence ∧
        ∀ evidenceOn, protector = some evidenceOn →
          ¬ o.protectionThreshold ≤ (evidenceOn f).score) := by
  intro valid chosen
  refine ⟨fun p hp hid hrule hmem => ?_, ?_⟩
  · have hroot : IsRoot o fs e.caller := by
      rcases hrule with ⟨hexported, hmethod, hinclude⟩ | ⟨hexclude, htest⟩
      · exact hid ▸ isRoot_of_exported hp hexported hmethod hinclude
      · exact hid ▸ isRoot_of_test hp hexclude htest
    obtain ⟨c, hc, hcallee⟩ := List.mem_map.mp hmem
    exact hcall.not_pending hroot.isReached (mem_select_candidates.mp hc).1 hcallee
  · rw [List.mem_map]
    constructor
    · rintro ⟨c, hc, hcallee⟩
      obtain ⟨hpending, hsafe⟩ := mem_select_candidates.mp hc
      obtain ⟨hfind, -, hr, hkept, hsure, -⟩ := mem_pendingCandidates.mp hpending
      rw [hcallee, hcall.explains_callee] at hr
      exact ⟨c.function, hcallee ▸ hfind, hr.2, hkept, hr.1 ▸ hsure, hsafe⟩
    · rintro ⟨f, hfind, hdead, hkept, hsure, hsafe⟩
      have hid : f.id = e.callee := by simpa using List.find?_some hfind
      refine ⟨candidateFor valid f .unreachable, mem_select_candidates.mpr ⟨?_, hsafe⟩, hid⟩
      refine mem_pendingCandidates.mpr ⟨?_, ?_, ?_, hkept, hsure, rfl⟩
      · exact hid ▸ hfind
      · exact fun hroot => hdead (hid ▸ hroot.isReached)
      · exact hid ▸ hcall.explains_callee.mpr ⟨rfl, hdead⟩

/-- A static method is kept, and the function that it calls is selected. -/
theorem select_takes_callee_iff_of_static :
    let o : PruneOptions Float := {}
    let create : FunctionRecord :=
      { id := "keep", name := "create", filePath := "src/repo.go", startLine := 1, endLine := 2
        isMethod := true, isStatic := true, className := "Repo" }
    let build : FunctionRecord :=
      { id := "used", name := "build", filePath := "src/repo.go", startLine := 4, endLine := 5 }
    let call : CallEdge Float :=
      { caller := "keep", callee := "used", calleeName := "build", kind := .direct }
    IsFirmCall o [create, build] [call] call ∧ IsExcluded o create ∧
      "keep" ∉ (select o [create, build] [call] none).candidates.map (·.function.id) ∧
      "used" ∈ (select o [create, build] [call] none).candidates.map (·.function.id) := by
  intro o create build call
  have hcall : IsFirmCall o [create, build] [call] call := by
    have hends : IsValidCall [create, build] call := by simp [IsValidCall, call, create, build]
    exact ⟨by simp, hends, by decide, by decide, by decide +kernel⟩
  have hkept : IsExcluded o create := .inr (.inl (by decide))
  have hroots : ∀ f ∈ [create, build], o.entryRules.reasons f = [] := by decide +kernel
  have hdead : ¬ IsReached o [create, build]
      ((FunctionIndex.ofList [create, build]).validEdges [call]) "used" := by
    rintro ⟨_, ⟨f, hf, -, hreasons, -⟩, -⟩
    exact hreasons (hroots f hf)
  have hfree : ¬ IsExcluded o build := mt (isKept_iff o build).mpr (by decide +kernel)
  obtain ⟨-, htaken⟩ := select_takes_callee_iff o [create, build] [call] none call hcall
  refine ⟨hcall, hkept, fun hmem => ?_, htaken.mpr ⟨build, rfl, hdead, hfree, ?_, by simp⟩⟩
  · obtain ⟨c, hc, hid⟩ := List.mem_map.mp hmem
    obtain ⟨hfind, -, -, hnot, -⟩ := mem_pendingCandidates.mp (mem_select_candidates.mp hc).1
    rw [hid] at hfind
    exact hnot (Option.some.inj hfind ▸ hkept)
  · decide +kernel

end Deadwood
