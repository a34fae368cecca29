import Deadwood.Proofs.Pruning.Select
import Mathlib.Data.Rat.Cast.Order

/-!
# Wider options

Options may be widened in several ways at once: more calls count as weak, less confidence is asked
for, fewer functions are protected, excluded or entry points. With fewer roots less is reached, so
that a function that was only called weakly may now be unreachable, but no reason for deleting it is
lost, and the new one is no less sure.

## Main definitions

* `PruneOptions.Widens`: options that let at least as much be deleted.
* `Candidate.Remains`: what may change about a candidate.

## Main results

* `PruneOptions.Widens.isRoot`, `PruneOptions.Widens.isReached`: what is in use under wider options
  was in use before.
* `PruneOptions.Widens.explains`: the reasons under wider options.
* `select_candidates_widen`: the candidates under wider options.
-/

namespace Deadwood

/-- The second options let at least as much be deleted as the first, in code with some calls. -/
structure PruneOptions.Widens (o o' : PruneOptions Rat) (edges : List (CallEdge Rat)) : Prop where
  weak : ∀ e ∈ edges, e.isWeak o.confidenceThreshold → e.isWeak o'.confidenceThreshold
  minConfidence : o'.candidateMinConfidence ≤ o.candidateMinConfidence
  protection : o.protectionThreshold ≤ o'.protectionThreshold
  exports : o.includeExports → o'.includeExports
  statics : o.includeStaticMethods → o'.includeStaticMethods
  tests : o'.excludeTests → o.excludeTests
  excludePatterns : o'.excludePatterns ⊆ o.excludePatterns
  entryPatterns : o'.entryPatterns ⊆ o.entryPatterns

/-! ## Entry points -/

theorem singleton_if_sublist {α : Type} {p q : Prop} [Decidable p] [Decidable q] (h : p → q)
    (a : α) : List.Sublist (if p then [a] else []) (if q then [a] else []) := by
  split_ifs with hp hq
  · exact .refl _
  · exact absurd (h hp) hq
  · exact List.nil_sublist _
  · exact .refl _

/-- Fewer rules give fewer reasons, in the same order. -/
theorem EntryRules.reasons_sublist {r r' : EntryRules} (htests : r.excludeTests → r'.excludeTests)
    (hpatterns : r'.patterns ⊆ r.patterns) (f : FunctionRecord) :
    (r'.reasons f).Sublist (r.reasons f) := by
  unfold reasons
  refine .append (.append (.refl _) (singleton_if_sublist ?_ _)) (singleton_if_sublist ?_ _)
  · simp only [Bool.and_eq_true, Bool.not_eq_true', and_imp]
    exact fun h htest => ⟨Bool.eq_false_iff.mpr fun h' => by simp [htests h'] at h, htest⟩
  · simp only [List.any_eq_true]
    exact fun ⟨p, hp, hfits⟩ => ⟨p, hpatterns hp, hfits⟩

namespace PruneOptions.Widens

variable {o o' : PruneOptions Rat} {edges valid : List (CallEdge Rat)} {fs : List FunctionRecord}
  {id : String}

/-- A function that has lost all reasons but that it is exported is given up if exports were. -/
theorem isRoot (h : o.Widens o' edges) (hroot : IsRoot o' fs id) : IsRoot o fs id := by
  obtain ⟨f, hf, hid, hreasons, hkept⟩ := hroot
  have hsub : (o'.entryRules.reasons f).Sublist (o.entryRules.reasons f) := by
    refine EntryRules.reasons_sublist ?_ h.entryPatterns f
    simpa [entryRules] using fun h' => Bool.eq_false_iff.mpr fun h'' => by simp [h.tests h''] at h'
  -- there are at least as many reasons as under the wider options, and in the same order
  refine ⟨f, hf, hid, fun hnil => hreasons ?_, fun ⟨hexports, honly⟩ => ?_⟩
  · exact List.sublist_nil.mp (hnil ▸ hsub)
  · rw [honly, List.sublist_singleton] at hsub
    exact hsub.elim hreasons fun honly' => hkept ⟨h.exports hexports, honly'⟩

theorem isReached (h : o.Widens o' edges) (hreached : IsReached o' fs valid id) :
    IsReached o fs valid id := by
  obtain ⟨r, hr, hpath⟩ := hreached
  exact ⟨r, h.isRoot hr, hpath⟩

theorem isCalledWeakly (h : o.Widens o' edges) (hvalid : valid ⊆ edges)
    (hweak : IsCalledWeakly o valid id) : IsCalledWeakly o' valid id :=
  ⟨hweak.1, fun e he henters => h.weak e (hvalid he) (hweak.2 e he henters)⟩

theorem isExcluded (h : o.Widens o' edges) {f : FunctionRecord} (hkept : IsExcluded o' f) :
    IsExcluded o f := by
  obtain ⟨hexported, hnot⟩ | ⟨hstatic, hnot⟩ | ⟨htests, htest⟩ | ⟨p, hp, hcovers⟩ := hkept
  · exact .inl ⟨hexported, fun hexports => hnot (h.exports hexports)⟩
  · exact .inr (.inl ⟨hstatic, fun hstatics => hnot (h.statics hstatics)⟩)
  · exact .inr (.inr (.inl ⟨h.tests htests, htest⟩))
  · exact .inr (.inr (.inr ⟨p, h.excludePatterns hp, hcovers⟩))

/-- A reason stays, or the function that was called weakly is no longer reached at all. -/
theorem explains (h : o.Widens o' edges) (hvalid : valid ⊆ edges) {r : PruneReason}
    (hr : Explains o fs valid id r) :
    ∃ r', Explains o' fs valid id r' ∧ (r' = r ∨ r = .weakCallers ∧ r' = .unreachable) := by
  cases r with
  | isolated => exact ⟨.isolated, hr, .inl rfl⟩
  | unreachable => exact ⟨.unreachable, ⟨hr.1, mt h.isReached hr.2⟩, .inl rfl⟩
  | weakCallers =>
    obtain ⟨htouched, -, hweak⟩ := hr
    by_cases hreached : IsReached o' fs valid id
    · exact ⟨.weakCallers, ⟨htouched, hreached, h.isCalledWeakly hvalid hweak⟩, .inl rfl⟩
    · exact ⟨.unreachable, ⟨htouched, hreached⟩, .inr ⟨rfl, rfl⟩⟩

end PruneOptions.Widens

/-! ## Candidates -/

/-- A candidate is still one: as it was, or with nothing that reaches it where before all its
callers were weak. It is no less sure. -/
def Candidate.Remains (c c' : Candidate Rat) : Prop :=
  c.confidence ≤ c'.confidence ∧ (c' = c ∨ c.reason = .weakCallers ∧
    c' = { c with reason := .unreachable, confidence := c'.confidence })

theorem Candidate.Remains.function_eq {c c' : Candidate Rat} (h : c.Remains c') :
    c'.function = c.function := by
  obtain ⟨-, rfl | ⟨-, hsame⟩⟩ := h
  · rfl
  · rw [hsame]

theorem remains_candidateFor {valid : List (CallEdge Rat)} {f : FunctionRecord} {r r' : PruneReason}
    (h : r' = r ∨ r = .weakCallers ∧ r' = .unreachable) :
    (candidateFor valid f r).Remains (candidateFor valid f r') := by
  refine ⟨PruneReason.confidence_le (h.imp_right And.right) _, ?_⟩
  obtain rfl | ⟨rfl, rfl⟩ := h
  · exact .inl rfl
  · exact .inr ⟨rfl, rfl⟩

/-- Wider options lose no candidate: each of them remains one. -/
theorem select_candidates_widen {o o' : PruneOptions Rat} {edges : List (CallEdge Rat)}
    (h : o.Widens o' edges) (fs : List FunctionRecord)
    (protector : Option (FunctionRecord → Evidence Rat)) :
    let chosen := (select o fs edges protector).candidates
    let chosen' := (select o' fs edges protector).candidates
    chosen.map (·.function.id) ⊆ chosen'.map (·.function.id) ∧
      ∀ c ∈ chosen, ∃ c' ∈ chosen', c.Remains c' := by
  intro chosen chosen'
  have hremains : ∀ c ∈ chosen, ∃ c' ∈ chosen', c.Remains c' := by
    intro c hc
    obtain ⟨hpending, hsafe⟩ := mem_select_candidates.mp hc
    obtain ⟨hfind, hroot, hr, hkept, hsure, hcandidate⟩ := mem_pendingCandidates.mp hpending
    obtain ⟨r', hr', hchange⟩ := h.explains (fun e he => (mem_validEdges.mp he).1) hr
    have hsurer : (c.reason.confidence c.function.isExported : Rat) ≤
        r'.confidence c.function.isExported :=
      PruneReason.confidence_le (hchange.imp_right And.right) _
    refine ⟨candidateFor _ c.function r', mem_select_candidates.mpr ⟨mem_pendingCandidates.mpr
      ⟨hfind, mt h.isRoot hroot, hr', mt h.isExcluded hkept, ?_, rfl⟩, ?_⟩, ?_⟩
    · exact not_lt.mpr ((h.minConfidence.trans (not_lt.mp hsure)).trans hsurer)
    · exact fun evidenceOn hprotector hscore =>
        hsafe evidenceOn hprotector (h.protection.trans hscore)
    · rw [hcandidate]
      exact remains_candidateFor hchange
  refine ⟨fun id hid => ?_, hremains⟩
  obtain ⟨c, hc, rfl⟩ := List.mem_map.mp hid
  obtain ⟨c', hc', hsame⟩ := hremains c hc
  exact List.mem_map.mpr ⟨c', hc', by rw [hsame.function_eq]⟩

/-- A pattern made the only caller of a function an entry point. Without it, and with a higher
threshold for calls, the function is still a candidate, but for another reason. -/
theorem select_candidates_widen_entry_dropped :
    let o : PruneOptions Rat := { entryPatterns := ["keep*"] }
    let o' : PruneOptions Rat := { confidenceThreshold := 0.9, excludeTests := false }
    let keep : FunctionRecord :=
      { id := "k", name := "keepAlive", filePath := "a.go", startLine := 1, endLine := 2 }
    let f : FunctionRecord :=
      { id := "f", name := "helper", filePath := "a.go", startLine := 4, endLine := 5 }
    let e : CallEdge Rat :=
      { caller := "k", callee := "f", kind := .direct, confidence := some 0.5 }
    o.Widens o' [e] ∧
      (∃ c ∈ (select o [keep, f] [e] none).candidates, c.function = f ∧ c.reason = .weakCallers) ∧
      ∃ c' ∈ (select o' [keep, f] [e] none).candidates,
        c'.function = f ∧ c'.reason = .unreachable := by
  intro o o' keep f e
  have hwidens : o.Widens o' [e] :=
    { weak := by decide +kernel
      minConfidence := le_rfl
      protection := le_rfl
      exports := id
      statics := id
      tests := nofun
      excludePatterns := List.nil_subset _
      entryPatterns := List.nil_subset _ }
  let valid := (FunctionIndex.ofList [keep, f]).validEdges [e]
  have hcall : e ∈ valid := mem_validEdges.mpr ⟨.head _, ⟨keep, .head _, rfl⟩,
    fun _ => ⟨f, .tail _ (.head _), rfl⟩⟩
  have honly : ∀ d ∈ valid, d = e := fun d hd => List.mem_singleton.mp (mem_validEdges.mp hd).1
  have hfunctions : ∀ g ∈ [keep, f], g = keep ∨ g = f := by simp
  have hroot : ¬ IsRoot o [keep, f] "f" := by
    rintro ⟨g, hg, hid, hreasons, -⟩
    obtain rfl | rfl := hfunctions g hg
    · exact absurd hid (by decide)
    · exact hreasons (by decide +kernel)
  have hreached : IsReached o [keep, f] valid "f" :=
    ⟨"k", ⟨keep, .head _, rfl, by decide +kernel, by decide +kernel⟩,
      .single ⟨e, hcall, rfl, rfl, rfl⟩⟩
  have hweak : IsCalledWeakly o valid "f" :=
    ⟨⟨e, hcall, rfl, rfl, by decide⟩, fun d hd _ => honly d hd ▸ by decide +kernel⟩
  have hchosen : candidateFor valid f .weakCallers ∈ (select o [keep, f] [e] none).candidates := by
    refine mem_select_candidates.mpr ⟨mem_pendingCandidates.mpr
      ⟨rfl, hroot, ⟨?_, hreached, hweak⟩, ?_, ?_, rfl⟩, nofun⟩
    · exact fun huntouched => huntouched e hcall (.inr ⟨rfl, rfl⟩)
    · rw [← isKept_iff]
      decide +kernel
    · decide +kernel
  obtain ⟨-, hwider⟩ := select_candidates_widen hwidens [keep, f] none
  obtain ⟨c', hc', -, hchange⟩ := hwider _ hchosen
  have hnone : ∀ id, ¬ IsRoot o' [keep, f] id := by
    rintro id ⟨g, hg, -, hreasons, -⟩
    obtain rfl | rfl := hfunctions g hg <;> exact hreasons (by decide +kernel)
  refine ⟨hwidens, ⟨_, hchosen, rfl, rfl⟩, c', hc', ?_⟩
  obtain rfl | ⟨-, hsame⟩ := hchange
  · obtain ⟨-, -, ⟨-, ⟨r, hr, -⟩, -⟩, -⟩ :=
      mem_pendingCandidates.mp (mem_select_candidates.mp hc').1
    exact absurd hr (hnone r)
  · rw [hsame]
    exact ⟨rfl, rfl⟩

end Deadwood
