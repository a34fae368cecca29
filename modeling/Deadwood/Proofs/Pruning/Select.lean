import Deadwood.Proofs.Graph.Reach
import Deadwood.Pruning.Candidate

/-!
# Which functions are candidates

A function is a candidate if the calls say that it is dead, no rule keeps it, and neither doubt nor
type evidence speaks for it. What the calls say is told from the counts of calls, from the functions
that are reached, and from the calls of the function by others; here it is said in terms of the
calls alone.

## Main definitions

* `IsValidCall`: a call whose ends are known.
* `IsRoot`, `IsReached`: functions that are in use.
* `IsUntouched`, `IsCalledWeakly`: what the calls of a function are.
* `Explains`: the reason that the calls give for deleting a function.

## Main results

* `mem_roots`, `mem_validEdges`: what the parts of the selection hold.
* `reason?_view`: the reason of a function.
* `select_candidates_exact`: the candidates of a code base.
-/

namespace Deadwood

open Relation (ReflTransGen)

variable {R : Type}

/-! ## What the calls say -/

/-- The ends of a call are known functions. A call out of the code has only one. -/
def IsValidCall (fs : List FunctionRecord) (e : CallEdge R) : Prop :=
  (∃ f ∈ fs, f.id = e.caller) ∧ (e.isInternal → ∃ f ∈ fs, f.id = e.callee)

/-- A call starts at a function or leads to it. -/
def CallEdge.Touches (id : String) (e : CallEdge R) : Prop :=
  e.caller = id ∨ e.isInternal ∧ e.callee = id

/-- A call leads to a function from another one. -/
def CallEdge.Enters (id : String) (e : CallEdge R) : Prop :=
  e.isInternal ∧ e.callee = id ∧ e.caller ≠ id

/-- No call touches a function. -/
def IsUntouched (valid : List (CallEdge R)) (id : String) : Prop :=
  ∀ e ∈ valid, ¬ e.Touches id

section Views

variable [Scale R]

/-- An entry point that keeps what it reaches. Exported functions may be given up. -/
def IsRoot (o : PruneOptions R) (fs : List FunctionRecord) (id : String) : Prop :=
  ∃ f ∈ fs, f.id = id ∧ o.entryRules.reasons f ≠ [] ∧
    ¬ (o.includeExports ∧ o.entryRules.reasons f = [.exported])

/-- A path of calls leads from a root to a function. -/
def IsReached (o : PruneOptions R) (fs : List FunctionRecord) (valid : List (CallEdge R))
    (id : String) : Prop :=
  ∃ r, IsRoot o fs r ∧ ReflTransGen (Calls valid) r id

/-- Other functions call a function, but every one of these calls is weak. -/
def IsCalledWeakly (o : PruneOptions R) (valid : List (CallEdge R)) (id : String) : Prop :=
  (∃ e ∈ valid, e.Enters id) ∧ ∀ e ∈ valid, e.Enters id → e.isWeak o.confidenceThreshold

/-- The reason that the calls give for deleting a function. -/
def Explains (o : PruneOptions R) (fs : List FunctionRecord) (valid : List (CallEdge R))
    (id : String) : PruneReason → Prop
  | .isolated => IsUntouched valid id
  | .unreachable => ¬ IsUntouched valid id ∧ ¬ IsReached o fs valid id
  | .weakCallers =>
    ¬ IsUntouched valid id ∧ IsReached o fs valid id ∧ IsCalledWeakly o valid id

/-- A rule keeps a function: it is exported, static, a test, or in a file that a pattern covers. -/
def IsExcluded (o : PruneOptions R) (f : FunctionRecord) : Prop :=
  (f.isExported ∧ ¬ o.includeExports) ∨ (f.isStatic ∧ ¬ o.includeStaticMethods) ∨
    (o.excludeTests ∧ isTestFunction f) ∨
    ∃ pattern ∈ o.excludePatterns, PathPattern.covers pattern f.filePath

theorem isKept_iff (o : PruneOptions R) (f : FunctionRecord) : isKept o f ↔ IsExcluded o f := by
  simp [isKept, IsExcluded, or_assoc]

end Views

/-! ## The index -/

@[simp] theorem FunctionIndex.get?_ofList (fs : List FunctionRecord) (id : String) :
    (FunctionIndex.ofList fs).get? id = fs.find? (·.id = id) :=
  find?_keepFirst FunctionRecord.id fs id

@[simp, grind =] theorem FunctionIndex.contains_ofList {fs : List FunctionRecord} {id : String} :
    (FunctionIndex.ofList fs).contains id ↔ ∃ f ∈ fs, f.id = id := by
  simp [FunctionIndex.contains]

theorem FunctionIndex.nodup_ids (fs : List FunctionRecord) : (FunctionIndex.ofList fs).ids.Nodup :=
  (List.mergeSort_perm _ _).nodup_iff.mpr (nodup_keys_keepFirst (·.id) fs)

@[simp, grind =] theorem FunctionIndex.mem_ids {fs : List FunctionRecord} {id : String} :
    id ∈ (FunctionIndex.ofList fs).ids ↔ ∃ f ∈ fs, f.id = id := by
  rw [← FunctionIndex.contains_ofList, FunctionIndex.contains, FunctionIndex.get?,
    List.find?_isSome]
  simp [FunctionIndex.ids]

@[simp, grind =] theorem mem_validEdges {fs : List FunctionRecord} {edges : List (CallEdge R)}
    {e : CallEdge R} :
    e ∈ (FunctionIndex.ofList fs).validEdges edges ↔ e ∈ edges ∧ IsValidCall fs e := by
  simp only [FunctionIndex.validEdges, List.mem_filter, FunctionIndex.problem?,
    FunctionIndex.contains_ofList, IsValidCall]
  split_ifs <;> simp_all

/-! ## Roots and reasons -/

@[simp, grind =] theorem mem_callsInto {id : String} {valid : List (CallEdge R)} {e : CallEdge R} :
    e ∈ callsInto id valid ↔ e ∈ valid ∧ e.Enters id := by
  simp only [callsInto, List.mem_filter, CallEdge.Enters, CallEdge.isLoop, Bool.and_eq_true,
    Bool.not_eq_true', decide_eq_false_iff_not, decide_eq_true_eq]
  grind

section Reasons

variable [Scale R] {o : PruneOptions R} {fs : List FunctionRecord} {valid : List (CallEdge R)}
  {id : String}

theorem mem_roots : id ∈ roots o fs ↔ IsRoot o fs id := by
  have hpoint : ∀ f e, o.entryRules.point? f = some e ↔
      o.entryRules.reasons f ≠ [] ∧ e = ⟨f.id, f.name, f.filePath, o.entryRules.reasons f⟩ := by
    intro f e
    unfold EntryRules.point?
    split
    · simp_all
    · rename_i hreasons
      rw [Option.some.injEq, eq_comm]
      exact ⟨fun h => ⟨hreasons, h⟩, fun h => h.2⟩
  have hkept : ∀ why : List EntryReason, (!(o.includeExports && why = [.exported])) = true ↔
      ¬ (o.includeExports ∧ why = [.exported]) := by simp [imp_iff_not_or]
  simp only [roots, mem_distinctTexts, List.mem_map, List.mem_filter, EntryRules.detect,
    mem_sortedBy, List.mem_filterMap, hpoint, hkept]
  constructor
  · rintro ⟨e, ⟨⟨f, hf, hreasons, rfl⟩, hkeep⟩, rfl⟩
    exact ⟨f, hf, rfl, hreasons, hkeep⟩
  · rintro ⟨f, hf, rfl, hreasons, hkeep⟩
    exact ⟨_, ⟨⟨f, hf, hreasons, rfl⟩, hkeep⟩, rfl⟩

theorem mem_reachable_view :
    id ∈ (CallView.of fs valid (roots o fs)).reachable ↔ IsReached o fs valid id := by
  simp [CallView.of, reachableFrom, CallGraph.mem_reachable, mem_roots, IsReached]

/-- The counts of a function are zero exactly if no call touches it. -/
theorem isIsolated_view (hvalid : ∀ e ∈ valid, IsValidCall fs e) (hid : ∃ f ∈ fs, f.id = id)
    (hroot : ¬ IsRoot o fs id) :
    ((CallView.of fs valid (roots o fs)).metrics.find? (·.functionId = id)).any (·.isIsolated) ↔
      IsUntouched valid id := by
  have hknown : ∀ k, (fs.map (·.id)).contains k ↔ ∃ f ∈ fs, f.id = k := by simp
  have hout : id ∉ ((valid.filter (startsKnown (fs.map (·.id)))).map (·.caller)) ↔
      ∀ e ∈ valid, e.caller ≠ id := by
    have hstarts : ∀ e ∈ valid, startsKnown (fs.map (·.id)) e :=
      fun e he => (hknown _).mpr (hvalid e he).1
    rw [List.filter_eq_self.mpr hstarts]
    simp
  have hin : id ∉ ((valid.filter (staysKnown (fs.map (·.id)))).map (·.callee)) ↔
      ∀ e ∈ valid, ¬ (e.isInternal ∧ e.callee = id) := by
    have hstays : ∀ e ∈ valid, staysKnown (fs.map (·.id)) e ↔ e.isInternal := by
      intro e he
      have hcaller := (hknown _).mpr (hvalid e he).1
      simp only [staysKnown, startsKnown, hcaller, Bool.true_and, Bool.and_eq_true, hknown]
      exact ⟨fun h => h.1, fun h => ⟨h, (hvalid e he).2 h⟩⟩
    simp only [List.mem_map, List.mem_filter, not_exists, not_and, and_imp]
    exact forall₂_congr fun e he => by rw [hstays e he]
  obtain ⟨f, hf⟩ : ∃ f, fs.find? (·.id = id) = some f :=
    Option.isSome_iff_exists.mp (by simpa using hid)
  have hfid : f.id = id := by simpa using List.find?_some hf
  have hentry : (roots o fs).contains id = false := by
    simpa [mem_roots] using hroot
  simp only [CallView.of, dependencyMetrics, List.find?_map, Function.comp_def, hf, Option.map_some,
    Option.any_some, FunctionMetrics.isIsolated, hfid, hentry, Bool.not_false, Bool.and_true,
    Bool.and_eq_true, decide_eq_true_eq, Int.natCast_eq_zero, List.count_eq_zero, hin, hout]
  unfold IsUntouched CallEdge.Touches
  grind

/-- A function that no call touches is not reached, unless it is a root itself. -/
theorem not_isReached_of_isUntouched (hroot : ¬ IsRoot o fs id) (h : IsUntouched valid id) :
    ¬ IsReached o fs valid id := by
  rintro ⟨r, hr, hpath⟩
  rcases hpath.cases_tail with rfl | ⟨b, -, e, he, hinternal, -, hcallee⟩
  · exact hroot hr
  · exact h e he (.inr ⟨hinternal, hcallee⟩)

/-- The calls give a reason for deleting a function that is not reached or only called weakly. -/
theorem exists_explains (hroot : ¬ IsRoot o fs id) :
    (∃ r, Explains o fs valid id r) ↔ ¬ IsReached o fs valid id ∨ IsCalledWeakly o valid id := by
  constructor
  · rintro ⟨_ | _ | _, h⟩
    · exact .inl h.2
    · exact .inr h.2.2
    · exact .inl (not_isReached_of_isUntouched hroot h)
  · intro h
    by_cases huntouched : IsUntouched valid id
    · exact ⟨.isolated, huntouched⟩
    by_cases hreached : IsReached o fs valid id
    · exact ⟨.weakCallers, huntouched, hreached, h.resolve_left (not_not_intro hreached)⟩
    · exact ⟨.unreachable, huntouched, hreached⟩

theorem explains_unique {r r' : PruneReason} (h : Explains o fs valid id r)
    (h' : Explains o fs valid id r') : r = r' := by
  cases r <;> cases r' <;> simp_all [Explains]

/-- No reason is surer than that nothing reaches a function. -/
theorem PruneReason.confidence_le {r r' : PruneReason} (h : r' = r ∨ r' = unreachable)
    (isExported : Bool) : (r.confidence isExported : Rat) ≤ r'.confidence isExported := by
  obtain rfl | rfl := h
  · exact Rat.le_refl
  · cases r <;> cases isExported <;> decide +kernel

/-- The reason that is found is the one that the calls give. -/
theorem reason?_view (hvalid : ∀ e ∈ valid, IsValidCall fs e) (hid : ∃ f ∈ fs, f.id = id)
    (hroot : ¬ IsRoot o fs id) {r : PruneReason} :
    let v := CallView.of fs valid (roots o fs)
    reason? ((v.metrics.find? (·.functionId = id)).any (·.isIsolated)) (v.reachable.contains id)
        (callsInto id valid) o.confidenceThreshold = some r ↔
      Explains o fs valid id r := by
  have hisolated := isIsolated_view hvalid hid hroot
  have hreached : (CallView.of fs valid (roots o fs)).reachable.contains id ↔
      IsReached o fs valid id := by rw [List.contains_iff_mem, mem_reachable_view]
  have hweak : (!(callsInto id valid).isEmpty &&
      (callsInto id valid).all (·.isWeak o.confidenceThreshold)) ↔ IsCalledWeakly o valid id := by
    simp only [Bool.and_eq_true, Bool.not_eq_true', List.isEmpty_eq_false_iff_exists_mem,
      mem_callsInto, List.all_eq_true, IsCalledWeakly, and_imp]
  simp only [reason?]
  cases r <;> simp only [Explains, ← hisolated, ← hreached, ← hweak] <;> grind

end Reasons

/-! ## Order -/

/-- One candidate comes before another: by file, then by line, then by id. -/
@[grind] def Candidate.Precedes (a b : Candidate R) : Prop :=
  a.function.filePath < b.function.filePath ∨ a.function.filePath = b.function.filePath ∧
    (a.function.startLine < b.function.startLine ∨ a.function.startLine = b.function.startLine ∧
      a.function.id < b.function.id)

theorem Candidate.Precedes.not_precedes {a b : Candidate R} (h : a.Precedes b) :
    ¬ b.Precedes a := by
  grind

theorem Candidate.not_precedes_self (a : Candidate R) : ¬ a.Precedes a :=
  fun h => h.not_precedes h

theorem Candidate.before_total (a b : Candidate R) : a.before b || b.before a := by
  have := String.le_total a.function.id b.function.id
  grind [before]

theorem Candidate.before_trans (a b c : Candidate R) (h : a.before b) (h' : b.before c) :
    a.before c := by
  grind [before]

theorem Candidate.precedes_of_before {a b : Candidate R} (h : a.before b)
    (hne : a.function.id ≠ b.function.id) : a.Precedes b := by
  grind [before]

/-! ## Candidates -/

section Candidates

variable [Scale R] {o : PruneOptions R} {fs : List FunctionRecord} {edges : List (CallEdge R)}

/-- A function as a candidate, for some reason. -/
def candidateFor (valid : List (CallEdge R)) (f : FunctionRecord) (r : PruneReason) : Candidate R :=
  let callers := (distinctTexts ((callsInto f.id valid).map (·.caller))).length
  ⟨f, r, r.confidence f.isExported, callers, .of callers f.lineCount⟩

theorem candidate?_eq_some {valid : List (CallEdge R)} (hvalid : ∀ e ∈ valid, IsValidCall fs e)
    {f : FunctionRecord} (hf : f ∈ fs) {c : Candidate R} :
    candidate? o (CallView.of fs valid (roots o fs)) f = some c ↔
      ¬ IsRoot o fs f.id ∧ ∃ r, Explains o fs valid f.id r ∧ ¬ IsExcluded o f ∧
        ¬ (r.confidence f.isExported : R) < o.candidateMinConfidence ∧
        c = candidateFor valid f r := by
  unfold candidate?
  by_cases hroot : IsRoot o fs f.id
  · have hmem : (CallView.of fs valid (roots o fs)).roots.contains f.id := by
      simpa [CallView.of] using mem_roots.mpr hroot
    rw [if_pos hmem]
    simp [hroot]
  have hnot : (CallView.of fs valid (roots o fs)).roots.contains f.id = false := by
    simpa [CallView.of] using mt mem_roots.mp hroot
  have hreason := fun r => @reason?_view R _ o fs valid f.id hvalid ⟨f, hf, rfl⟩ hroot r
  simp only at hreason
  simp only [hnot, Bool.false_eq_true, if_false, hroot, not_false_eq_true, true_and]
  have hedges : (CallView.of fs valid (roots o fs)).edges = valid := rfl
  rw [hedges]
  cases hfound : reason? _ _ (callsInto f.id valid) o.confidenceThreshold with
  | none =>
    simp only [reduceCtorEq, false_iff, not_exists]
    rintro r ⟨hr, -⟩
    exact Option.some_ne_none r (((hreason r).mpr hr).symm.trans hfound)
  | some r =>
    have hr := (hreason r).mp hfound
    have hunique : ∀ r', Explains o fs valid f.id r' ↔ r' = r :=
      fun r' => ⟨fun h => explains_unique h hr, fun h => h ▸ hr⟩
    simp only [hunique, exists_eq_left, ← isKept_iff, Option.ite_none_left_eq_some, Bool.or_eq_true,
      decide_eq_true_eq, not_or, and_assoc, Option.some.injEq]
    refine and_congr .rfl (and_congr .rfl ?_)
    exact eq_comm

/-- The candidates before type evidence is asked. -/
theorem mem_pendingCandidates {c : Candidate R} :
    c ∈ pendingCandidates o fs edges ↔
      fs.find? (·.id = c.function.id) = some c.function ∧ ¬ IsRoot o fs c.function.id ∧
        Explains o fs ((FunctionIndex.ofList fs).validEdges edges) c.function.id c.reason ∧
        ¬ IsExcluded o c.function ∧
        ¬ (c.reason.confidence c.function.isExported : R) < o.candidateMinConfidence ∧
        c = candidateFor ((FunctionIndex.ofList fs).validEdges edges) c.function c.reason := by
  have hvalid : ∀ e ∈ (FunctionIndex.ofList fs).validEdges edges, IsValidCall fs e :=
    fun e he => (mem_validEdges.mp he).2
  simp only [pendingCandidates, List.mem_filterMap, Option.bind_eq_some_iff,
    FunctionIndex.get?_ofList]
  constructor
  · rintro ⟨id, -, f, hfind, hc⟩
    have hid : f.id = id := by simpa using List.find?_some hfind
    obtain ⟨hroot, r, hr, hkept, hsure, rfl⟩ :=
      (candidate?_eq_some hvalid (List.mem_of_find?_eq_some hfind)).mp hc
    subst hid
    exact ⟨hfind, hroot, hr, hkept, hsure, rfl⟩
  · rintro ⟨hfind, hroot, hr, hkept, hsure, hc⟩
    have hf := List.mem_of_find?_eq_some hfind
    exact ⟨c.function.id, FunctionIndex.mem_ids.mpr ⟨_, hf, rfl⟩, c.function, hfind,
      (candidate?_eq_some hvalid hf).mpr ⟨hroot, c.reason, hr, hkept, hsure, hc⟩⟩

theorem mem_pendingCandidates_of_no_calls {c : Candidate R} :
    c ∈ pendingCandidates o fs [] ↔
      fs.find? (·.id = c.function.id) = some c.function ∧ ¬ IsRoot o fs c.function.id ∧
        ¬ IsExcluded o c.function ∧
        ¬ (PruneReason.isolated.confidence c.function.isExported : R) < o.candidateMinConfidence ∧
        c = candidateFor [] c.function .isolated := by
  have hnone : (FunctionIndex.ofList fs).validEdges ([] : List (CallEdge R)) = [] :=
    List.eq_nil_iff_forall_not_mem.mpr fun e he => by simpa using (mem_validEdges.mp he).1
  have huntouched : ∀ id, IsUntouched ([] : List (CallEdge R)) id := fun id e he => by simp at he
  rw [mem_pendingCandidates, hnone]
  constructor
  · rintro ⟨hfind, hroot, hr, hkept, hsure, hc⟩
    have hreason : c.reason = .isolated := explains_unique hr (huntouched _)
    rw [hreason] at hsure hc
    exact ⟨hfind, hroot, hkept, hsure, hc⟩
  · rintro ⟨hfind, hroot, hkept, hsure, hc⟩
    have hreason : c.reason = .isolated := congrArg Candidate.reason hc
    rw [hreason]
    exact ⟨hfind, hroot, huntouched _, hkept, hsure, hc⟩

theorem nodup_pendingCandidates :
    ((pendingCandidates o fs edges).map (·.function.id)).Nodup := by
  have hvalid : ∀ e ∈ (FunctionIndex.ofList fs).validEdges edges, IsValidCall fs e :=
    fun e he => (mem_validEdges.mp he).2
  have hid : ∀ id c, ((FunctionIndex.ofList fs).get? id).bind (candidate? o
      (CallView.of fs ((FunctionIndex.ofList fs).validEdges edges) (roots o fs))) = some c →
        c.function.id = id := by
    intro id c h
    obtain ⟨f, hfind, hc⟩ := Option.bind_eq_some_iff.mp h
    rw [FunctionIndex.get?_ofList] at hfind
    obtain ⟨-, r, -, -, -, rfl⟩ :=
      (candidate?_eq_some hvalid (List.mem_of_find?_eq_some hfind)).mp hc
    show f.id = id
    simpa using List.find?_some hfind
  rw [List.Nodup, List.pairwise_map]
  refine List.Pairwise.filterMap _ (fun id id' hne c hc c' hc' => ?_) (FunctionIndex.nodup_ids fs)
  rwa [hid id c hc, hid id' c' hc']

/-- The candidates in the order in which they are found. -/
theorem select_candidates_eq (protector : Option (FunctionRecord → Evidence R)) :
    (select o fs edges protector).candidates =
      ((pendingCandidates o fs edges).filter fun c =>
        protector.all fun evidenceOn =>
          !(evidenceOn c.function).isProtected o.protectionThreshold).mergeSort
        Candidate.before := by
  cases protector with
  | none => simp [select]
  | some evidenceOn => simp [select, List.filter_map, Function.comp_def]

theorem mem_select_candidates {protector : Option (FunctionRecord → Evidence R)}
    {c : Candidate R} :
    c ∈ (select o fs edges protector).candidates ↔ c ∈ pendingCandidates o fs edges ∧
      ∀ evidenceOn, protector = some evidenceOn →
        ¬ o.protectionThreshold ≤ (evidenceOn c.function).score := by
  rw [select_candidates_eq, List.mem_mergeSort, List.mem_filter]
  cases protector <;> simp [Evidence.isProtected]

theorem nodup_select (protector : Option (FunctionRecord → Evidence R)) :
    ((select o fs edges protector).candidates.map (·.function.id)).Nodup := by
  rw [select_candidates_eq]
  refine ((List.mergeSort_perm _ _).map _).nodup_iff.mpr ?_
  exact nodup_pendingCandidates.sublist (List.filter_sublist.map _)

/-- Candidates come in the order of files, lines and ids. -/
theorem pairwise_select (protector : Option (FunctionRecord → Evidence R)) :
    (select o fs edges protector).candidates.Pairwise Candidate.Precedes := by
  have hsorted : (select o fs edges protector).candidates.Pairwise fun a b => a.before b := by
    rw [select_candidates_eq]
    exact List.pairwise_mergeSort Candidate.before_trans Candidate.before_total _
  refine hsorted.imp₂ (fun a b h hne => Candidate.precedes_of_before h hne) ?_
  exact List.pairwise_map.mp (nodup_select protector)

/-- Candidates are known in full once it is known which they are. -/
theorem select_candidates_of_mem {protector : Option (FunctionRecord → Evidence R)}
    {cs : List (Candidate R)} (hcs : cs.Pairwise Candidate.Precedes)
    (hmem : ∀ c, c ∈ (select o fs edges protector).candidates ↔ c ∈ cs) :
    (select o fs edges protector).candidates = cs := by
  have hirrefl : ∀ {a b : Candidate R}, a.Precedes b → a ≠ b := by
    rintro a _ h rfl
    exact a.not_precedes_self h
  have hperm : (select o fs edges protector).candidates.Perm cs :=
    (List.perm_ext_iff_of_nodup ((pairwise_select protector).imp hirrefl)
      (hcs.imp hirrefl)).mpr hmem
  refine hperm.eq_of_pairwise (fun a b _ _ hab hba => ?_) (pairwise_select protector) hcs
  exact absurd hba hab.not_precedes

/-! ## The selection -/

/-- Exactly the functions that are dead by their calls, and for which nothing speaks, are
candidates: each once, in the order of files, lines and ids. A candidate is isolated if no call
touches it, and then nothing reaches it; otherwise it is unreachable if nothing reaches it. -/
theorem select_candidates_exact (o : PruneOptions R) (fs : List FunctionRecord)
    (edges : List (CallEdge R)) (protector : Option (FunctionRecord → Evidence R)) :
    let valid := (FunctionIndex.ofList fs).validEdges edges
    let chosen := (select o fs edges protector).candidates
    (∀ e, e ∈ valid ↔ e ∈ edges ∧ IsValidCall fs e) ∧
      (chosen.map (·.function.id)).Nodup ∧ chosen.Pairwise Candidate.Precedes ∧
      (∀ id, id ∈ chosen.map (·.function.id) ↔ ∃ f, fs.find? (·.id = id) = some f ∧
        ¬ IsRoot o fs id ∧ (¬ IsReached o fs valid id ∨ IsCalledWeakly o valid id) ∧
        ¬ IsExcluded o f ∧
        (∀ r, Explains o fs valid id r →
          ¬ (r.confidence f.isExported : R) < o.candidateMinConfidence) ∧
        ∀ evidenceOn, protector = some evidenceOn →
          ¬ o.protectionThreshold ≤ (evidenceOn f).score) ∧
      ∀ c ∈ chosen, fs.find? (·.id = c.function.id) = some c.function ∧
        c = candidateFor valid c.function c.reason ∧
        (c.reason = .isolated ↔ IsUntouched valid c.function.id) ∧
        (c.reason = .isolated → ¬ IsReached o fs valid c.function.id) ∧
        (c.reason ≠ .isolated →
          (c.reason = .unreachable ↔ ¬ IsReached o fs valid c.function.id)) := by
  intro valid chosen
  have hmem : ∀ c, c ∈ chosen ↔ c ∈ pendingCandidates o fs edges ∧
      ∀ evidenceOn, protector = some evidenceOn →
        ¬ o.protectionThreshold ≤ (evidenceOn c.function).score := fun c => mem_select_candidates
  refine ⟨fun e => mem_validEdges, nodup_select protector, pairwise_select protector, fun id => ?_,
    fun c hc => ?_⟩
  · rw [List.mem_map]
    constructor
    · rintro ⟨c, hc, rfl⟩
      obtain ⟨hpending, hsafe⟩ := (hmem c).mp hc
      obtain ⟨hfind, hroot, hr, hkept, hsure, -⟩ := mem_pendingCandidates.mp hpending
      refine ⟨c.function, hfind, hroot, (exists_explains hroot).mp ⟨_, hr⟩, hkept, ?_, hsafe⟩
      intro r hr'
      rwa [explains_unique hr' hr]
    · rintro ⟨f, hfind, hroot, hdead, hkept, hsure, hsafe⟩
      obtain rfl : f.id = id := by simpa using List.find?_some hfind
      obtain ⟨r, hr⟩ := (exists_explains hroot).mpr hdead
      refine ⟨candidateFor valid f r, (hmem _).mpr ⟨?_, hsafe⟩, rfl⟩
      exact mem_pendingCandidates.mpr ⟨hfind, hroot, hr, hkept, hsure r hr, rfl⟩
  · obtain ⟨hfind, hroot, hr, -, -, hc⟩ := mem_pendingCandidates.mp ((hmem c).mp hc).1
    refine ⟨hfind, hc, ?_⟩
    have hnot : IsUntouched valid c.function.id → ¬ IsReached o fs valid c.function.id :=
      not_isReached_of_isUntouched hroot
    change Explains o fs valid c.function.id c.reason at hr
    generalize c.function.id = id at hr hnot ⊢
    generalize c.reason = r at hr ⊢
    cases r with
    | unreachable => simp [hr.1, hr.2]
    | weakCallers => simp [hr.1, hr.2.1]
    | isolated => simpa using ⟨hr, hnot hr⟩

end Candidates

end Deadwood
