import Deadwood.Proofs.Evidence.Facts
import Deadwood.Proofs.Pruning.Select
import Deadwood.Proofs.Scale

/-!
# Failed questions protect

If failures are to protect, a function of which some type evidence cannot be had gets the highest
score. The score reaches every threshold between zero and one. Options are refused if their
threshold lies outside of this range, but one that is not a number lies neither inside nor outside:
it is allowed, no score reaches it, and so nothing is protected.

## Main definitions

* `EvidenceSession.Discloses`: a run whose result tells of every question that was refused.

## Main results

* `PruneOptions.threshold_le_one_iff`: which thresholds the highest score reaches.
* `EvidenceSession.analyze_discloses`: evidence on a function after a refused question.
* `refused_question_shields_iff`: what becomes of such functions.
-/

namespace Deadwood

/-! ## Thresholds -/

/-- Of the thresholds that are allowed, the highest score reaches all that are numbers. -/
theorem PruneOptions.threshold_le_one_iff {o : PruneOptions Float} (ho : o.problem? = none) :
    o.protectionThreshold ≤ (1.0 : Float) ↔ o.protectionThreshold.isNaN = false := by
  have hinside : Scale.outside o.protectionThreshold = false := by
    by_contra houtside
    rw [Bool.not_eq_false] at houtside
    unfold problem? at ho
    split_ifs at ho
  constructor
  · intro hle
    by_contra hnan
    exact Float.not_le_of_isNaN (Bool.eq_true_of_not_eq_false hnan) hle
  · intro hnumber
    have hnot : ¬ (1.0 : Float) < o.protectionThreshold := by
      intro hlt
      have houtside : Scale.outside o.protectionThreshold = true :=
        Bool.or_eq_true_iff.mpr (.inr (decide_eq_true hlt))
      exact Bool.false_ne_true (hinside.symm.trans houtside)
    exact Float.le_of_not_lt hnumber (by decide) hnot

/-! ## The log of a session -/

namespace EvidenceSession

variable {R α β : Type} {src : TypeSource R} {snapshot : String} {s : EvidenceSession R}
  {fail : Fault → β} {q : TypeQuery}

/-- A run puts down all questions that it asks, and its result is the failure of any that is
refused. -/
def Discloses (src : TypeSource R) (s : EvidenceSession R) (fail : Fault → β)
    (run : β × EvidenceSession R) : Prop :=
  ∃ news, run.2.asked = news ++ s.asked ∧
    ∀ q ∈ news, ∀ cause, src.refusal? q = some cause → run.1 = fail (q.failed cause)

theorem Discloses.silent {run : β × EvidenceSession R} (h : run.2.asked = s.asked) :
    Discloses src s fail run :=
  ⟨[], h, by simp⟩

theorem Discloses.refused {cause : Fault} (h : src.refusal? q = some cause) :
    Discloses src s fail (fail (q.failed cause), s.ask q) := by
  refine ⟨[q], rfl, fun q' hq' cause' hcause' => ?_⟩
  obtain rfl := List.mem_singleton.mp hq'
  obtain rfl := Option.some.inj (h.symm.trans hcause')
  rfl

theorem Discloses.answered {run : β × EvidenceSession R} (h : src.refusal? q = none)
    (hrun : Discloses src (s.ask q) fail run) : Discloses src s fail run := by
  obtain ⟨news, hasked, hrefused⟩ := hrun
  refine ⟨news ++ [q], by simpa [ask] using hasked, fun q' hq' cause hcause => ?_⟩
  rcases List.mem_append.mp hq' with hnew | hlast
  · exact hrefused q' hnew cause hcause
  · obtain rfl := List.mem_singleton.mp hlast
    exact absurd (h.symm.trans hcause) (Option.some_ne_none cause).symm

/-- A run goes on only if nothing was refused, and stops with the failure otherwise. -/
theorem Discloses.andThen {run : Except Fault α × EvidenceSession R}
    {run' : β × EvidenceSession R} (h : Discloses src s .error run)
    (hfailed : ∀ f s', run = (.error f, s') → run' = (fail f, s'))
    (hnext : ∀ a s', run = (.ok a, s') → Discloses src s' fail run') :
    Discloses src s fail run' := by
  obtain ⟨news, hasked, hrefused⟩ := h
  obtain ⟨answer | a, s'⟩ := run
  · rw [hfailed _ _ rfl]
    refine ⟨news, hasked, fun q hq cause hcause => ?_⟩
    rw [Except.error.inj (hrefused q hq cause hcause)]
  · obtain ⟨more, hmore, hrefused'⟩ := hnext _ _ rfl
    refine ⟨more ++ news, by rw [hmore, hasked, List.append_assoc], fun q hq cause hcause => ?_⟩
    rcases List.mem_append.mp hq with hnew | hold
    · exact hrefused' q hnew cause hcause
    · cases hrefused q hold cause hcause

variable (src snapshot)

theorem membersOf_discloses (s : EvidenceSession R) (id : String) :
    Discloses src s .error (membersOf src snapshot id s) := by
  unfold membersOf
  dsimp only
  split
  · exact .silent rfl
  · cases hsrc : src.membersOf id with
    | error cause => exact .refused (by rw [TypeSource.refusal?, hsrc, cause?])
    | ok ms =>
      refine .answered (q := .members id) (by rw [TypeSource.refusal?, hsrc, cause?]) ?_
      exact .silent rfl

theorem implementorsOf_discloses (s : EvidenceSession R) (id : String) :
    Discloses src s .error (implementorsOf src snapshot id s) := by
  unfold implementorsOf
  dsimp only
  split
  · exact .silent rfl
  · cases hsrc : src.implementorsOf id with
    | error cause => exact .refused (by rw [TypeSource.refusal?, hsrc, cause?])
    | ok ds =>
      refine .answered (q := .implementors id) (by rw [TypeSource.refusal?, hsrc, cause?]) ?_
      exact .silent rfl

theorem targetIsAbstract_discloses (s : EvidenceSession R) (o : MethodOverride R) :
    Discloses src s .error (targetIsAbstract src snapshot o s) := by
  unfold targetIsAbstract
  split_ifs
  · exact .silent rfl
  · refine (membersOf_discloses src snapshot s o.targetTypeId).andThen
      (fun f s' hrun => by rw [hrun]) ?_
    intro ms s' hrun
    rw [hrun]
    exact .silent rfl

theorem classOf_discloses (s : EvidenceSession R) (o : MethodOverride R) :
    Discloses src s .error (classOf src snapshot o s) := by
  unfold classOf
  cases o.kind with
  | override =>
    refine (targetIsAbstract_discloses src snapshot s o).andThen
      (fun f s' hrun => by simp only [hrun]) ?_
    intro isAbstract s' hrun
    simp only [hrun]
    exact .silent rfl
  | _ => exact .silent rfl

theorem classify_discloses (s : EvidenceSession R) (os : List (MethodOverride R)) :
    Discloses src s .error (classify src snapshot os s) := by
  induction os generalizing s with
  | nil => exact .silent rfl
  | cons o os ih =>
    unfold classify
    refine (classOf_discloses src snapshot s o).andThen (fun f s' hrun => by rw [hrun]) ?_
    intro c s' hrun
    rw [hrun]
    refine (ih s').andThen (fun f s'' hrest => by simp only [hrest]) ?_
    intro rest s'' hrest
    simp only [hrest]
    exact .silent rfl

theorem implementorsOfAll_discloses (s : EvidenceSession R) (ids : List String) :
    Discloses src s .error (implementorsOfAll src snapshot ids s) := by
  induction ids generalizing s with
  | nil => exact .silent rfl
  | cons id ids ih =>
    unfold implementorsOfAll
    refine (implementorsOf_discloses src snapshot s id).andThen (fun f s' hrun => by rw [hrun]) ?_
    intro ds s' hrun
    rw [hrun]
    refine (ih s').andThen (fun f s'' hrest => by simp only [hrest]) ?_
    intro rest s'' hrest
    simp only [hrest]
    exact .silent rfl

variable [Scale R] (failClosed : Bool)

theorem examine_discloses (s : EvidenceSession R) (id : String) :
    Discloses src s (.unknown failClosed id) (examine src failClosed snapshot id s) := by
  unfold examine
  dsimp only
  cases hsrc : src.overridesOf id with
  | error cause => exact .refused (by rw [TypeSource.refusal?, hsrc, cause?])
  | ok os =>
    refine .answered (q := .overrides id) (by rw [TypeSource.refusal?, hsrc, cause?]) ?_
    refine (classify_discloses src snapshot _ os).andThen (fun f s' hrun => by simp only [hrun]) ?_
    intro all s' hrun
    simp only [hrun]
    refine (implementorsOfAll_discloses src snapshot s' (interfaceIds all)).andThen
      (fun f s'' hrest => by simp only [hrest]) ?_
    intro ds s'' hrest
    simp only [hrest]
    exact .silent rfl

/-- Whatever a session remembers, the evidence on a function is unknown if a question on it was
refused. -/
theorem analyze_discloses (s : EvidenceSession R) (id : String) :
    Discloses src s (.unknown failClosed id) (analyze src failClosed snapshot id s) := by
  unfold analyze
  dsimp only
  split
  · exact .silent rfl
  · obtain ⟨news, hasked, hrefused⟩ :=
      examine_discloses src snapshot failClosed s id
    split_ifs
    · exact ⟨news, hasked, hrefused⟩
    · exact ⟨news, hasked, hrefused⟩

end EvidenceSession

/-! ## Protected functions -/

section Select

variable {R : Type} [Scale R] {o : PruneOptions R} {fs : List FunctionRecord}
  {edges : List (CallEdge R)} {evidenceOn : FunctionRecord → Evidence R}

/-- What is protected would be a candidate otherwise. -/
theorem mem_select_shielded {p : ProtectedFunction R} :
    p ∈ (select o fs edges (some evidenceOn)).shielded ↔
      ∃ c ∈ pendingCandidates o fs edges,
        o.protectionThreshold ≤ (evidenceOn c.function).score ∧
          ⟨c.function, evidenceOn c.function⟩ = p := by
  simp only [select, List.filter_map, List.map_map, List.mem_map, List.mem_filter,
    Function.comp_apply, Evidence.isProtected, decide_eq_true_eq, and_assoc]

theorem mem_select_warnings {w : String} :
    w ∈ (select o fs edges (some evidenceOn)).warnings ↔
      ∃ c ∈ pendingCandidates o fs edges, ∃ failure,
        (evidenceOn c.function).failure = some failure ∧
          evidenceWarning c.function failure = w := by
  simp only [select, List.filterMap_map, List.mem_filterMap, Function.comp_apply,
    Option.map_eq_some_iff]

end Select

/-- A candidate whose evidence is unknown is named in a warning. It is protected if the threshold is
a number, and stays a candidate otherwise. -/
theorem select_of_unknown {o : PruneOptions Float} (ho : o.problem? = none)
    {fs : List FunctionRecord} {edges : List (CallEdge Float)}
    {evidenceOn : FunctionRecord → Evidence Float} {c : Candidate Float} {failure : Fault}
    (hc : c ∈ pendingCandidates o fs edges)
    (hunknown : evidenceOn c.function = .unknown true c.function.id failure) :
    (c ∈ (select o fs edges (some evidenceOn)).candidates ↔ o.protectionThreshold.isNaN = true) ∧
      evidenceWarning c.function failure ∈ (select o fs edges (some evidenceOn)).warnings ∧
      (⟨c.function, .unknown true c.function.id failure⟩ ∈
        (select o fs edges (some evidenceOn)).shielded ↔
          o.protectionThreshold.isNaN = false) := by
  have hreaches : o.protectionThreshold ≤ (evidenceOn c.function).score ↔
      o.protectionThreshold.isNaN = false := by
    rw [hunknown]
    exact o.threshold_le_one_iff ho
  refine ⟨?_, mem_select_warnings.mpr ⟨c, hc, failure, by rw [hunknown]; rfl, rfl⟩, ?_⟩
  · rw [mem_select_candidates, ← Bool.not_eq_false, ← hreaches]
    simp [hc]
  · rw [mem_select_shielded, ← hreaches]
    constructor
    · rintro ⟨c', -, hle, heq⟩
      obtain ⟨hfunction, -⟩ := ProtectedFunction.mk.inj heq
      rwa [hfunction] at hle
    · intro hle
      exact ⟨c, hc, hle, by rw [hunknown]⟩

/-- Under allowed options, a function of which a question was refused is named in a warning with the
failure of the question, if it would be a candidate. If the threshold is a number, the function is
protected and is no candidate. But if the threshold is not a number, the function is not protected
and stays a candidate. Sources may change from one function to the next, and anything may be
remembered. -/
theorem refused_question_shields_iff {o : PruneOptions Float} (ho : o.problem? = none)
    (fs : List FunctionRecord) (edges : List (CallEdge Float)) (source : String → TypeSource Float)
    (snapshot : String) (memory : String → Option (EvidenceMemo Float)) :
    let run (id : String) :=
      EvidenceSession.analyze (source id) true snapshot id { memo := memory id }
    let chosen := select o fs edges (some fun f => (run f.id).1)
    let otherwise := (select o fs edges none).candidates
    ∀ id q cause, q ∈ (run id).2.asked → (source id).refusal? q = some cause →
      (id ∈ chosen.candidates.map (·.function.id) ↔
        o.protectionThreshold.isNaN ∧ id ∈ otherwise.map (·.function.id)) ∧
      ∀ c ∈ otherwise, c.function.id = id →
        evidenceWarning c.function (q.failed cause) ∈ chosen.warnings ∧
        (⟨c.function, .unknown true id (q.failed cause)⟩ ∈ chosen.shielded ↔
          o.protectionThreshold.isNaN = false) := by
  intro run chosen otherwise id q cause hasked hcause
  have hunknown : (run id).1 = .unknown true id (q.failed cause) := by
    obtain ⟨news, hnews, hrefused⟩ :=
      EvidenceSession.analyze_discloses (source id) snapshot true { memo := memory id } id
    rw [List.append_nil] at hnews
    exact hrefused q (hnews ▸ hasked) cause hcause
  have hotherwise : ∀ c, c ∈ otherwise ↔ c ∈ pendingCandidates o fs edges :=
    fun c => mem_select_candidates.trans (and_iff_left fun _ h => nomatch h)
  have hselect : ∀ c ∈ pendingCandidates o fs edges, c.function.id = id →
      (c ∈ chosen.candidates ↔ o.protectionThreshold.isNaN = true) ∧
        evidenceWarning c.function (q.failed cause) ∈ chosen.warnings ∧
        (⟨c.function, .unknown true id (q.failed cause)⟩ ∈ chosen.shielded ↔
          o.protectionThreshold.isNaN = false) := by
    rintro c hc rfl
    exact select_of_unknown ho hc hunknown
  simp only [List.mem_map, hotherwise]
  refine ⟨⟨?_, ?_⟩, ?_⟩
  · rintro ⟨c, hc, hid⟩
    have hpending := (mem_select_candidates.mp hc).1
    exact ⟨(hselect c hpending hid).1.mp hc, c, hpending, hid⟩
  · rintro ⟨hnan, c, hc, hid⟩
    exact ⟨c, (hselect c hc hid).1.mpr hnan, hid⟩
  · rintro c hc rfl
    exact (hselect c hc rfl).2

/-- The members of a type are refused after the overrides of a function were told. With the highest
threshold the function is protected; with one that is not a number it is to be deleted. -/
theorem refused_question_shields_iff_not_a_number :
    let f : FunctionRecord :=
      { id := "f", name := "visit", filePath := "a.ts", startLine := 1, endLine := 1 }
    let overrides : List (MethodOverride Float) :=
      [{ id := "o1", targetTypeId := "A", kind := .abstractImplement, isCompatible := true,
         confidence := 1 },
        { id := "o2", targetTypeId := "B", targetMemberId := "m", kind := .override,
          confidence := 1 }]
    let source : TypeSource Float :=
      { overridesOf := fun _ => .ok overrides
        membersOf := fun _ => .error .missing
        implementorsOf := fun _ => .ok [] }
    let evidenceOn := fun g : FunctionRecord => Evidence.of source true "s" g.id
    let highest : PruneOptions Float := { protectionThreshold := 1.0 }
    let blank : PruneOptions Float := { protectionThreshold := 0.0 / 0.0 }
    (highest.problem? = none ∧ blank.problem? = none) ∧
      (source.refusal? (.members "B") = some .missing ∧
        (evidenceOn f).failure = some ((TypeQuery.members "B").failed .missing)) ∧
      (∀ c ∈ (select highest [f] [] (some evidenceOn)).candidates, c.function.id ≠ "f") ∧
      ∃ c ∈ (select blank [f] [] (some evidenceOn)).candidates, c.function.id = "f" := by
  intro f overrides source evidenceOn highest blank
  have hallowed : highest.problem? = none ∧ blank.problem? = none := by
    constructor <;> rw [← Option.isNone_iff_eq_none] <;> decide +kernel
  have hasked : TypeQuery.members "B" ∈
      (EvidenceSession.analyze source true "s" "f" { memo := none }).2.asked := by decide +kernel
  have hotherwise : "f" ∈ (select blank [f] [] none).candidates.map (·.function.id) := by
    decide +kernel
  have hnumber : highest.protectionThreshold.isNaN = false ∧
      blank.protectionThreshold.isNaN = true := by decide +kernel
  obtain ⟨hshielded, -⟩ := refused_question_shields_iff hallowed.1 [f] [] (fun _ => source) "s"
    (fun _ => none) "f" _ _ hasked rfl
  obtain ⟨hleft, -⟩ := refused_question_shields_iff hallowed.2 [f] [] (fun _ => source) "s"
    (fun _ => none) "f" _ _ hasked rfl
  refine ⟨hallowed, ⟨rfl, ?_⟩, fun c hc hid => ?_, ?_⟩
  · rfl
  · have hnan := (hshielded.mp (List.mem_map.mpr ⟨c, hc, hid⟩)).1
    exact Bool.false_ne_true (hnumber.1.symm.trans hnan)
  · exact List.mem_map.mp (hleft.mpr ⟨hnumber.2, hotherwise⟩)

end Deadwood
