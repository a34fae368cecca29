import Deadwood.Evidence.Call
import Deadwood.Proofs.Evidence.Session

/-!
# Remembering changes no evidence

Calls for evidence may share run contexts, and each of them may find some of its questions refused.
As long as the type relations stay as they are, a call gives the evidence that would be found
without any memory, or says that a question was refused. What was refused once is asked again, and
what is remembered is never a refusal.

## Main definitions

* `EvidenceRequest.reply`: the reply to a request by the evidence on every function.
* `RunContexts.Hold`: contexts that remember nothing wrong.

## Main results

* `EvidenceCall.respond_exact`: the reply of a session, and how the session goes on.
* `RunContexts.hold_after`: what is remembered after some calls.
* `EvidenceCall.answer_transparent`: a call after others.
-/

namespace Deadwood

open EvidenceSession

variable {R : Type} [Scale R] {t : TypeFacts R}

/-- The reply to a request if this is the evidence on every function. -/
def EvidenceRequest.reply (found : String → Evidence R) : EvidenceRequest R → EvidenceReply R
  | .one id => .evidence (found id)
  | .many ids => .evidences (ids.map found)
  | .protect id threshold => .verdict ((found id).isProtected threshold)

/-! ## What contexts remember -/

namespace RunContexts

/-- What is remembered in any context is so. -/
def Hold (cs : RunContexts R) (t : TypeFacts R) : Prop :=
  ∀ name, (cs.memo name).Holds t

omit [Scale R] in
@[simp, grind =] theorem memo_put (cs : RunContexts R) (name other : String) (m : EvidenceMemo R) :
    (cs.put name m).memo other = if other = name then m else cs.memo other := by
  unfold memo put
  rw [lookup_assign]
  split_ifs <;> rfl

theorem hold_nothing (t : TypeFacts R) : ({} : RunContexts R).Hold t :=
  fun _ => .empty t

theorem Hold.put {cs : RunContexts R} (h : cs.Hold t) {m : EvidenceMemo R} (hm : m.Holds t)
    (name : String) : (cs.put name m).Hold t := by
  intro other
  rw [memo_put]
  split_ifs
  · exact hm
  · exact h other

end RunContexts

/-! ## Answers -/

namespace EvidenceCall

variable {c : EvidenceCall R} {cs : RunContexts R}

theorem session_recalls (hcs : cs.Hold t) (hplain : IsPlain c.snapshot) :
    (c.session cs).Recalls t c.snapshot := by
  refine ⟨fun _ _ => hplain, fun m hm => ?_⟩
  obtain ⟨name, -, rfl⟩ := Option.map_eq_some_iff.mp hm
  exact hcs name

/-- A session replies by the evidence on every function that nothing keeps unknown. -/
theorem respond_exact (reports : c.source.Reports t) {s : EvidenceSession R}
    (hs : s.Recalls t c.snapshot) :
    (c.respond s).1 = c.request.reply (fun id =>
        t.verdict c.failClosed id (s.obstacle? c.source t c.snapshot id)) ∧
      GoesOn c.source t c.snapshot s (c.respond s).2 := by
  unfold respond EvidenceRequest.reply
  cases c.request with
  | one id =>
    obtain ⟨hverdict, hgoes⟩ := analyze_exact reports c.failClosed hs id
    exact ⟨congrArg EvidenceReply.evidence hverdict, hgoes⟩
  | many ids =>
    obtain ⟨hverdicts, hgoes⟩ := analyzeAll_exact reports c.failClosed hs ids
    exact ⟨congrArg EvidenceReply.evidences hverdicts, hgoes⟩
  | protect id threshold =>
    obtain ⟨hverdict, hgoes⟩ := analyze_exact reports c.failClosed hs id
    exact ⟨congrArg (fun e => EvidenceReply.verdict (e.isProtected threshold)) hverdict, hgoes⟩

/-- What a session has learnt is what its context remembers then. -/
theorem session_answer (request : EvidenceRequest R)
    (hsome : (c.respond (c.session cs)).2.memo.isSome = (c.session cs).memo.isSome) :
    ({ c with request } : EvidenceCall R).session (c.answer cs).contexts =
      { memo := (c.respond (c.session cs)).2.memo } := by
  change ({ memo := c.context.map (c.answer cs).contexts.memo } : EvidenceSession R) = _
  unfold answer
  dsimp only
  generalize c.respond (c.session cs) = run at hsome ⊢
  cases hcontext : c.context with
  | none =>
    have hnone : run.2.memo = none := by simpa [session, hcontext] using hsome
    rw [hnone, Option.map_none]
  | some name =>
    obtain ⟨m, hm⟩ : ∃ m, run.2.memo = some m := by
      simpa [session, hcontext, Option.isSome_iff_exists] using hsome
    simp only [hm, Option.map_some, RunContexts.memo_put, if_true]

theorem answer_hold (reports : c.source.Reports t) (hplain : IsPlain c.snapshot) (hcs : cs.Hold t) :
    (c.answer cs).contexts.Hold t := by
  obtain ⟨-, hgoes⟩ := respond_exact reports (session_recalls hcs hplain)
  unfold answer
  dsimp only
  split
  · rename_i name m _ hm
    exact hcs.put (hgoes.recalls.holds m hm) name
  · exact hcs

end EvidenceCall

/-- Whatever calls there were before, of whatever contexts, and whatever was refused to them. -/
theorem RunContexts.hold_after {calls : List (EvidenceCall R)}
    (hreports : ∀ c ∈ calls, c.source.Reports t) (hplain : ∀ c ∈ calls, IsPlain c.snapshot) :
    (RunContexts.after calls).Hold t := by
  unfold RunContexts.after
  refine List.foldlRecOn (motive := (RunContexts.Hold · t)) calls _ (RunContexts.hold_nothing t) ?_
  intro cs hcs c hc
  exact EvidenceCall.answer_hold (hreports c hc) (hplain c hc) hcs

/-- After any calls, a call finds on each function the evidence that is found without any memory if
no question is refused, or else a question on which this evidence depends is refused to it. Once
none of these is refused, it finds that evidence. The evidence on several functions is what separate
calls find on each of them, before and after. No refusal is remembered. -/
theorem EvidenceCall.answer_transparent (t : TypeFacts R) (earlier : List (EvidenceCall R))
    (c : EvidenceCall R) (hreports : ∀ d ∈ earlier ++ [c], d.source.Reports t)
    (hplain : ∀ d ∈ earlier ++ [c], IsPlain d.snapshot) :
    let contexts := RunContexts.after earlier
    let real id := Evidence.of t.source c.failClosed c.snapshot id
    ∃ found : String → Evidence R,
      (c.answer contexts).reply = c.request.reply found ∧
      (∀ id, found id = real id ∨
        ∃ q ∈ t.questions id, ∃ cause, c.source.refusal? q = some cause ∧
          found id = .unknown c.failClosed id (q.failed cause)) ∧
      (∀ id, (∀ q ∈ t.questions id, c.source.refusal? q = none) → found id = real id) ∧
      (∀ id, ({ c with request := .one id }.answer contexts).reply = .evidence (found id) ∧
        ({ c with request := .one id }.answer (c.answer contexts).contexts).reply =
          .evidence (found id)) ∧
      ∀ name key e, (contexts.memo name).results.get? key = some e → e.failure = none := by
  intro contexts real
  have hc : c ∈ earlier ++ [c] := by simp
  have hbefore : contexts.Hold t :=
    RunContexts.hold_after (fun d hd => hreports d (List.mem_append_left _ hd))
      fun d hd => hplain d (List.mem_append_left _ hd)
  have hreal : ∀ id, real id = t.evidence id := Evidence.of_source t c.failClosed c.snapshot
  have hrecalls : (c.session contexts).Recalls t c.snapshot := session_recalls hbefore (hplain c hc)
  obtain ⟨hreply, hgoes⟩ := respond_exact (hreports c hc) hrecalls
  refine ⟨_, hreply, fun id => ?_, fun id hanswered => ?_, fun id => ⟨?_, ?_⟩,
    fun name key e he => ?_⟩
  · cases hcause : (c.session contexts).obstacle? c.source t c.snapshot id with
    | none => exact .inl (hreal id).symm
    | some f =>
      obtain ⟨q, hq, cause, hrefused, rfl⟩ := exists_refused hcause
      exact .inr ⟨q, hq, cause, hrefused, rfl⟩
  · rw [obstacle?_eq_none hanswered]
    exact (hreal id).symm
  · let alone : EvidenceCall R := { c with request := .one id }
    exact (alone.respond_exact (hreports c hc) hrecalls).1
  · -- the call has added to its context only what its source says, and would say again
    let alone : EvidenceCall R := { c with request := .one id }
    have hagain : (alone.session (c.answer contexts).contexts).Recalls t c.snapshot :=
      session_recalls (answer_hold (hreports c hc) (hplain c hc) hbefore) (hplain c hc)
    have hsession := session_answer (.one id) hgoes.memo_isSome
    refine (alone.respond_exact (hreports c hc) hagain).1.trans ?_
    rw [hsession]
    change EvidenceReply.evidence (t.verdict c.failClosed id
      ((c.respond (c.session contexts)).2.obstacle? c.source t c.snapshot id)) = _
    rw [hgoes.obstacle?_eq]
  · obtain ⟨-, id, -, -, rfl⟩ := (hbefore name).results key e he
    rfl

/-- Two calls are refused answers, one of them after it has learnt the members of a type. A third
call of the same context finds the evidence. -/
theorem EvidenceCall.answer_transparent_refused_twice :
    let t : TypeFacts Rat :=
      { overridesOf := fun id => if id = "f" then
          [{ id := "o1", targetTypeId := "T", targetMemberId := "m", kind := .override,
             isCompatible := true, confidence := 1 },
            { id := "o2", targetTypeId := "I", kind := .implement, isCompatible := true,
              confidence := 1 }] else []
        membersOf := fun _ => [{ id := "m", isAbstract := true }]
        implementorsOf := fun _ => [{ id := "A", name := "A" }] }
    let first : EvidenceCall Rat :=
      { source := { t.source with membersOf := fun _ => .error .missing }
        failClosed := true, given := some "run", snapshot := "s", request := .one "f" }
    let second : EvidenceCall Rat :=
      { source := { t.source with implementorsOf := fun _ => .error .cancelled }
        given := some "other", carried := some "run", snapshot := "s", request := .protect "f" 0.5 }
    let third : EvidenceCall Rat :=
      { source := t.source, given := some "run", snapshot := "s", request := .many ["f", "g", "f"] }
    let real id := Evidence.of t.source false "s" id
    (first.answer {}).reply = .evidence (.unknown true "f" (.query "GetTypeMembers" "T" .missing)) ∧
      (second.answer (RunContexts.after [first])).asked =
        [.overrides "f", .members "T", .implementors "I"] ∧
      (third.answer (RunContexts.after [first, second])).reply =
        .evidences [real "f", real "g", real "f"] ∧
      (third.answer (RunContexts.after [first, second])).asked =
        [.overrides "f", .implementors "I", .overrides "g"] := by
  intro t first second third real
  have hreports : ∀ d ∈ [first, second] ++ [third], d.source.Reports t := by
    intro d hd
    simp only [List.cons_append, List.nil_append, List.mem_cons, List.not_mem_nil, or_false] at hd
    obtain rfl | rfl | rfl := hd
    · exact { t.reports_source with members := fun h => nomatch h }
    · exact { t.reports_source with implementors := fun h => nomatch h }
    · exact t.reports_source
  have hplain : ∀ d ∈ [first, second] ++ [third], IsPlain d.snapshot := by
    intro d hd
    simp only [List.cons_append, List.nil_append, List.mem_cons, List.not_mem_nil, or_false] at hd
    obtain rfl | rfl | rfl := hd <;> decide
  obtain ⟨found, hreply, -, hfound, -⟩ :=
    EvidenceCall.answer_transparent t [first, second] third hreports hplain
  have hreal : ∀ id, found id = real id := fun id => hfound id fun q _ => t.refusal?_source q
  refine ⟨rfl, by decide +kernel, ?_, by decide +kernel⟩
  rw [hreply]
  simp only [third, EvidenceRequest.reply, List.map_cons, List.map_nil, hreal]

end Deadwood
