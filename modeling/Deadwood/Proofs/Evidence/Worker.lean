import Deadwood.Proofs.Evidence.Crew

/-!
# A worker alone

A worker whom nobody interrupts looks for the evidence on functions as a session does: the same
questions are asked, the same is remembered, and the same evidence is found.

## Main definitions

* `Inquiry.finish`: what comes of an inquiry in a session.
* `Crew.Mirrors`: a crew that has done what a session has.

## Main results

* `Inquiry.finish_evidence`: an inquiry asks what a session asks.
* `Crew.exists_run_analyze`, `Crew.exists_run_analyzeAll`: one function, and several.
-/

namespace Deadwood

open EvidenceSession (memoKey)

variable {R : Type}

/-! ## Inquiries in a session -/

namespace EvidenceSession

/-- What a session remembers of a snapshot, as a source. -/
def recalled (s : EvidenceSession R) (snapshot : String) : TypeSource R :=
  (s.memo.getD {}).source snapshot

/-- Ask a source, and remember what it answers. -/
def learn (src : TypeSource R) (snapshot : String) (s : EvidenceSession R) (q : TypeQuery) :
    EvidenceSession R :=
  { memo := s.memo.map (·.keep snapshot src q), asked := q :: s.asked }

/-- What is remembered answers a question, or else the source that is asked. -/
theorem membersOf_eq (src : TypeSource R) (snapshot id : String) (s : EvidenceSession R) :
    membersOf src snapshot id s =
      if (s.recalled snapshot).answers (.members id) then
        ((membersOf (s.recalled snapshot) "" id { memo := none }).1, s)
      else ((membersOf src "" id { memo := none }).1, s.learn src snapshot (.members id)) := by
  obtain ⟨memo, asked⟩ := s
  cases memo with
  | none =>
    cases hsrc : src.membersOf id <;> simp [membersOf, recalled, learn, hsrc, ask, Memo.get?]
  | some m =>
    cases hget : m.members.get? (memoKey snapshot id) with
    | some ms =>
      have hsource : (m.source snapshot).membersOf id = .ok ms := by
        simp [EvidenceMemo.source, hget]
      simp [membersOf, recalled, hget, hsource]
    | none =>
      cases hsrc : src.membersOf id <;>
        simp [membersOf, recalled, hget, hsrc, learn, EvidenceMemo.keep, ask]

theorem implementorsOf_eq (src : TypeSource R) (snapshot id : String) (s : EvidenceSession R) :
    implementorsOf src snapshot id s =
      if (s.recalled snapshot).answers (.implementors id) then
        ((implementorsOf (s.recalled snapshot) "" id { memo := none }).1, s)
      else
        ((implementorsOf src "" id { memo := none }).1,
          s.learn src snapshot (.implementors id)) := by
  obtain ⟨memo, asked⟩ := s
  cases memo with
  | none =>
    cases hsrc : src.implementorsOf id <;>
      simp [implementorsOf, recalled, learn, hsrc, ask, Memo.get?]
  | some m =>
    cases hget : m.implementors.get? (memoKey snapshot id) with
    | some ds =>
      have hsource : (m.source snapshot).implementorsOf id = .ok ds := by
        simp [EvidenceMemo.source, hget]
      simp [implementorsOf, recalled, hget, hsource]
    | none =>
      cases hsrc : src.implementorsOf id <;>
        simp [implementorsOf, recalled, hget, hsrc, learn, EvidenceMemo.keep, ask]

end EvidenceSession

namespace Inquiry

open EvidenceSession

variable {snapshot : String} {src : TypeSource R} {s : EvidenceSession R}

/-- The evidence that a session finds by an inquiry if nobody else acts. -/
def finish (src : TypeSource R) (snapshot : String) :
    Inquiry R → EvidenceSession R → Evidence R × EvidenceSession R
  | .found e, s => (e, s)
  | .ask q next, s =>
    if (s.recalled snapshot).answers q then (next (s.recalled snapshot)).finish src snapshot s
    else (next src).finish src snapshot (s.learn src snapshot q)

theorem finish_classOf (o : MethodOverride R)
    (next : Except Fault (Option EvidenceClass) → Inquiry R) :
    (classOf o next).finish src snapshot s =
      let run := EvidenceSession.classOf src snapshot o s
      (next run.1).finish src snapshot run.2 := by
  unfold classOf MethodOverride.question? EvidenceSession.classOf targetIsAbstract
  cases o.kind with
  | override =>
    dsimp only
    split_ifs with hids
    · rfl
    · rw [membersOf_eq src snapshot]
      simp only [finish]
      split_ifs
      · generalize membersOf (s.recalled snapshot) "" o.targetTypeId { memo := none } = run
        obtain ⟨_ | ms, s'⟩ := run <;> rfl
      · generalize membersOf src "" o.targetTypeId { memo := none } = run
        obtain ⟨_ | ms, s'⟩ := run <;> rfl
  | _ => rfl

theorem finish_classify (os : List (MethodOverride R))
    (next : Except Fault (List (Classed R)) → Inquiry R) :
    (classify os next).finish src snapshot s =
      let run := EvidenceSession.classify src snapshot os s
      (next run.1).finish src snapshot run.2 := by
  induction os generalizing next s with
  | nil => rfl
  | cons o os ih =>
    unfold classify EvidenceSession.classify
    rw [finish_classOf]
    generalize EvidenceSession.classOf src snapshot o s = run
    obtain ⟨_ | c, s'⟩ := run
    · rfl
    · dsimp only
      rw [ih]
      generalize EvidenceSession.classify src snapshot os s' = run
      obtain ⟨_ | rest, s''⟩ := run <;> rfl

theorem finish_implementorsOf (id : String)
    (next : Except Fault (List TypeDefinition) → Inquiry R) :
    (implementorsOf id next).finish src snapshot s =
      let run := EvidenceSession.implementorsOf src snapshot id s
      (next run.1).finish src snapshot run.2 := by
  rw [implementorsOf_eq src snapshot, implementorsOf, finish]
  split_ifs <;> rfl

theorem finish_implementorsOfAll (ids : List String)
    (next : Except Fault (List TypeDefinition) → Inquiry R) :
    (implementorsOfAll ids next).finish src snapshot s =
      let run := EvidenceSession.implementorsOfAll src snapshot ids s
      (next run.1).finish src snapshot run.2 := by
  induction ids generalizing next s with
  | nil => rfl
  | cons id ids ih =>
    unfold implementorsOfAll EvidenceSession.implementorsOfAll
    rw [finish_implementorsOf]
    generalize EvidenceSession.implementorsOf src snapshot id s = run
    obtain ⟨_ | ds, s'⟩ := run
    · rfl
    · dsimp only
      rw [ih]
      generalize EvidenceSession.implementorsOfAll src snapshot ids s' = run
      obtain ⟨_ | rest, s''⟩ := run <;> rfl

variable [Scale R]

theorem finish_evidence (failClosed : Bool) (id : String) :
    (evidence failClosed id).finish src snapshot s = examine src failClosed snapshot id s := by
  have hask : s.learn src snapshot (.overrides id) = s.ask (.overrides id) := by
    cases hmemo : s.memo <;> simp [learn, EvidenceSession.ask, hmemo, EvidenceMemo.keep]
  unfold evidence finish examine
  simp only [recalled, EvidenceMemo.answers_source_overrides, Bool.false_eq_true, if_false, hask]
  cases src.overridesOf id with
  | error f => rfl
  | ok os =>
    dsimp only
    rw [finish_classify]
    generalize EvidenceSession.classify src snapshot os (s.ask (.overrides id)) = run
    obtain ⟨_ | all, s'⟩ := run
    · rfl
    · dsimp only
      rw [finish_implementorsOfAll]
      generalize EvidenceSession.implementorsOfAll src snapshot (interfaceIds all) s' = run
      obtain ⟨_ | ds, s''⟩ := run <;> rfl

end Inquiry

/-! ## Crews -/

namespace Crew

variable {n : Nat} {snapshot id : String} {failClosed : Bool} {c c' : Crew R n} {j : Fin n}
  {src : TypeSource R} {s : EvidenceSession R}

/-- A crew that was answered by one source has asked and remembers what a session does. -/
structure Mirrors (src : TypeSource R) (c : Crew R n) (s : EvidenceSession R) : Prop where
  memo : s.memo = some c.memo
  asked : c.asked.map (·.query) = s.asked.reverse
  answered : ∀ a ∈ c.asked, a.answered = src.answers a.query

theorem Mirrors.learn (h : Mirrors src c s) (q : TypeQuery) (t : Option (Task R)) :
    Mirrors src { c.put j t with
      memo := c.memo.keep snapshot src q, asked := c.asked ++ [⟨j, id, q, src.answers q⟩] }
      (s.learn src snapshot q) where
  memo := by simp [EvidenceSession.learn, h.memo]
  asked := by simp [EvidenceSession.learn, h.asked]
  answered a ha := by
    rcases List.mem_append.mp ha with ha | ha
    · exact h.answered a ha
    · obtain rfl := List.mem_singleton.mp ha
      rfl

theorem Mirrors.keepEvidence (h : Mirrors src c s) (e : Evidence R)
    (results : List (String × Evidence R)) :
    Mirrors src { c.put j none with memo := c.memo.keepEvidence snapshot id e, results }
      (if e.failure.isSome then s else s.remember snapshot id e) := by
  unfold EvidenceMemo.keepEvidence
  split_ifs
  · exact ⟨h.memo, h.asked, h.answered⟩
  · exact ⟨by simp [EvidenceSession.remember, h.memo],
      by simp [EvidenceSession.remember, h.asked, put], h.answered⟩

variable [Scale R]

@[simp] theorem run_append (c : Crew R n) (first rest : List (Fin n × TypeSource R)) :
    c.run snapshot failClosed (first ++ rest) =
      (c.run snapshot failClosed first).run snapshot failClosed rest :=
  List.foldl_append

/-- A worker whom nobody interrupts finds what a session finds. -/
theorem exists_run_inquiry (snapshot : String) (failClosed : Bool) (i : Inquiry R)
    (h : Mirrors src c s) (hdesk : c.desks j = some ⟨id, .consult i⟩) :
    ∃ schedule,
      let found := i.finish src snapshot s
      let after := c.run snapshot failClosed schedule
      Mirrors src after
          (if found.1.failure.isSome then found.2 else found.2.remember snapshot id found.1) ∧
        after.waiting = c.waiting ∧ after.desks = Function.update c.desks j none ∧
        after.results = c.results ++ [(id, found.1)] := by
  induction i generalizing c s with
  | found e =>
    have hturn : c.run snapshot failClosed [(j, src)] = { c.put j none with
        memo := c.memo.keepEvidence snapshot id e, results := c.results ++ [(id, e)] } := by
      simp [run, turn, hdesk, act]
    refine ⟨[(j, src)], ?_⟩
    rw [hturn]
    exact ⟨h.keepEvidence e _, rfl, rfl, rfl⟩
  | ask q next ih =>
    have hrecalled : s.recalled snapshot = c.memo.source snapshot := by
      simp [EvidenceSession.recalled, h.memo]
    unfold Inquiry.finish
    rw [hrecalled]
    split_ifs with hanswers
    · let c₁ : Crew R n := c.put j (some ⟨id, .consult (next (c.memo.source snapshot))⟩)
      have hturn : c.run snapshot failClosed [(j, src)] = c₁ := by
        simp [run, turn, hdesk, act, hanswers, c₁]
      obtain ⟨schedule, hmirrors, hwaiting, hdesks, hresults⟩ :=
        ih (c.memo.source snapshot) (c := c₁) ⟨h.memo, h.asked, h.answered⟩ (by simp [c₁, put])
      refine ⟨[(j, src)] ++ schedule, ?_⟩
      rw [run_append, hturn]
      exact ⟨hmirrors, hwaiting, by simpa [c₁, put] using hdesks, hresults⟩
    · let c₃ : Crew R n := { c.put j (some ⟨id, .consult (next src)⟩) with
        memo := c.memo.keep snapshot src q
        asked := c.asked ++ [⟨j, id, q, src.answers q⟩] }
      have hturns : c.run snapshot failClosed [(j, src), (j, src), (j, src)] = c₃ := by
        simp [run, turn, hdesk, act, hanswers, c₃, put]
      obtain ⟨schedule, hmirrors, hwaiting, hdesks, hresults⟩ :=
        ih src (c := c₃) (h.learn q _) (by simp [c₃, put])
      refine ⟨[(j, src), (j, src), (j, src)] ++ schedule, ?_⟩
      rw [run_append, hturns]
      exact ⟨hmirrors, hwaiting, by simpa [c₃, put] using hdesks, hresults⟩

/-- One worker looks for the evidence on the next function as a session does. -/
theorem exists_run_analyze (snapshot : String) (failClosed : Bool) {rest : List String}
    (h : Mirrors src c s) (hdesk : c.desks j = none) (hwaiting : c.waiting = id :: rest) :
    ∃ schedule,
      let found := EvidenceSession.analyze src failClosed snapshot id s
      let after := c.run snapshot failClosed schedule
      Mirrors src after found.2 ∧ after.waiting = rest ∧ after.desks = c.desks ∧
        after.results = c.results ++ [(id, found.1)] := by
  unfold EvidenceSession.analyze
  dsimp only
  rw [h.memo, Option.bind_some]
  cases hget : c.memo.results.get? (memoKey snapshot id) with
  | some e =>
    have hturn : c.run snapshot failClosed [(j, src)] =
        { c with waiting := rest, results := c.results ++ [(id, e)] } := by
      simp [run, turn, hdesk, take, hwaiting, hget]
    refine ⟨[(j, src)], ?_⟩
    rw [hturn]
    exact ⟨⟨h.memo, h.asked, h.answered⟩, rfl, rfl, rfl⟩
  | none =>
    let c₁ : Crew R n :=
      { c.put j (some ⟨id, .consult (.evidence failClosed id)⟩) with waiting := rest }
    have hturn : c.run snapshot failClosed [(j, src)] = c₁ := by
      simp [run, turn, hdesk, take, hwaiting, hget, c₁]
    have h₁ : Mirrors src c₁ s := ⟨h.memo, h.asked, h.answered⟩
    have hdesk₁ : c₁.desks j = some ⟨id, .consult (.evidence failClosed id)⟩ := by simp [c₁, put]
    have hfree : Function.update c.desks j none = c.desks := by
      rw [← hdesk, Function.update_eq_self]
    obtain ⟨schedule, hmirrors, hrest, hdesks, hresults⟩ :=
      exists_run_inquiry snapshot failClosed _ h₁ hdesk₁
    rw [Inquiry.finish_evidence] at hmirrors hresults
    refine ⟨[(j, src)] ++ schedule, ?_⟩
    rw [run_append, hturn]
    have hdone : (c₁.run snapshot failClosed schedule).desks = c.desks := by
      simpa [c₁, put, hfree] using hdesks
    dsimp only
    split_ifs with hfailed
    · rw [if_pos hfailed] at hmirrors
      exact ⟨hmirrors, hrest, hdone, hresults⟩
    · rw [if_neg hfailed] at hmirrors
      exact ⟨hmirrors, hrest, hdone, hresults⟩

/-- One worker looks for the evidence on all functions as a session does. -/
theorem exists_run_analyzeAll (snapshot : String) (failClosed : Bool) (h : Mirrors src c s)
    (hdesk : c.desks j = none) :
    ∃ schedule,
      let found := EvidenceSession.analyzeAll src failClosed snapshot c.waiting s
      let after := c.run snapshot failClosed schedule
      Mirrors src after found.2 ∧ after.waiting = [] ∧ after.desks = c.desks ∧
        after.results = c.results ++ c.waiting.zip found.1 := by
  generalize hwaiting : c.waiting = ids
  induction ids generalizing c s with
  | nil => exact ⟨[], h, hwaiting, rfl, by simp [run]⟩
  | cons id ids ih =>
    obtain ⟨first, hmirrors, hrest, hdesks, hresults⟩ :=
      exists_run_analyze snapshot failClosed h hdesk hwaiting
    obtain ⟨later, hmirrors', hrest', hdesks', hresults'⟩ := ih hmirrors (hdesks ▸ hdesk) hrest
    refine ⟨first ++ later, ?_⟩
    rw [run_append]
    refine ⟨hmirrors', hrest', hdesks'.trans hdesks, ?_⟩
    rw [hresults', hresults, List.append_assoc]
    rfl

end Crew

end Deadwood
