import Deadwood.Proofs.Evidence.Facts
import Deadwood.Proofs.Memo
import Mathlib.Logic.Relation

/-!
# Sessions of questions

A session asks only for what it does not remember, and it remembers what it is told. So the evidence
that it gives on a function is decided by the first question that is neither remembered nor
answered; if there is none, it is the evidence of the type relations. This is the same at any moment
of a session, as long as the source stays as it is: what a session learns is what the source would
have said.

## Main definitions

* `IsPlain`: texts that can be part of a key.
* `EvidenceSession.Recalls`: a session that remembers nothing wrong.
* `EvidenceSession.failure?`, `EvidenceSession.obstacle?`: what a question fails with, and why
  evidence stays unknown.
* `EvidenceSession.Step`: one thing that a session does.

## Main results

* `EvidenceSession.Step.failure?_eq`, `EvidenceSession.Step.recalls`: what steps keep.
* `EvidenceSession.examine_settles`: how a session asks for evidence.
* `EvidenceSession.analyze_exact`, `EvidenceSession.analyzeAll_exact`: the evidence that it gives.
* `EvidenceSession.analyze_source`, `Evidence.of_source`: the evidence if no question fails.
-/

namespace Deadwood

open Relation (ReflTransGen)

variable {R : Type}

/-! ## Keys -/

/-- A text without NUL characters. The key of an id begins with the snapshot and a NUL. -/
def IsPlain (s : String) : Prop :=
  '\x00' ∉ s.toList

instance (s : String) : Decidable (IsPlain s) :=
  inferInstanceAs (Decidable (¬ _))

namespace EvidenceSession

variable {snapshot snapshot' id id' : String}

@[simp] theorem toList_memoKey :
    (memoKey snapshot id).toList = snapshot.toList ++ '\x00' :: id.toList := by
  simp [memoKey]

@[simp] theorem memoKey_right_inj : memoKey snapshot id = memoKey snapshot id' ↔ id = id' := by
  refine ⟨fun h => ?_, fun h => h ▸ rfl⟩
  have htexts := congrArg String.toList h
  simp only [toList_memoKey, List.append_cancel_left_eq, List.cons.injEq, true_and] at htexts
  exact String.toList_injective htexts

/-- Keys of plain snapshots tell the ids apart. -/
theorem eq_of_memoKey_eq (h : IsPlain snapshot) (h' : IsPlain snapshot')
    (heq : memoKey snapshot id = memoKey snapshot' id') : id = id' := by
  have hbefore : ∀ {s i : String}, IsPlain s →
      (memoKey s i).toList.takeWhile (· ≠ '\x00') = s.toList := by
    intro s i hs
    rw [toList_memoKey, List.takeWhile_append_of_pos]
    · simp
    · intro c hc
      have hne : c ≠ '\x00' := fun hnul => hs (hnul ▸ hc)
      simpa using hne
  have hsnapshot : snapshot = snapshot' :=
    String.toList_injective ((hbefore h).symm.trans (heq ▸ hbefore h'))
  subst hsnapshot
  exact memoKey_right_inj.mp heq

end EvidenceSession

open EvidenceSession (memoKey)

/-! ## Tables -/

namespace Memo

variable {α : Type} {m : Memo α} {value : String → α} {snapshot : String}

/-- All that a table holds are values of ids, under the keys of the ids in some snapshots. -/
def Holds (m : Memo α) (value : String → α) : Prop :=
  ∀ key v, m.get? key = some v →
    ∃ snapshot id, IsPlain snapshot ∧ key = memoKey snapshot id ∧ v = value id

theorem Holds.empty : ({} : Memo α).Holds value := by
  intro key v h
  simp [get?] at h

theorem Holds.set (h : m.Holds value) (hplain : IsPlain snapshot) (id : String) :
    (m.set (memoKey snapshot id) (value id)).Holds value := by
  intro key v hv
  rw [get?_set] at hv
  split_ifs at hv with hkey
  · exact ⟨snapshot, id, hplain, hkey, (Option.some.inj hv).symm⟩
  · exact h key v hv

theorem Holds.eq (h : m.Holds value) (hplain : IsPlain snapshot) {id : String} {v : α}
    (hget : m.get? (memoKey snapshot id) = some v) : v = value id := by
  obtain ⟨snapshot', id', hplain', hkey, rfl⟩ := h _ v hget
  rw [EvidenceSession.eq_of_memoKey_eq hplain hplain' hkey]

end Memo

/-- What is remembered is so. -/
structure EvidenceMemo.Holds [Scale R] (m : EvidenceMemo R) (t : TypeFacts R) : Prop where
  results : m.results.Holds t.evidence
  members : m.members.Holds t.membersOf
  implementors : m.implementors.Holds t.implementorsOf

theorem EvidenceMemo.Holds.empty [Scale R] (t : TypeFacts R) : ({} : EvidenceMemo R).Holds t :=
  ⟨.empty, .empty, .empty⟩

namespace EvidenceSession

variable {src : TypeSource R} {t : TypeFacts R} {snapshot : String} {s s' : EvidenceSession R}

/-! ## Steps -/

/-- Whether the answer to a question is remembered. -/
def remembers (snapshot : String) (s : EvidenceSession R) : TypeQuery → Bool
  | .overrides _ => false
  | .members id => (s.memo.bind (·.members.get? (memoKey snapshot id))).isSome
  | .implementors id => (s.memo.bind (·.implementors.get? (memoKey snapshot id))).isSome

/-- What a question fails with, if it does. What is remembered is not asked. -/
def failure? (src : TypeSource R) (snapshot : String) (s : EvidenceSession R) (q : TypeQuery) :
    Option Fault :=
  if s.remembers snapshot q then none else (src.refusal? q).map q.failed

/-- One thing that a session does while it looks for evidence: it asks a question, and remembers
the answer. Questions on the overrides of functions are asked always, the others only if there is no
answer yet. -/
inductive Step (src : TypeSource R) (snapshot : String) :
    EvidenceSession R → EvidenceSession R → Prop
  | overrides {s : EvidenceSession R} (id : String) : Step src snapshot s (s.ask (.overrides id))
  | refused {s : EvidenceSession R} {q : TypeQuery} {f : Fault}
      (h : s.failure? src snapshot q = some f) : Step src snapshot s (s.ask q)
  | members {s : EvidenceSession R} {id : String} {ms : List TypeMember}
      (hnew : s.remembers snapshot (.members id) = false) (h : src.membersOf id = .ok ms) :
      Step src snapshot s { s.ask (.members id) with
        memo := s.memo.map fun m => { m with members := m.members.set (memoKey snapshot id) ms } }
  | implementors {s : EvidenceSession R} {id : String} {ds : List TypeDefinition}
      (hnew : s.remembers snapshot (.implementors id) = false)
      (h : src.implementorsOf id = .ok ds) :
      Step src snapshot s { s.ask (.implementors id) with
        memo := s.memo.map fun m =>
          { m with implementors := m.implementors.set (memoKey snapshot id) ds } }

theorem failure?_congr {q : TypeQuery} (h : s'.remembers snapshot q = s.remembers snapshot q) :
    s'.failure? src snapshot q = s.failure? src snapshot q := by
  simp only [failure?, h]

/-- What the session has learnt by a step makes no question fail, and none succeed. -/
theorem Step.failure?_eq (h : Step src snapshot s s') :
    s'.failure? src snapshot = s.failure? src snapshot := by
  funext q
  cases h with
  | overrides id => rfl
  | refused _ => rfl
  | @members id ms hnew hsrc =>
    cases q with
    | overrides _ => rfl
    | implementors j => exact failure?_congr (by cases hmemo : s.memo <;> simp [remembers, hmemo])
    | members j =>
      by_cases hj : j = id
      · simp [failure?, hj, TypeSource.refusal?, hsrc, cause?]
      · refine failure?_congr ?_
        cases hmemo : s.memo <;> simp [remembers, hmemo, hj]
  | @implementors id ds hnew hsrc =>
    cases q with
    | overrides _ => rfl
    | members j => exact failure?_congr (by cases hmemo : s.memo <;> simp [remembers, hmemo])
    | implementors j =>
      by_cases hj : j = id
      · simp [failure?, hj, TypeSource.refusal?, hsrc, cause?]
      · refine failure?_congr ?_
        cases hmemo : s.memo <;> simp [remembers, hmemo, hj]

/-- Steps leave the table of evidence as it is. -/
theorem Step.results_eq (h : Step src snapshot s s') :
    s'.memo.map (·.results) = s.memo.map (·.results) := by
  cases h with
  | overrides id => rfl
  | refused _ => rfl
  | members _ _ => simp [Function.comp_def]
  | implementors _ _ => simp [Function.comp_def]

/-- Several steps, one after the other. -/
abbrev Steps (src : TypeSource R) (snapshot : String) :
    EvidenceSession R → EvidenceSession R → Prop :=
  ReflTransGen (Step src snapshot)

theorem Steps.failure?_eq (h : Steps src snapshot s s') :
    s'.failure? src snapshot = s.failure? src snapshot := by
  induction h with
  | refl => rfl
  | tail _ hstep ih => exact hstep.failure?_eq.trans ih

theorem Steps.results_eq (h : Steps src snapshot s s') :
    s'.memo.map (·.results) = s.memo.map (·.results) := by
  induction h with
  | refl => rfl
  | tail _ hstep ih => exact hstep.results_eq.trans ih

/-- The members of a type are remembered, or refused, or told and then remembered. -/
theorem membersOf_cases (src : TypeSource R) (snapshot id : String) (s : EvidenceSession R) :
    (∃ ms, s.memo.bind (·.members.get? (memoKey snapshot id)) = some ms ∧
      membersOf src snapshot id s = (.ok ms, s)) ∨
    (∃ f, s.failure? src snapshot (.members id) = some f ∧
      membersOf src snapshot id s = (.error f, s.ask (.members id))) ∨
    ∃ ms, s.remembers snapshot (.members id) = false ∧ src.membersOf id = .ok ms ∧
      membersOf src snapshot id s = (.ok ms, { s.ask (.members id) with
        memo := s.memo.map fun m =>
          { m with members := m.members.set (memoKey snapshot id) ms } }) := by
  unfold membersOf
  dsimp only
  split
  · rename_i ms hms
    exact .inl ⟨ms, hms, rfl⟩
  · rename_i hnone
    have hnew : s.remembers snapshot (.members id) = false := by simp [remembers, hnone]
    cases hsrc : src.membersOf id with
    | error cause =>
      have hfails : s.failure? src snapshot (.members id) =
          some ((TypeQuery.members id).failed cause) := by
        simp [failure?, hnew, TypeSource.refusal?, hsrc, cause?]
      exact .inr (.inl ⟨_, hfails, rfl⟩)
    | ok ms => exact .inr (.inr ⟨ms, hnew, rfl, rfl⟩)

/-- The same for the classes that implement an interface. -/
theorem implementorsOf_cases (src : TypeSource R) (snapshot id : String) (s : EvidenceSession R) :
    (∃ ds, s.memo.bind (·.implementors.get? (memoKey snapshot id)) = some ds ∧
      implementorsOf src snapshot id s = (.ok ds, s)) ∨
    (∃ f, s.failure? src snapshot (.implementors id) = some f ∧
      implementorsOf src snapshot id s = (.error f, s.ask (.implementors id))) ∨
    ∃ ds, s.remembers snapshot (.implementors id) = false ∧ src.implementorsOf id = .ok ds ∧
      implementorsOf src snapshot id s = (.ok ds, { s.ask (.implementors id) with
        memo := s.memo.map fun m =>
          { m with implementors := m.implementors.set (memoKey snapshot id) ds } }) := by
  unfold implementorsOf
  dsimp only
  split
  · rename_i ds hds
    exact .inl ⟨ds, hds, rfl⟩
  · rename_i hnone
    have hnew : s.remembers snapshot (.implementors id) = false := by simp [remembers, hnone]
    cases hsrc : src.implementorsOf id with
    | error cause =>
      have hfails : s.failure? src snapshot (.implementors id) =
          some ((TypeQuery.implementors id).failed cause) := by
        simp [failure?, hnew, TypeSource.refusal?, hsrc, cause?]
      exact .inr (.inl ⟨_, hfails, rfl⟩)
    | ok ds => exact .inr (.inr ⟨ds, hnew, rfl, rfl⟩)

/-- Whether the evidence on a function is remembered. -/
def knows (snapshot : String) (s : EvidenceSession R) (id : String) : Bool :=
  (s.memo.bind (·.results.get? (memoKey snapshot id))).isSome

/-- A session that remembers the evidence on a function. -/
def remember (snapshot id : String) (e : Evidence R) (s : EvidenceSession R) : EvidenceSession R :=
  { s with memo := s.memo.map fun m =>
    { m with results := m.results.set (memoKey snapshot id) e } }

@[simp] theorem failure?_remember {id : String} {e : Evidence R} :
    (s.remember snapshot id e).failure? src snapshot = s.failure? src snapshot := by
  funext q
  refine failure?_congr ?_
  cases q <;> cases hmemo : s.memo <;> simp [remembers, remember, hmemo]

theorem knows_remember {id j : String} {e : Evidence R} (hne : j ≠ id) :
    (s.remember snapshot id e).knows snapshot j = s.knows snapshot j := by
  cases hmemo : s.memo <;> simp [knows, remember, hmemo, hne]

/-! ## Answers -/

/-- How a session answers that asks some questions one after the other: with a value if none of
them fails, and with the first failure otherwise. -/
inductive Settles {α : Type} (src : TypeSource R) (snapshot : String) (s : EvidenceSession R)
    (qs : List TypeQuery) (a : α) : Except Fault α × EvidenceSession R → Prop
  | answered {s' : EvidenceSession R} (hnone : qs.findSome? (s.failure? src snapshot) = none)
      (hsteps : Steps src snapshot s s') : Settles src snapshot s qs a (.ok a, s')
  | failed {f : Fault} {s' : EvidenceSession R}
      (hfirst : qs.findSome? (s.failure? src snapshot) = some f)
      (hsteps : Steps src snapshot s s') : Settles src snapshot s qs a (.error f, s')

/-- What asks no question of its own. -/
theorem Settles.pure {α : Type} (a : α) : Settles src snapshot s [] a (.ok a, s) :=
  .answered rfl .refl

/-- After the questions of one part come those of the next part, unless one has failed. -/
theorem Settles.andThen {α β : Type} {qs qs' : List TypeQuery} {a : α} {b : β}
    {run : Except Fault α × EvidenceSession R} {run' : Except Fault β × EvidenceSession R}
    (h : Settles src snapshot s qs a run)
    (hfailed : ∀ f s', run = (.error f, s') → run' = (.error f, s'))
    (hnext : ∀ s', run = (.ok a, s') → Steps src snapshot s s' →
      Settles src snapshot s' qs' b run') :
    Settles src snapshot s (qs ++ qs') b run' := by
  cases h with
  | failed hfirst hsteps =>
    rw [hfailed _ _ rfl]
    exact .failed (by rw [List.findSome?_append, hfirst]; rfl) hsteps
  | answered hnone hsteps =>
    -- what the first part has learnt does not change how the questions of the second part fail
    cases hnext _ rfl hsteps with
    | failed hfirst hsteps' =>
      rw [hsteps.failure?_eq] at hfirst
      exact .failed (by rw [List.findSome?_append, hnone, hfirst]; rfl) (hsteps.trans hsteps')
    | answered hnone' hsteps' =>
      rw [hsteps.failure?_eq] at hnone'
      exact .answered (by rw [List.findSome?_append, hnone, hnone']; rfl) (hsteps.trans hsteps')

/-- The same without further questions. -/
theorem Settles.map {α β : Type} {qs : List TypeQuery} {a : α} {b : β}
    {run : Except Fault α × EvidenceSession R} {run' : Except Fault β × EvidenceSession R}
    (h : Settles src snapshot s qs a run)
    (hfailed : ∀ f s', run = (.error f, s') → run' = (.error f, s'))
    (hok : ∀ s', run = (.ok a, s') → run' = (.ok b, s')) : Settles src snapshot s qs b run' := by
  rw [← List.append_nil qs]
  exact h.andThen hfailed fun s' hrun _ => hok s' hrun ▸ .pure b

/-! ## What is remembered -/

/-- What a session remembers is so, and its keys tell the ids of a snapshot apart. -/
structure Recalls [Scale R] (s : EvidenceSession R) (t : TypeFacts R) (snapshot : String) :
    Prop where
  plain : ∀ m ∈ s.memo, IsPlain snapshot
  holds : ∀ m ∈ s.memo, m.Holds t

variable [Scale R]

theorem recalls_nothing (t : TypeFacts R) (snapshot : String) :
    ({ memo := none } : EvidenceSession R).Recalls t snapshot :=
  ⟨by simp, by simp⟩

theorem Recalls.ask (h : s.Recalls t snapshot) (q : TypeQuery) : (s.ask q).Recalls t snapshot :=
  ⟨h.plain, h.holds⟩

/-- Tables are changed to ones that hold what is so. -/
theorem Recalls.map (h : s.Recalls t snapshot) {asked : List TypeQuery}
    {change : EvidenceMemo R → EvidenceMemo R} (hchange : ∀ m ∈ s.memo, (change m).Holds t) :
    ({ memo := s.memo.map change, asked } : EvidenceSession R).Recalls t snapshot := by
  constructor <;> intro m hm <;> obtain ⟨m₀, hm₀, rfl⟩ := Option.map_eq_some_iff.mp hm
  · exact h.plain m₀ hm₀
  · exact hchange m₀ hm₀

theorem Step.recalls (h : Step src snapshot s s') (reports : src.Reports t)
    (hs : s.Recalls t snapshot) : s'.Recalls t snapshot := by
  cases h with
  | overrides id => exact hs.ask _
  | refused _ => exact hs.ask _
  | members _ hsrc =>
    obtain rfl := reports.members hsrc
    exact hs.map fun m hm => ⟨(hs.holds m hm).results,
      (hs.holds m hm).members.set (hs.plain m hm) _, (hs.holds m hm).implementors⟩
  | implementors _ hsrc =>
    obtain rfl := reports.implementors hsrc
    exact hs.map fun m hm => ⟨(hs.holds m hm).results, (hs.holds m hm).members,
      (hs.holds m hm).implementors.set (hs.plain m hm) _⟩

theorem Steps.recalls (h : Steps src snapshot s s') (reports : src.Reports t)
    (hs : s.Recalls t snapshot) : s'.Recalls t snapshot := by
  induction h with
  | refl => exact hs
  | tail _ hstep ih => exact hstep.recalls reports ih

/-! ## The questions of a session -/

theorem membersOf_settles (reports : src.Reports t) (hs : s.Recalls t snapshot) (id : String) :
    Settles src snapshot s [.members id] (t.membersOf id) (membersOf src snapshot id s) := by
  obtain ⟨ms, hms, hrun⟩ | ⟨f, hfails, hrun⟩ | ⟨ms, hnew, hsrc, hrun⟩ :=
    membersOf_cases src snapshot id s
  · obtain ⟨m, hm, hget⟩ := Option.bind_eq_some_iff.mp hms
    obtain rfl := (hs.holds m hm).members.eq (hs.plain m hm) hget
    rw [hrun]
    exact .answered (by simp [failure?, remembers, hms]) .refl
  · rw [hrun]
    exact .failed (by simp [hfails]) (.single (.refused hfails))
  · obtain rfl := reports.members hsrc
    rw [hrun]
    refine .answered ?_ (.single (.members hnew hsrc))
    simp [failure?, TypeSource.refusal?, hsrc, cause?]

theorem implementorsOf_settles (reports : src.Reports t) (hs : s.Recalls t snapshot) (id : String) :
    Settles src snapshot s [.implementors id] (t.implementorsOf id)
      (implementorsOf src snapshot id s) := by
  obtain ⟨ds, hds, hrun⟩ | ⟨f, hfails, hrun⟩ | ⟨ds, hnew, hsrc, hrun⟩ :=
    implementorsOf_cases src snapshot id s
  · obtain ⟨m, hm, hget⟩ := Option.bind_eq_some_iff.mp hds
    obtain rfl := (hs.holds m hm).implementors.eq (hs.plain m hm) hget
    rw [hrun]
    exact .answered (by simp [failure?, remembers, hds]) .refl
  · rw [hrun]
    exact .failed (by simp [hfails]) (.single (.refused hfails))
  · obtain rfl := reports.implementors hsrc
    rw [hrun]
    refine .answered ?_ (.single (.implementors hnew hsrc))
    simp [failure?, TypeSource.refusal?, hsrc, cause?]

theorem targetIsAbstract_settles (reports : src.Reports t) (hs : s.Recalls t snapshot)
    {o : MethodOverride R} (hkind : o.kind = .override) :
    Settles src snapshot s o.question?.toList (t.replacesAbstract o)
      (targetIsAbstract src snapshot o s) := by
  unfold targetIsAbstract TypeFacts.replacesAbstract MethodOverride.question?
  simp only [hkind]
  split_ifs with hids
  · simpa [hids] using .pure false
  · simp only [hids, Bool.not_false, Bool.true_and]
    exact (membersOf_settles reports hs o.targetTypeId).map (fun f s' hrun => by rw [hrun])
      fun s' hrun => by rw [hrun]

theorem classOf_settles (reports : src.Reports t) (hs : s.Recalls t snapshot)
    (o : MethodOverride R) :
    Settles src snapshot s o.question?.toList (t.classOf o) (classOf src snapshot o s) := by
  unfold classOf TypeFacts.classOf
  cases hkind : o.kind with
  | override =>
    exact (targetIsAbstract_settles reports hs hkind).map (fun f s' hrun => by simp only [hrun])
      fun s' hrun => by simp only [hrun]
  | _ => simpa [MethodOverride.question?, hkind] using .pure _

theorem classify_settles (reports : src.Reports t) (hs : s.Recalls t snapshot)
    (os : List (MethodOverride R)) :
    Settles src snapshot s (os.flatMap (·.question?.toList)) (t.classed os)
      (classify src snapshot os s) := by
  induction os generalizing s with
  | nil => exact .pure []
  | cons o os ih =>
    unfold classify
    refine (classOf_settles reports hs o).andThen (fun f s' hrun => by rw [hrun]) ?_
    intro s' hrun hsteps
    rw [hrun]
    exact (ih (hsteps.recalls reports hs)).map (fun f s'' hrest => by simp only [hrest])
      fun s'' hrest => by simp only [hrest]; rfl

theorem implementorsOfAll_settles (reports : src.Reports t) (hs : s.Recalls t snapshot)
    (ids : List String) :
    Settles src snapshot s (ids.map .implementors) (ids.flatMap t.implementorsOf)
      (implementorsOfAll src snapshot ids s) := by
  induction ids generalizing s with
  | nil => exact .pure []
  | cons id ids ih =>
    unfold implementorsOfAll
    refine (implementorsOf_settles reports hs id).andThen (fun f s' hrun => by rw [hrun]) ?_
    intro s' hrun hsteps
    rw [hrun]
    exact (ih (hsteps.recalls reports hs)).map (fun f s'' hrest => by simp only [hrest])
      fun s'' hrest => by simp only [hrest]; rfl

/-! ## Evidence -/

/-- The first of the questions on a function that fails keeps its evidence unknown. -/
theorem examine_settles (reports : src.Reports t) (failClosed : Bool) (hs : s.Recalls t snapshot)
    (id : String) :
    (examine src failClosed snapshot id s).1 =
        t.verdict failClosed id ((t.questions id).findSome? (s.failure? src snapshot)) ∧
      Steps src snapshot s (examine src failClosed snapshot id s).2 := by
  have hask : Steps src snapshot s (s.ask (.overrides id)) := .single (.overrides id)
  unfold examine
  dsimp only
  cases hsrc : src.overridesOf id with
  | error cause =>
    have hfails : s.failure? src snapshot (.overrides id) =
        some ((TypeQuery.overrides id).failed cause) := by
      simp [failure?, remembers, TypeSource.refusal?, hsrc, cause?]
    exact ⟨by simp [TypeFacts.questions, hfails, TypeFacts.verdict], hask⟩
  | ok os =>
    obtain rfl := reports.overrides hsrc
    have hnone : s.failure? src snapshot (.overrides id) = none := by
      simp [failure?, TypeSource.refusal?, hsrc, cause?]
    have hclassed := classify_settles reports (hs.ask (.overrides id)) (t.overridesOf id)
    rw [← List.filterMap_eq_flatMap_toList] at hclassed
    dsimp only
    generalize classify src snapshot (t.overridesOf id) _ = run at hclassed ⊢
    cases hclassed with
    | failed hfirst hsteps =>
      rw [Steps.failure?_eq hask] at hfirst
      refine ⟨?_, hask.trans hsteps⟩
      simp [TypeFacts.questions, hnone, List.findSome?_append, hfirst, TypeFacts.verdict]
    | @answered s' hclassed hmore =>
      rw [Steps.failure?_eq hask] at hclassed
      have hsteps : Steps src snapshot s s' := hask.trans hmore
      have hshared := implementorsOfAll_settles reports (hsteps.recalls reports hs)
        (interfaceIds (t.allOf id))
      dsimp only
      change Settles _ _ _ _ _
        (implementorsOfAll src snapshot (interfaceIds (t.classed (t.overridesOf id))) s') at hshared
      generalize implementorsOfAll src snapshot _ s' = run at hshared ⊢
      cases hshared with
      | failed hfirst hsteps' =>
        rw [hsteps.failure?_eq] at hfirst
        refine ⟨?_, hsteps.trans hsteps'⟩
        simp [TypeFacts.questions, hnone, List.findSome?_append, hclassed, hfirst,
          TypeFacts.verdict]
      | answered hshared hsteps' =>
        rw [hsteps.failure?_eq] at hshared
        refine ⟨?_, hsteps.trans hsteps'⟩
        rw [TypeFacts.questions, List.findSome?_cons, hnone, List.findSome?_append, hclassed,
          hshared]
        rfl

/-- What keeps the evidence on a function unknown, if something does. -/
def obstacle? (src : TypeSource R) (t : TypeFacts R) (snapshot : String) (s : EvidenceSession R)
    (id : String) : Option Fault :=
  if s.knows snapshot id then none else (t.questions id).findSome? (s.failure? src snapshot)

omit [Scale R] in
/-- What keeps evidence unknown is a refused question on which the evidence depends. -/
theorem exists_refused {id : String} {f : Fault} (h : s.obstacle? src t snapshot id = some f) :
    ∃ q ∈ t.questions id, ∃ cause, src.refusal? q = some cause ∧ f = q.failed cause := by
  unfold obstacle? at h
  split_ifs at h
  obtain ⟨q, hq, hfails⟩ := List.exists_of_findSome?_eq_some h
  unfold failure? at hfails
  split_ifs at hfails
  obtain ⟨cause, hcause, rfl⟩ := Option.map_eq_some_iff.mp hfails
  exact ⟨q, hq, cause, hcause, rfl⟩

omit [Scale R] in
theorem obstacle?_eq_none {id : String} (h : ∀ q ∈ t.questions id, src.refusal? q = none) :
    s.obstacle? src t snapshot id = none := by
  rw [Option.eq_none_iff_forall_ne_some]
  intro f hf
  obtain ⟨q, hq, cause, hrefused, -⟩ := exists_refused hf
  simp [h q hq] at hrefused

/-- A session goes on as before: what it remembers is so, and whatever kept evidence unknown still
does. -/
structure GoesOn (src : TypeSource R) (t : TypeFacts R) (snapshot : String)
    (s s' : EvidenceSession R) : Prop where
  recalls : s'.Recalls t snapshot
  obstacle?_eq : s'.obstacle? src t snapshot = s.obstacle? src t snapshot
  memo_isSome : s'.memo.isSome = s.memo.isSome

theorem GoesOn.refl (hs : s.Recalls t snapshot) : GoesOn src t snapshot s s :=
  ⟨hs, rfl, rfl⟩

theorem GoesOn.trans {s'' : EvidenceSession R} (h : GoesOn src t snapshot s s')
    (h' : GoesOn src t snapshot s' s'') : GoesOn src t snapshot s s'' :=
  ⟨h'.recalls, h'.obstacle?_eq.trans h.obstacle?_eq, h'.memo_isSome.trans h.memo_isSome⟩

theorem Steps.goesOn (h : Steps src snapshot s s') (reports : src.Reports t)
    (hs : s.Recalls t snapshot) : GoesOn src t snapshot s s' := by
  have hresults := Steps.results_eq h
  have hknows : s'.knows snapshot = s.knows snapshot := by
    funext id
    have hsome : ∀ s : EvidenceSession R, s.knows snapshot id =
        ((s.memo.map (·.results)).bind (·.get? (memoKey snapshot id))).isSome := by
      intro s
      cases hmemo : s.memo <;> simp [knows, hmemo]
    rw [hsome, hsome, hresults]
  refine ⟨h.recalls reports hs, ?_, ?_⟩
  · funext id
    simp only [obstacle?, hknows, Steps.failure?_eq h]
  · simpa using congrArg Option.isSome hresults

/-- Evidence is remembered once nothing keeps it unknown. -/
theorem goesOn_remember (hs : s.Recalls t snapshot) {id : String}
    (hnone : s.obstacle? src t snapshot id = none) :
    GoesOn src t snapshot s (s.remember snapshot id (t.evidence id)) := by
  refine ⟨hs.map fun m hm => ⟨(hs.holds m hm).results.set (hs.plain m hm) id,
    (hs.holds m hm).members, (hs.holds m hm).implementors⟩, ?_, by simp [remember]⟩
  funext j
  by_cases hj : j = id
  · subst hj
    rw [hnone]
    cases hmemo : s.memo with
    | none =>
      have hsame : s.remember snapshot j (t.evidence j) = s := by
        rw [remember, hmemo, Option.map_none, ← hmemo]
      rw [hsame, hnone]
    | some m => exact if_pos (by simp [knows, remember, hmemo])
  · simp only [obstacle?, knows_remember hj, failure?_remember]

/-- The evidence on a function is that of the type relations, unless something keeps it unknown.
Only known evidence is remembered. -/
theorem analyze_exact (reports : src.Reports t) (failClosed : Bool) (hs : s.Recalls t snapshot)
    (id : String) :
    (analyze src failClosed snapshot id s).1 =
        t.verdict failClosed id (s.obstacle? src t snapshot id) ∧
      GoesOn src t snapshot s (analyze src failClosed snapshot id s).2 := by
  unfold analyze
  dsimp only
  split
  · rename_i e he
    have hknown : s.knows snapshot id := by simp [knows, he]
    obtain ⟨m, hm, hget⟩ := Option.bind_eq_some_iff.mp he
    rw [obstacle?, if_pos hknown]
    exact ⟨(hs.holds m hm).results.eq (hs.plain m hm) hget, .refl hs⟩
  · rename_i he
    have hnew : ¬ s.knows snapshot id := by simp [knows, he]
    obtain ⟨hverdict, hsteps⟩ := examine_settles reports failClosed hs id
    have hobstacle : s.obstacle? src t snapshot id =
        (t.questions id).findSome? (s.failure? src snapshot) := if_neg hnew
    have hgoes := Steps.goesOn hsteps reports hs
    rw [← hobstacle] at hverdict
    generalize examine src failClosed snapshot id s = run at hverdict hgoes ⊢
    obtain ⟨e, s'⟩ := run
    obtain rfl : e = _ := hverdict
    -- the table of evidence is written only if nothing failed
    cases hcause : s.obstacle? src t snapshot id with
    | some f => exact ⟨rfl, hgoes⟩
    | none =>
      have hnone : s'.obstacle? src t snapshot id = none := by rw [hgoes.obstacle?_eq, hcause]
      exact ⟨rfl, hgoes.trans (goesOn_remember hgoes.recalls hnone)⟩

/-- Of several functions, each gets the evidence that it would get alone. -/
theorem analyzeAll_exact (reports : src.Reports t) (failClosed : Bool) (hs : s.Recalls t snapshot)
    (ids : List String) :
    (analyzeAll src failClosed snapshot ids s).1 =
        ids.map (fun id => t.verdict failClosed id (s.obstacle? src t snapshot id)) ∧
      GoesOn src t snapshot s (analyzeAll src failClosed snapshot ids s).2 := by
  induction ids generalizing s with
  | nil => exact ⟨rfl, .refl hs⟩
  | cons id ids ih =>
    obtain ⟨hfirst, hgoes⟩ := analyze_exact reports failClosed hs id
    obtain ⟨hrest, hgoes'⟩ := ih hgoes.recalls
    unfold analyzeAll
    dsimp only
    rw [hgoes.obstacle?_eq] at hrest
    exact ⟨by rw [hfirst, hrest, List.map_cons], hgoes.trans hgoes'⟩

/-- If no question fails, the evidence is that of the type relations. -/
theorem analyze_source (failClosed : Bool) (hs : s.Recalls t snapshot) (id : String) :
    (analyze t.source failClosed snapshot id s).1 = t.evidence id := by
  obtain ⟨hverdict, -⟩ := analyze_exact t.reports_source failClosed hs id
  rw [hverdict, obstacle?_eq_none fun q _ => t.refusal?_source q]
  rfl

end EvidenceSession

/-- The same if nothing is remembered. -/
@[simp] theorem Evidence.of_source [Scale R] (t : TypeFacts R) (failClosed : Bool)
    (snapshot id : String) :
    Evidence.of t.source failClosed snapshot id = t.evidence id :=
  EvidenceSession.analyze_source failClosed (EvidenceSession.recalls_nothing t snapshot) id

end Deadwood
