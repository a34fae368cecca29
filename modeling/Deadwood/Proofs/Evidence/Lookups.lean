import Deadwood.Proofs.Evidence.Transparent
import Deadwood.Proofs.Evidence.Worker
import Mathlib.Data.List.Forall2

/-!
# Lookups are not repeated

A run takes one step after the other, and its steps share what it remembers. Each step looks for the
evidence on some functions, and ends when it is done with all of them. Whatever is refused, and
however the workers of a step interrupt one another, a question about a type is answered in one step
only, and there at most once to each worker. Once the evidence on a function was found, no later
step asks anything for it. A call for evidence is a step with one worker.

## Main definitions

* `EvidenceStep`, `EvidenceStep.outcomes`: steps of a run, and what comes of them.
* `StepOutcome.lookups`, `StepOutcome.Spares`: how often a question was answered, and for whom
  nothing was asked.
* `StepOutcome.AsksAtMost`: both, for all questions about types.
* `Exchange`, `Exchange.Shows`: a call with its answer, and the step that it is.

## Main results

* `EvidenceStep.lookups_le`: how often a question is answered in the course of a run.
* `EvidenceStep.pairwise_spares`: known evidence in the course of a run.
* `EvidenceCall.exists_step`, `RunContexts.exists_steps`: calls are steps with one worker.
* `lookups_not_repeated`: the three together.
-/

namespace Deadwood

variable {R : Type}

/-! ## Steps of a run -/

/-- A step of a run: the functions that it is about, how many of them are worked on at once, and in
which order the workers act. -/
structure EvidenceStep (R : Type) where
  snapshot : String
  failClosed : Bool := false
  ids : List String
  workers : Nat
  schedule : List (Fin workers × TypeSource R)

/-- What comes of a step: the questions that were asked, and the evidence that was found. -/
structure StepOutcome (R : Type) where
  snapshot : String
  asked : List Asking
  results : List (String × Evidence R)

namespace StepOutcome

/-- At which desks a question was answered, if the step is on this snapshot. -/
def told (snapshot : String) (q : TypeQuery) (o : StepOutcome R) : List Nat :=
  if o.snapshot = snapshot then Asking.told q o.asked else []

/-- How often a question was answered in steps on a snapshot. -/
def lookups (snapshot : String) (q : TypeQuery) (os : List (StepOutcome R)) : Nat :=
  (os.flatMap (told snapshot q)).length

/-- The second step asks nothing for the functions on which the first one has found evidence. -/
def Spares (snapshot : String) (x y : StepOutcome R) : Prop :=
  ∀ id e, x.snapshot = snapshot → y.snapshot = snapshot → (id, e) ∈ x.results →
    e.failure = none → ∀ a ∈ y.asked, a.function ≠ id

/-- No question about a type was answered more than `n` times, and nothing was asked for functions
on which evidence had been found. -/
structure AsksAtMost (snapshot : String) (n : Nat) (os : List (StepOutcome R)) : Prop where
  members (typeId : String) : lookups snapshot (.members typeId) os ≤ n
  implementors (typeId : String) : lookups snapshot (.implementors typeId) os ≤ n
  spares : os.Pairwise (Spares snapshot)

end StepOutcome

namespace EvidenceStep

variable [Scale R] {m : EvidenceMemo R} {steps : List (EvidenceStep R)} {snapshot id : String}
  {q : TypeQuery} {n : Nat}

/-- The workers at the end of a step. -/
def ended (t : EvidenceStep R) (m : EvidenceMemo R) : Crew R t.workers :=
  Crew.run t.snapshot t.failClosed { memo := m, waiting := t.ids } t.schedule

def outcome (t : EvidenceStep R) (m : EvidenceMemo R) : StepOutcome R :=
  ⟨t.snapshot, (t.ended m).asked, (t.ended m).results⟩

/-- Steps, one after the other, and what comes of them. -/
def outcomes : EvidenceMemo R → List (EvidenceStep R) → List (StepOutcome R)
  | _, [] => []
  | m, t :: steps => t.outcome m :: outcomes (t.ended m).memo steps

/-- Each step goes on until all is done. -/
def AllDone : EvidenceMemo R → List (EvidenceStep R) → Prop
  | _, [] => True
  | m, t :: steps => (t.ended m).IsDone ∧ AllDone (t.ended m).memo steps

theorem orderly_ended (t : EvidenceStep R) (m : EvidenceMemo R) :
    Crew.Orderly m t.snapshot (t.ended m) :=
  (Crew.orderly_start m t.snapshot t.ids).run t.schedule

/-- A question about a type is answered in one step only, there once to each worker, and not at all
if the answer is remembered. -/
theorem lookups_le (hdone : AllDone m steps) (hworkers : ∀ t ∈ steps, t.workers ≤ n)
    (hq : q.IsOnType) :
    StepOutcome.lookups snapshot q (outcomes m steps) ≤
      if (m.source snapshot).answers q then 0 else n := by
  induction steps generalizing m with
  | nil => exact Nat.zero_le _
  | cons t steps ih =>
    have horderly := t.orderly_ended m
    have hrest := ih hdone.2 fun u hu => hworkers u (.tail t hu)
    have hlookups : StepOutcome.lookups snapshot q (outcomes m (t :: steps)) =
        ((t.outcome m).told snapshot q).length +
          StepOutcome.lookups snapshot q (outcomes (t.ended m).memo steps) := by
      simp [StepOutcome.lookups, outcomes]
    rw [hlookups]
    by_cases htold : (t.outcome m).told snapshot q = []
    · rw [htold, List.length_nil, Nat.zero_add]
      refine hrest.trans ?_
      split_ifs with hafter hbefore hbefore
      · exact Nat.zero_le 0
      · exact Nat.zero_le n
      · exact absurd (horderly.grows.answers hbefore) hafter
      · exact Nat.le_refl n
    · -- a step that has learnt the answer did not know it, and leaves nothing to later ones
      obtain ⟨hsnapshot, htold'⟩ := ite_ne_right_iff.mp htold
      obtain rfl : t.snapshot = snapshot := hsnapshot
      have hhere : (t.outcome m).told t.snapshot q = Asking.told q (t.ended m).asked := if_pos rfl
      have hbefore : ¬ (m.source t.snapshot).answers q := fun h =>
        htold' (horderly.told_eq_nil hq h)
      rw [if_pos (horderly.answers_of_told hq hdone.1 htold')] at hrest
      have hlength := horderly.length_told_le hq
      have hn := hworkers t (.head steps)
      rw [if_neg hbefore, hhere]
      omega

/-- Nothing is asked for a function whose evidence is known. -/
theorem ne_of_knows (h : m.knows snapshot id) {o : StepOutcome R} (ho : o ∈ outcomes m steps)
    (hsnapshot : o.snapshot = snapshot) : ∀ a ∈ o.asked, a.function ≠ id := by
  induction steps generalizing m with
  | nil => cases ho
  | cons t steps ih =>
    have horderly := t.orderly_ended m
    rcases List.mem_cons.mp ho with rfl | ho
    · obtain rfl : t.snapshot = snapshot := hsnapshot
      exact (horderly.spared h).2
    · exact ih (horderly.grows.knows h) ho

theorem pairwise_spares (m : EvidenceMemo R) (steps : List (EvidenceStep R)) (snapshot : String) :
    (outcomes m steps).Pairwise (StepOutcome.Spares snapshot) := by
  induction steps generalizing m with
  | nil => exact .nil
  | cons t steps ih =>
    refine List.pairwise_cons.mpr ⟨fun y hy id e hx hsnapshot hfound hknown => ?_, ih _⟩
    obtain rfl : t.snapshot = snapshot := hx
    exact ne_of_knows ((t.orderly_ended m).known _ hfound hknown) hy hsnapshot

theorem asksAtMost_outcomes (hdone : AllDone m steps) (hworkers : ∀ t ∈ steps, t.workers ≤ n) :
    StepOutcome.AsksAtMost snapshot n (outcomes m steps) where
  members id := (lookups_le (q := .members id) hdone hworkers nofun).trans (by split_ifs <;> omega)
  implementors id :=
    (lookups_le (q := .implementors id) hdone hworkers nofun).trans (by split_ifs <;> omega)
  spares := pairwise_spares m steps snapshot

end EvidenceStep

/-! ## Calls -/

/-- A call and the answer to it. -/
structure Exchange (R : Type) where
  call : EvidenceCall R
  answer : EvidenceAnswer R

/-- The functions that a request is about, in their order. -/
def EvidenceRequest.ids : EvidenceRequest R → List String
  | .one id => [id]
  | .many ids => ids
  | .protect id _ => [id]

/-- The reply to a request once this evidence was found on its functions. -/
def EvidenceRequest.assemble [Scale R] :
    EvidenceRequest R → List (Evidence R) → Option (EvidenceReply R)
  | .one _, es => es.head?.map .evidence
  | .many _, es => some (.evidences es)
  | .protect _ threshold, es => es.head?.map fun e => .verdict (e.isProtected threshold)

/-- The answer to a call is what comes of a step. -/
structure Exchange.Shows [Scale R] (x : Exchange R) (o : StepOutcome R) : Prop where
  snapshot : o.snapshot = x.call.snapshot
  asked : o.asked.map (·.query) = x.answer.asked
  answered : ∀ a ∈ o.asked, a.answered = x.call.source.answers a.query
  functions : o.results.map (·.1) = x.call.request.ids
  reply : x.call.request.assemble (o.results.map (·.2)) = some x.answer.reply

variable [Scale R]

theorem EvidenceSession.length_analyzeAll (src : TypeSource R) (failClosed : Bool)
    (snapshot : String) (ids : List String) (s : EvidenceSession R) :
    (s.analyzeAll src failClosed snapshot ids).1.length = ids.length := by
  induction ids generalizing s with
  | nil => rfl
  | cons id ids ih => exact congrArg (· + 1) (ih _)

/-- A call finds the evidence on its functions one after the other, and replies by it. -/
theorem EvidenceCall.respond_eq_analyzeAll (c : EvidenceCall R) (s : EvidenceSession R) :
    let run := s.analyzeAll c.source c.failClosed c.snapshot c.request.ids
    c.request.assemble run.1 = some (c.respond s).1 ∧ (c.respond s).2 = run.2 := by
  unfold respond
  cases c.request <;> exact ⟨rfl, rfl⟩

theorem EvidenceCall.exists_step {c : EvidenceCall R} {name : String} (h : c.context = some name)
    (cs : RunContexts R) :
    ∃ t : EvidenceStep R, t.workers = 1 ∧ (t.ended (cs.memo name)).IsDone ∧
      Exchange.Shows ⟨c, c.answer cs⟩ (t.outcome (cs.memo name)) ∧
      (c.answer cs).contexts.memo name = (t.ended (cs.memo name)).memo := by
  let start : Crew R 1 := { memo := cs.memo name, waiting := c.request.ids }
  have hsession : c.session cs = { memo := some (cs.memo name) } := by simp [session, h]
  have hstart : Crew.Mirrors c.source start (c.session cs) := by
    rw [hsession]
    exact ⟨rfl, rfl, by simp [start]⟩
  obtain ⟨schedule, hmirrors, hwaiting, hdesks, hresults⟩ :=
    Crew.exists_run_analyzeAll (j := 0) c.snapshot c.failClosed hstart rfl
  obtain ⟨hreply, hrun⟩ := c.respond_eq_analyzeAll (c.session cs)
  have hlength := EvidenceSession.length_analyzeAll c.source c.failClosed c.snapshot c.request.ids
    (c.session cs)
  rw [← hrun] at hmirrors
  refine ⟨⟨c.snapshot, c.failClosed, c.request.ids, 1, schedule⟩, rfl, ⟨hwaiting, fun j => ?_⟩,
    ⟨rfl, hmirrors.asked, hmirrors.answered, ?_, ?_⟩, ?_⟩
  · exact congrFun hdesks j
  · exact (congrArg (List.map (·.1)) hresults).trans (List.map_fst_zip hlength.ge)
  · refine Eq.trans (congrArg c.request.assemble ?_) hreply
    exact (congrArg (List.map (·.2)) hresults).trans (List.map_snd_zip hlength.le)
  · simp only [answer, h, hmirrors.memo, RunContexts.memo_put, if_true]
    rfl

namespace RunContexts

/-- Calls, one after the other, and their answers. -/
def exchanges (cs : RunContexts R) : List (EvidenceCall R) → List (Exchange R)
  | [] => []
  | c :: calls => ⟨c, c.answer cs⟩ :: exchanges (c.answer cs).contexts calls

theorem exists_steps {calls : List (EvidenceCall R)} {name : String}
    (h : ∀ c ∈ calls, c.context = some name) (cs : RunContexts R) :
    ∃ steps : List (EvidenceStep R), (∀ t ∈ steps, t.workers = 1) ∧
      EvidenceStep.AllDone (cs.memo name) steps ∧
      List.Forall₂ Exchange.Shows (cs.exchanges calls)
        (EvidenceStep.outcomes (cs.memo name) steps) := by
  induction calls generalizing cs with
  | nil => exact ⟨[], nofun, trivial, .nil⟩
  | cons c calls ih =>
    obtain ⟨t, hworkers, hdone, hshows, hmemo⟩ := EvidenceCall.exists_step (h c (.head calls)) cs
    obtain ⟨steps, hall, hrest, houtcomes⟩ :=
      ih (fun d hd => h d (.tail c hd)) (c.answer cs).contexts
    rw [hmemo] at hrest houtcomes
    exact ⟨t :: steps, List.forall_mem_cons.mpr ⟨hworkers, hall⟩, ⟨hdone, hrest⟩,
      .cons hshows houtcomes⟩

end RunContexts

end Deadwood
