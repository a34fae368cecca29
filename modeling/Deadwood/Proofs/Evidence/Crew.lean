import Deadwood.Evidence.Call
import Deadwood.Proofs.Evidence.Session
import Mathlib.Data.List.Nodup
import Mathlib.Logic.Function.Basic

/-!
# Several functions at a time

The functions of a request may be worked on at the same time. Workers take them from the list one
after the other and share what the run remembers. To look an answer up, to ask for it and to
remember it are three acts, and others may act between them. So several workers may find that an
answer is missing, and all of them ask for it, but none of them asks twice. A schedule says who acts
next, and which source would answer then.

## Main definitions

* `Inquiry`, `Inquiry.evidence`: what is asked about a function, and what is done with the answers.
* `Crew`, `Crew.turn`, `Crew.run`: workers at their desks, one act of one of them, and a schedule.
* `Asking.told`: the desks at which a question was answered.
* `Crew.Orderly`: what holds in the course of every schedule.

## Main results

* `Crew.Orderly.turn`, `Crew.Orderly.run`: the invariant of one act and of a schedule.
* `Crew.Orderly.length_told_le`, `Crew.Orderly.answers_of_told`: how often a question is answered.
-/

namespace Deadwood

open EvidenceSession (memoKey)

variable {R : Type}

/-! ## Memory -/

/-- Whether a source answers a question. -/
def TypeSource.answers (src : TypeSource R) : TypeQuery → Bool
  | .overrides id => (src.overridesOf id).isOk
  | .members id => (src.membersOf id).isOk
  | .implementors id => (src.implementorsOf id).isOk

/-- A question about a type. Only answers to such questions are remembered. -/
def TypeQuery.IsOnType (q : TypeQuery) : Prop :=
  ∀ id, q ≠ .overrides id

namespace EvidenceMemo

/-- What is remembered of a snapshot, as a source. It refuses all other questions. -/
def source (m : EvidenceMemo R) (snapshot : String) : TypeSource R where
  overridesOf _ := .error .missing
  membersOf id := (m.members.get? (memoKey snapshot id)).elim (.error .missing) .ok
  implementorsOf id := (m.implementors.get? (memoKey snapshot id)).elim (.error .missing) .ok

def knows (m : EvidenceMemo R) (snapshot id : String) : Bool :=
  (m.results.get? (memoKey snapshot id)).isSome

/-- Remember what a source answers to a question about a type. -/
def keep (m : EvidenceMemo R) (snapshot : String) (src : TypeSource R) : TypeQuery → EvidenceMemo R
  | .overrides _ => m
  | .members id =>
    match src.membersOf id with
    | .ok ms => { m with members := m.members.set (memoKey snapshot id) ms }
    | .error _ => m
  | .implementors id =>
    match src.implementorsOf id with
    | .ok ds => { m with implementors := m.implementors.set (memoKey snapshot id) ds }
    | .error _ => m

/-- Remember evidence, unless it is unknown. -/
def keepEvidence (m : EvidenceMemo R) (snapshot id : String) (e : Evidence R) : EvidenceMemo R :=
  if e.failure.isSome then m else { m with results := m.results.set (memoKey snapshot id) e }

/-- Nothing is forgotten. -/
structure Grows (m m' : EvidenceMemo R) : Prop where
  answers {snapshot : String} {q : TypeQuery} (h : (m.source snapshot).answers q) :
    (m'.source snapshot).answers q
  knows {snapshot id : String} (h : m.knows snapshot id) : m'.knows snapshot id

variable {m m' m'' : EvidenceMemo R} {snapshot id : String} {src : TypeSource R} {q : TypeQuery}

theorem Grows.refl : m.Grows m :=
  ⟨fun h => h, fun h => h⟩

theorem Grows.trans (h : m.Grows m') (h' : m'.Grows m'') : m.Grows m'' :=
  ⟨fun hq => h'.answers (h.answers hq), fun hid => h'.knows (h.knows hid)⟩

@[simp] theorem answers_source_overrides : (m.source snapshot).answers (.overrides id) = false :=
  rfl

@[simp] theorem answers_source_members :
    (m.source snapshot).answers (.members id) =
      (m.members.get? (memoKey snapshot id)).isSome := by
  dsimp only [TypeSource.answers, source]
  cases m.members.get? (memoKey snapshot id) <;> rfl

@[simp] theorem answers_source_implementors :
    (m.source snapshot).answers (.implementors id) =
      (m.implementors.get? (memoKey snapshot id)).isSome := by
  dsimp only [TypeSource.answers, source]
  cases m.implementors.get? (memoKey snapshot id) <;> rfl

/-- Tables that keep their keys forget nothing. -/
theorem Grows.of_tables
    (hresults : ∀ key, (m.results.get? key).isSome → (m'.results.get? key).isSome)
    (hmembers : ∀ key, (m.members.get? key).isSome → (m'.members.get? key).isSome)
    (himplementors : ∀ key, (m.implementors.get? key).isSome → (m'.implementors.get? key).isSome) :
    m.Grows m' := by
  refine ⟨fun {snapshot q} h => ?_, fun h => hresults _ h⟩
  cases q with
  | overrides id => simp at h
  | members id => simpa using hmembers _ (by simpa using h)
  | implementors id => simpa using himplementors _ (by simpa using h)

theorem grows_keep (m : EvidenceMemo R) (snapshot : String) (src : TypeSource R) (q : TypeQuery) :
    m.Grows (m.keep snapshot src q) := by
  unfold keep
  split
  · exact .refl
  · split
    · exact .of_tables (fun _ => id) (fun _ => Memo.isSome_get?_set _) fun _ => id
    · exact .refl
  · split
    · exact .of_tables (fun _ => id) (fun _ => id) fun _ => Memo.isSome_get?_set _
    · exact .refl

theorem grows_keepEvidence (m : EvidenceMemo R) (snapshot id : String) (e : Evidence R) :
    m.Grows (m.keepEvidence snapshot id e) := by
  unfold keepEvidence
  split_ifs
  · exact .refl
  · exact .of_tables (fun _ => Memo.isSome_get?_set _) (fun _ h => h) fun _ h => h

theorem answers_keep (hq : q.IsOnType) (h : src.answers q) :
    ((m.keep snapshot src q).source snapshot).answers q := by
  cases q with
  | overrides id => exact absurd rfl (hq id)
  | members id =>
    cases hsrc : src.membersOf id with
    | error f => simp [TypeSource.answers, hsrc, Except.isOk, Except.toBool] at h
    | ok ms => simp [keep, hsrc]
  | implementors id =>
    cases hsrc : src.implementorsOf id with
    | error f => simp [TypeSource.answers, hsrc, Except.isOk, Except.toBool] at h
    | ok ds => simp [keep, hsrc]

theorem knows_keepEvidence {e : Evidence R} (h : e.failure = none) :
    (m.keepEvidence snapshot id e).knows snapshot id := by
  simp [keepEvidence, h, knows]

end EvidenceMemo

/-! ## Inquiries -/

/-- Looking for the evidence on a function. There is a question, and how to go on with what some
source says to it; in the end the evidence is found. -/
inductive Inquiry (R : Type) where
  | found (e : Evidence R)
  | ask (q : TypeQuery) (next : TypeSource R → Inquiry R)

namespace Inquiry

/-- Go on with the class of an override. What a source says to it is what it says to a session
without memory; if there is no question, this does not depend on the source. -/
def classOf (o : MethodOverride R) (next : Except Fault (Option EvidenceClass) → Inquiry R) :
    Inquiry R :=
  let said (src : TypeSource R) := (EvidenceSession.classOf src "" o { memo := none }).1
  match o.question? with
  | some q => .ask q fun src => next (said src)
  | none => next (said (({} : EvidenceMemo R).source ""))

/-- Go on with the overrides of known kinds and their classes. -/
def classify : List (MethodOverride R) → (Except Fault (List (Classed R)) → Inquiry R) → Inquiry R
  | [], next => next (.ok [])
  | o :: os, next => classOf o fun
    | .error f => next (.error f)
    | .ok c => classify os fun
      | .error f => next (.error f)
      | .ok rest => next (.ok (c.toList.map (·, o) ++ rest))

/-- Go on with the classes that implement an interface. -/
def implementorsOf (id : String) (next : Except Fault (List TypeDefinition) → Inquiry R) :
    Inquiry R :=
  .ask (.implementors id) fun src =>
    next (EvidenceSession.implementorsOf src "" id { memo := none }).1

/-- Go on with the classes that implement some interfaces. -/
def implementorsOfAll :
    List String → (Except Fault (List TypeDefinition) → Inquiry R) → Inquiry R
  | [], next => next (.ok [])
  | id :: ids, next => implementorsOf id fun
    | .error f => next (.error f)
    | .ok ds => implementorsOfAll ids fun
      | .error f => next (.error f)
      | .ok rest => next (.ok (ds ++ rest))

/-- Look for the evidence on a function. -/
def evidence [Scale R] (failClosed : Bool) (id : String) : Inquiry R :=
  .ask (.overrides id) fun src =>
    match src.overridesOf id with
    | .error f => .found (.unknown failClosed id ((TypeQuery.overrides id).failed f))
    | .ok os => classify os fun
      | .error f => .found (.unknown failClosed id f)
      | .ok all => implementorsOfAll (EvidenceSession.interfaceIds all) fun
        | .error f => .found (.unknown failClosed id f)
        | .ok ds => .found (.weigh id all (sortedTexts ((keepFirst (·.id) ds).map (·.name))))

end Inquiry

/-! ## Crews -/

/-- The next act of a worker: to look up the answer to a question, to ask it, or to remember what it
was told. -/
inductive Act (R : Type) where
  | consult (i : Inquiry R)
  | ask (q : TypeQuery) (next : TypeSource R → Inquiry R)
  | keep (q : TypeQuery) (src : TypeSource R) (next : TypeSource R → Inquiry R)

/-- The function that a worker looks at, and the next act. -/
structure Task (R : Type) where
  id : String
  act : Act R

/-- A question that was asked: at which desk, for which function, and whether it was answered. -/
structure Asking where
  desk : Nat
  function : String
  query : TypeQuery
  answered : Bool
  deriving DecidableEq

/-- The desks at which a question was answered. -/
def Asking.told (q : TypeQuery) (asked : List Asking) : List Nat :=
  (asked.filter fun a => a.query = q && a.answered).map (·.desk)

/-- Workers at `n` desks, and the functions that nobody has taken yet. -/
structure Crew (R : Type) (n : Nat) where
  memo : EvidenceMemo R
  waiting : List String
  desks : Fin n → Option (Task R) := fun _ => none
  asked : List Asking := []
  results : List (String × Evidence R) := []

namespace Crew

variable {n : Nat}

def put (c : Crew R n) (j : Fin n) (t : Option (Task R)) : Crew R n :=
  { c with desks := Function.update c.desks j t }

/-- Take the next function. There is nothing to do for it if its evidence is remembered. -/
def take [Scale R] (snapshot : String) (failClosed : Bool) (c : Crew R n) (j : Fin n) : Crew R n :=
  match c.waiting with
  | [] => c
  | id :: rest =>
    match c.memo.results.get? (memoKey snapshot id) with
    | some e => { c with waiting := rest, results := c.results ++ [(id, e)] }
    | none => { c.put j (some ⟨id, .consult (.evidence failClosed id)⟩) with waiting := rest }

/-- Do the next act for a function. -/
def act (snapshot : String) (c : Crew R n) (j : Fin n) (src : TypeSource R) (id : String) :
    Act R → Crew R n
  | .consult (.found e) =>
    { c.put j none with
      memo := c.memo.keepEvidence snapshot id e, results := c.results ++ [(id, e)] }
  | .consult (.ask q next) =>
    if (c.memo.source snapshot).answers q then
      c.put j (some ⟨id, .consult (next (c.memo.source snapshot))⟩)
    else c.put j (some ⟨id, .ask q next⟩)
  | .ask q next =>
    { c.put j (some ⟨id, .keep q src next⟩) with
      asked := c.asked ++ [⟨j, id, q, src.answers q⟩] }
  | .keep q told next =>
    { c.put j (some ⟨id, .consult (next told)⟩) with memo := c.memo.keep snapshot told q }

variable [Scale R]

/-- One worker acts; a question would be answered by this source. -/
def turn (snapshot : String) (failClosed : Bool) (c : Crew R n) (who : Fin n × TypeSource R) :
    Crew R n :=
  match c.desks who.1 with
  | none => c.take snapshot failClosed who.1
  | some t => c.act snapshot who.1 who.2 t.id t.act

/-- Workers act in the order of a schedule. -/
def run (snapshot : String) (failClosed : Bool) (c : Crew R n)
    (schedule : List (Fin n × TypeSource R)) : Crew R n :=
  schedule.foldl (turn snapshot failClosed) c

/-! ### What every schedule keeps -/

/-- Whether a desk is about to ask a question. -/
def asks : Option (Task R) → TypeQuery → Bool
  | some ⟨_, .ask q _⟩, q' => q = q'
  | _, _ => false

/-- Whether a desk is about to remember the answer to a question. -/
def holds : Option (Task R) → TypeQuery → Bool
  | some ⟨_, .keep q src _⟩, q' => q = q' && src.answers q
  | _, _ => false

/-- A crew that has started with what was remembered before. No desk has a question answered twice,
or at all if the answer was remembered before. An answer is remembered, or about to be. Nothing is
asked for functions whose evidence was remembered before, and evidence that was found is. -/
structure Orderly (before : EvidenceMemo R) (snapshot : String) (c : Crew R n) : Prop where
  grows : before.Grows c.memo
  desk_lt : ∀ a ∈ c.asked, a.desk < n
  once {q : TypeQuery} (hq : q.IsOnType) (j : Fin n) :
    (Asking.told q c.asked).count j.val + (asks (c.desks j) q).toNat +
      ((before.source snapshot).answers q).toNat ≤ 1
  kept {q : TypeQuery} (hq : q.IsOnType) (j : Fin n) (h : j.val ∈ Asking.told q c.asked) :
    (c.memo.source snapshot).answers q ∨ holds (c.desks j) q
  spared {id : String} (h : before.knows snapshot id) :
    (∀ j t, c.desks j = some t → t.id ≠ id) ∧ ∀ a ∈ c.asked, a.function ≠ id
  known : ∀ x ∈ c.results, x.2.failure = none → c.memo.knows snapshot x.1

variable {before m : EvidenceMemo R} {snapshot id : String} {failClosed : Bool} {c : Crew R n}
  {j : Fin n} {src : TypeSource R} {q : TypeQuery} {next : TypeSource R → Inquiry R}

omit [Scale R] in
theorem orderly_start (before : EvidenceMemo R) (snapshot : String) (ids : List String) :
    Orderly before snapshot ({ memo := before, waiting := ids } : Crew R n) where
  grows := .refl
  desk_lt := nofun
  once {q} _ j := by
    have hbool := ((before.source snapshot).answers q).toNat_le
    simpa [Asking.told, asks] using hbool
  kept _ j h := by cases h
  spared _ := ⟨nofun, nofun⟩
  known := nofun

omit [Scale R] in
theorem Orderly.ne_of_update (h : Orderly before snapshot c) {t : Option (Task R)}
    (hfresh : ∀ task, t = some task → ¬ before.knows snapshot task.id)
    (hid : before.knows snapshot id) (i : Fin n) (task : Task R)
    (htask : Function.update c.desks j t i = some task) : task.id ≠ id := by
  rintro rfl
  by_cases hi : i = j
  · subst hi
    rw [Function.update_self] at htask
    exact hfresh task htask hid
  · rw [Function.update_of_ne hi] at htask
    exact (h.spared hid).1 i task htask rfl

omit [Scale R] in
/-- A worker is done with a question, with a function or with nothing. What was told is remembered
then. -/
theorem Orderly.move (h : Orderly before snapshot c) {t : Option (Task R)} {waiting : List String}
    {results : List (String × Evidence R)} (hgrows : c.memo.Grows m)
    (hcalm : ∀ q, asks t q = false)
    (hfresh : ∀ task, t = some task → ¬ before.knows snapshot task.id)
    (hkept : ∀ q, q.IsOnType → holds (c.desks j) q → (m.source snapshot).answers q)
    (hknown : ∀ x ∈ results, x.2.failure = none → m.knows snapshot x.1) :
    Orderly before snapshot
      { memo := m, waiting, desks := Function.update c.desks j t, asked := c.asked, results } where
  grows := h.grows.trans hgrows
  desk_lt := h.desk_lt
  once {q} hq i := by
    have honce := h.once hq i
    by_cases hi : i = j
    · subst hi
      simp only [Function.update_self, hcalm]
      exact Nat.le_trans (by simp) honce
    · simpa only [Function.update_of_ne hi] using honce
  kept {q} hq i hi := by
    rcases h.kept hq i hi with hanswers | hholds
    · exact .inl (hgrows.answers hanswers)
    · by_cases hij : i = j
      · subst hij
        exact .inl (hkept q hq hholds)
      · exact .inr (by simpa only [Function.update_of_ne hij] using hholds)
  spared hid := ⟨h.ne_of_update hfresh hid, (h.spared hid).2⟩
  known := hknown

omit [Scale R] in
/-- No worker is at a function whose evidence was remembered before. -/
theorem Orderly.not_knows (h : Orderly before snapshot c) {act : Act R}
    (hdesk : c.desks j = some ⟨id, act⟩) (act' : Act R) (task : Task R)
    (htask : some ⟨id, act'⟩ = some task) : ¬ before.knows snapshot task.id := by
  obtain rfl := Option.some.inj htask
  exact fun hid => (h.spared hid).1 j _ hdesk rfl

omit [Scale R] in
/-- A worker who has nothing to remember turns to something else. -/
theorem Orderly.kept_update (h : Orderly before snapshot c) (hq : q.IsOnType)
    (hidle : holds (c.desks j) q = false) (t : Option (Task R)) (i : Fin n)
    (hi : i.val ∈ Asking.told q c.asked) :
    (c.memo.source snapshot).answers q ∨ holds (Function.update c.desks j t i) q := by
  rcases h.kept hq i hi with hanswers | hholds
  · exact .inl hanswers
  · by_cases hij : i = j
    · subst hij
      simp [hidle] at hholds
    · exact .inr (by simpa only [Function.update_of_ne hij] using hholds)

omit [Scale R] in
/-- A worker finds that an answer is missing. Nobody was given it at this desk, or it would be
remembered. -/
theorem Orderly.miss (h : Orderly before snapshot c)
    (hdesk : c.desks j = some ⟨id, .consult (.ask q next)⟩)
    (hnew : (c.memo.source snapshot).answers q = false) :
    Orderly before snapshot (c.put j (some ⟨id, .ask q next⟩)) where
  grows := h.grows
  desk_lt := h.desk_lt
  once {p} hp i := by
    have honce := h.once hp i
    by_cases hi : i = j
    · subst hi
      by_cases hpq : q = p
      · subst hpq
        have htold : (Asking.told q c.asked).count i.val = 0 := by
          refine List.count_eq_zero.mpr fun hmem => ?_
          rcases h.kept hp i hmem with hanswers | hholds
          · simp [hnew] at hanswers
          · simp [hdesk, holds] at hholds
        have hbefore : (before.source snapshot).answers q = false := by
          refine Bool.eq_false_iff.mpr fun hanswers => ?_
          simpa [hnew] using h.grows.answers hanswers
        simp [put, asks, htold, hbefore]
      · simpa [put, asks, hpq, hdesk] using honce
    · simpa [put, Function.update_of_ne hi] using honce
  kept hp := h.kept_update hp (by simp [hdesk, holds]) _
  spared hid := ⟨h.ne_of_update (h.not_knows hdesk _) hid, (h.spared hid).2⟩
  known := h.known

@[simp, grind =] theorem told_concat (q : TypeQuery) (asked : List Asking) (a : Asking) :
    Asking.told q (asked ++ [a]) =
      Asking.told q asked ++ if a.query = q && a.answered then [a.desk] else [] := by
  unfold Asking.told
  by_cases ha : (a.query = q && a.answered) = true <;> simp [ha]

omit [Scale R] in
/-- A worker asks, and if there is an answer will remember it. -/
theorem Orderly.ask (h : Orderly before snapshot c)
    (hdesk : c.desks j = some ⟨id, .ask q next⟩) (src : TypeSource R) :
    Orderly before snapshot { c.put j (some ⟨id, .keep q src next⟩) with
      asked := c.asked ++ [⟨j, id, q, src.answers q⟩] } where
  grows := h.grows
  desk_lt a ha := by
    rcases List.mem_append.mp ha with ha | ha
    · exact h.desk_lt a ha
    · obtain rfl := List.mem_singleton.mp ha
      exact j.isLt
  once {p} hp i := by
    have honce := h.once hp i
    rw [told_concat]
    by_cases hi : i = j
    · subst hi
      by_cases hpq : q = p
      · subst hpq
        cases hanswers : src.answers q <;> simp [put, asks, hdesk] at honce ⊢ <;> omega
      · simpa [put, asks, hpq, hdesk] using honce
    · have hne : j.val ≠ i.val := fun hval => hi (Fin.ext hval.symm)
      have hcount : (if (q = p && src.answers q) = true then [j.val] else []).count i.val = 0 := by
        split_ifs <;> simp [hne]
      simp only [List.count_append, hcount, put, Function.update_of_ne hi]
      simpa using honce
  kept {p} hp i hmem := by
    rw [told_concat] at hmem
    rcases List.mem_append.mp hmem with hmem | hmem
    · exact h.kept_update hp (by simp [hdesk, holds]) _ i hmem
    · split_ifs at hmem with htold
      · obtain rfl : i = j := Fin.ext (List.mem_singleton.mp hmem)
        exact .inr (by simpa [put, holds] using htold)
      · cases hmem
  spared hid := by
    refine ⟨h.ne_of_update (h.not_knows hdesk _) hid, fun a ha => ?_⟩
    rcases List.mem_append.mp ha with ha | ha
    · exact (h.spared hid).2 a ha
    · obtain rfl := List.mem_singleton.mp ha
      exact (h.spared hid).1 j _ hdesk
  known := h.known

omit [Scale R] in
theorem Orderly.known_concat (h : Orderly before snapshot c) (hgrows : c.memo.Grows m)
    {e : Evidence R} (he : e.failure = none → m.knows snapshot id) :
    ∀ x ∈ c.results ++ [(id, e)], x.2.failure = none → m.knows snapshot x.1 := by
  intro x hx hfound
  rcases List.mem_append.mp hx with hx | hx
  · exact hgrows.knows (h.known x hx hfound)
  · obtain rfl := List.mem_singleton.mp hx
    exact he hfound

theorem Orderly.take (h : Orderly before snapshot c) (hdesk : c.desks j = none) :
    Orderly before snapshot (c.take snapshot failClosed j) := by
  have hidle : ∀ q, q.IsOnType → holds (c.desks j) q → (c.memo.source snapshot).answers q := by
    simp [hdesk, holds]
  unfold Crew.take
  split
  · exact h
  · rename_i id rest _
    split
    · rename_i e he
      have hknown : c.memo.knows snapshot id := by simp [EvidenceMemo.knows, he]
      have hmove : Orderly before snapshot { c.put j none with
          waiting := rest, results := c.results ++ [(id, e)] } :=
        h.move .refl (fun _ => rfl) nofun hidle (h.known_concat .refl fun _ => hknown)
      rwa [put, ← hdesk, Function.update_eq_self] at hmove
    · rename_i hnone
      refine h.move .refl (fun _ => rfl) (fun task htask hbefore => ?_) hidle h.known
      obtain rfl := Option.some.inj htask
      simpa [EvidenceMemo.knows, hnone] using h.grows.knows hbefore

omit [Scale R] in
theorem Orderly.act (h : Orderly before snapshot c) (src : TypeSource R) {act : Act R}
    (hdesk : c.desks j = some ⟨id, act⟩) :
    Orderly before snapshot (c.act snapshot j src id act) := by
  cases act with
  | consult i =>
    have hnothing : ∀ {m : EvidenceMemo R} q, q.IsOnType → holds (c.desks j) q →
        (m.source snapshot).answers q := by simp [hdesk, holds]
    cases i with
    | found e =>
      have hgrows := c.memo.grows_keepEvidence snapshot id e
      exact h.move hgrows (fun _ => rfl) nofun hnothing
        (h.known_concat hgrows EvidenceMemo.knows_keepEvidence)
    | ask q next =>
      dsimp only [Crew.act]
      split_ifs with hanswers
      · exact h.move .refl (fun _ => rfl) (h.not_knows hdesk _) hnothing h.known
      · exact h.miss hdesk (by simpa using hanswers)
  | ask q next => exact h.ask hdesk src
  | keep q told next =>
    have hgrows := c.memo.grows_keep snapshot told q
    refine h.move hgrows (fun _ => rfl) (h.not_knows hdesk _) (fun p hp hholds => ?_) fun x hx hf =>
      hgrows.knows (h.known x hx hf)
    obtain ⟨rfl, hanswers⟩ : q = p ∧ told.answers q := by simpa [hdesk, holds] using hholds
    exact EvidenceMemo.answers_keep hp hanswers

theorem Orderly.turn (h : Orderly before snapshot c) (who : Fin n × TypeSource R) :
    Orderly before snapshot (c.turn snapshot failClosed who) := by
  unfold Crew.turn
  cases hdesk : c.desks who.1 with
  | none => exact h.take hdesk
  | some task => exact h.act who.2 hdesk

theorem Orderly.run (h : Orderly before snapshot c) (schedule : List (Fin n × TypeSource R)) :
    Orderly before snapshot (c.run snapshot failClosed schedule) := by
  induction schedule generalizing c with
  | nil => exact h
  | cons who rest ih => exact ih (h.turn who)

/-! ### How often questions are answered -/

omit [Scale R] in
theorem Orderly.lt_of_mem_told (h : Orderly before snapshot c) {i : Nat}
    (hi : i ∈ Asking.told q c.asked) : i < n := by
  obtain ⟨a, ha, rfl⟩ := List.mem_map.mp hi
  exact h.desk_lt a (List.mem_filter.mp ha).1

omit [Scale R] in
/-- A question about a type is answered at most once at each desk. -/
theorem Orderly.length_told_le (h : Orderly before snapshot c) (hq : q.IsOnType) :
    (Asking.told q c.asked).length ≤ n := by
  have hnodup : (Asking.told q c.asked).Nodup := by
    refine List.nodup_iff_count_le_one.mpr fun i => ?_
    by_cases hi : i ∈ Asking.told q c.asked
    · have honce := h.once hq ⟨i, h.lt_of_mem_told hi⟩
      dsimp only at honce
      omega
    · rw [List.count_eq_zero.mpr hi]
      exact Nat.zero_le 1
  have hsub : Asking.told q c.asked ⊆ List.range n := fun i hi =>
    List.mem_range.mpr (h.lt_of_mem_told hi)
  simpa using (hnodup.subperm hsub).length_le

omit [Scale R] in
theorem Orderly.told_eq_nil (h : Orderly before snapshot c) (hq : q.IsOnType)
    (hbefore : (before.source snapshot).answers q) : Asking.told q c.asked = [] := by
  refine List.eq_nil_iff_forall_not_mem.mpr fun i hi => ?_
  have honce := h.once hq ⟨i, h.lt_of_mem_told hi⟩
  have hcount := List.count_pos_iff.mpr hi
  simp only [hbefore, Bool.toNat_true] at honce
  omega

/-- Nobody has anything left to do. -/
def IsDone (c : Crew R n) : Prop :=
  c.waiting = [] ∧ ∀ j, c.desks j = none

instance (c : Crew R n) : Decidable c.IsDone :=
  inferInstanceAs (Decidable (_ ∧ _))

omit [Scale R] in
/-- Once everybody is done, an answer that was given is remembered. -/
theorem Orderly.answers_of_told (h : Orderly before snapshot c) (hq : q.IsOnType) (hdone : c.IsDone)
    (htold : Asking.told q c.asked ≠ []) : (c.memo.source snapshot).answers q := by
  obtain ⟨i, hi⟩ := List.exists_mem_of_ne_nil _ htold
  rcases h.kept hq ⟨i, h.lt_of_mem_told hi⟩ hi with hanswers | hholds
  · exact hanswers
  · simp [hdone.2, holds] at hholds

end Crew

end Deadwood
