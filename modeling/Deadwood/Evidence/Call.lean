import Deadwood.Evidence.Query

/-!
# Calls for type evidence

An analyzer is called for the evidence on one function or on several, or for whether a function is
protected. What is remembered belongs to a run context. An analyzer may have one of its own, and a
call may carry another, which then counts; without any, nothing is remembered.

## Main definitions

* `RunContexts`: what the runs of a program remember.
* `EvidenceRequest`, `EvidenceReply`: what is asked for, and what is answered.
* `EvidenceCall`, `EvidenceCall.answer`: a request with all that its answer depends on.
* `RunContexts.after`: what is remembered after some calls.
-/

namespace Deadwood

variable {R : Type}

/-- What the runs of a program remember, by the names of their contexts. -/
structure RunContexts (R : Type) where
  memos : List (String × EvidenceMemo R) := []

namespace RunContexts

/-- What is remembered in a context; nothing at first. -/
def memo (cs : RunContexts R) (name : String) : EvidenceMemo R :=
  (cs.memos.lookup name).getD {}

def put (cs : RunContexts R) (name : String) (m : EvidenceMemo R) : RunContexts R :=
  ⟨assign name m cs.memos⟩

end RunContexts

/-- What an analyzer is asked for. -/
inductive EvidenceRequest (R : Type) where
  /-- The evidence on a function. -/
  | one (id : String)
  /-- The evidence on several functions. -/
  | many (ids : List String)
  /-- Whether the evidence on a function reaches a threshold. -/
  | protect (id : String) (threshold : R)

inductive EvidenceReply (R : Type) where
  | evidence (e : Evidence R)
  | evidences (es : List (Evidence R))
  | verdict (isProtected : Bool)

/-- A request with all that its answer depends on, apart from what is remembered. -/
structure EvidenceCall (R : Type) where
  source : TypeSource R
  /-- Functions of unknown evidence are protected. -/
  failClosed : Bool := false
  /-- The run context of the analyzer. -/
  given : Option String := none
  /-- The run context of the call. -/
  carried : Option String := none
  snapshot : String := ""
  request : EvidenceRequest R

/-- A reply, the questions that were asked for it in their order, and what is remembered then. -/
structure EvidenceAnswer (R : Type) where
  reply : EvidenceReply R
  asked : List TypeQuery
  contexts : RunContexts R

namespace EvidenceCall

def context (c : EvidenceCall R) : Option String :=
  c.carried.or c.given

def session (c : EvidenceCall R) (cs : RunContexts R) : EvidenceSession R :=
  { memo := c.context.map cs.memo }

variable [Scale R]

def respond (c : EvidenceCall R) (s : EvidenceSession R) : EvidenceReply R × EvidenceSession R :=
  match c.request with
  | .one id =>
    let (e, s) := s.analyze c.source c.failClosed c.snapshot id
    (.evidence e, s)
  | .many ids =>
    let (es, s) := s.analyzeAll c.source c.failClosed c.snapshot ids
    (.evidences es, s)
  | .protect id threshold =>
    let (isProtected, s) := s.shouldProtect c.source c.failClosed c.snapshot id threshold
    (.verdict isProtected, s)

/-- Answer a call. What was learnt is remembered in the context that counts. -/
def answer (c : EvidenceCall R) (cs : RunContexts R) : EvidenceAnswer R :=
  let (reply, s) := c.respond (c.session cs)
  { reply
    asked := s.asked.reverse
    contexts :=
      match c.context, s.memo with
      | some name, some m => cs.put name m
      | _, _ => cs }

end EvidenceCall

/-- What is remembered after some calls, one after the other. -/
def RunContexts.after [Scale R] (calls : List (EvidenceCall R)) : RunContexts R :=
  calls.foldl (fun cs c => (c.answer cs).contexts) {}

end Deadwood
