import Deadwood.Evidence.Query
import Deadwood.Proofs.Assoc

/-!
# Evidence from type relations

The evidence on a function is put together from the answers to several questions. If all of them
were answered, the evidence would be a function of the type relations alone.

## Main definitions

* `TypeFacts`: the type relations of a code base.
* `TypeFacts.classOf`, `TypeFacts.evidence`: the class of an override, the evidence on a function.
* `TypeFacts.verdict`: what is said of a function whose evidence may be unknown.
* `TypeFacts.questions`: the questions on which the evidence on a function depends.
* `TypeSource.refusal?`, `TypeSource.Reports`: a source that refuses questions, but gives no wrong
  answer.
-/

namespace Deadwood

variable {R : Type}

/-! ## Type relations -/

/-- The type relations of a code base: an answer to every question. -/
structure TypeFacts (R : Type) where
  overridesOf : String → List (MethodOverride R)
  membersOf : String → List TypeMember
  implementorsOf : String → List TypeDefinition

namespace TypeFacts

variable (t : TypeFacts R)

/-- The source that never fails. -/
def source : TypeSource R where
  overridesOf id := .ok (t.overridesOf id)
  membersOf id := .ok (t.membersOf id)
  implementorsOf id := .ok (t.implementorsOf id)

/-- The target of an override is an abstract member. -/
def replacesAbstract (o : MethodOverride R) : Bool :=
  !(o.targetTypeId = "" || o.targetMemberId = "")
    && ((t.membersOf o.targetTypeId).find? (·.id = o.targetMemberId)).any (·.isAbstract)

/-- The class of an override; none if its kind is unknown. -/
def classOf (o : MethodOverride R) : Option EvidenceClass :=
  match o.kind with
  | .abstractImplement => some .abstractMethod
  | .implement => some .interfaceMethod
  | .override => some (if t.replacesAbstract o then .abstractMethod else .parentMethod)
  | .signatureImplement => some .parentMethod
  | .other _ => none

/-- The overrides of known kinds with their classes. -/
def classed (os : List (MethodOverride R)) : List (Classed R) :=
  os.flatMap fun o => (t.classOf o).toList.map (·, o)

/-- The classes that implement an interface of the evidence, each once. -/
def implementors (all : List (Classed R)) : List TypeDefinition :=
  keepFirst (·.id) ((EvidenceSession.interfaceIds all).flatMap t.implementorsOf)

/-- The overrides by which a function is judged. -/
def allOf (id : String) : List (Classed R) :=
  t.classed (t.overridesOf id)

/-- The names of the classes that share an interface with a function. -/
def classNames (id : String) : List String :=
  sortedTexts ((t.implementors (t.allOf id)).map (·.name))

/-- The evidence on a function. -/
def evidence [Scale R] (id : String) : Evidence R :=
  .weigh id (t.allOf id) (t.classNames id)

/-- What is said of a function: its evidence, unless something keeps that unknown. -/
def verdict [Scale R] (failClosed : Bool) (id : String) : Option Fault → Evidence R
  | none => t.evidence id
  | some f => .unknown failClosed id f

end TypeFacts

/-! ## Questions -/

/-- The question that tells the class of an override, if its kind alone does not. -/
def MethodOverride.question? (o : MethodOverride R) : Option TypeQuery :=
  match o.kind with
  | .override =>
    if o.targetTypeId = "" || o.targetMemberId = "" then none else some (.members o.targetTypeId)
  | _ => none

/-- The questions on which the evidence on a function depends, in the order in which they are
asked. -/
def TypeFacts.questions (t : TypeFacts R) (id : String) : List TypeQuery :=
  .overrides id :: ((t.overridesOf id).filterMap (·.question?)
    ++ (EvidenceSession.interfaceIds (t.allOf id)).map .implementors)

/-- Why there is no answer, if there is none. -/
def cause? {α : Type} : Except Fault α → Option Fault
  | .ok _ => none
  | .error cause => some cause

namespace TypeSource

/-- Why a question is refused, if it is. -/
def refusal? (src : TypeSource R) : TypeQuery → Option Fault
  | .overrides id => cause? (src.overridesOf id)
  | .members id => cause? (src.membersOf id)
  | .implementors id => cause? (src.implementorsOf id)

/-- What a source answers is so. -/
structure Reports (src : TypeSource R) (t : TypeFacts R) : Prop where
  overrides {id : String} {os : List (MethodOverride R)} (h : src.overridesOf id = .ok os) :
    os = t.overridesOf id
  members {id : String} {ms : List TypeMember} (h : src.membersOf id = .ok ms) :
    ms = t.membersOf id
  implementors {id : String} {ds : List TypeDefinition} (h : src.implementorsOf id = .ok ds) :
    ds = t.implementorsOf id

end TypeSource

@[simp] theorem TypeFacts.refusal?_source (t : TypeFacts R) (q : TypeQuery) :
    t.source.refusal? q = none := by
  cases q <;> rfl

theorem TypeFacts.reports_source (t : TypeFacts R) : t.source.Reports t where
  overrides h := (Except.ok.inj h).symm
  members h := (Except.ok.inj h).symm
  implementors h := (Except.ok.inj h).symm

end Deadwood
