import Deadwood.Evidence.Basic

/-!
# Querying type evidence

The evidence on a function is asked of a source of type relations. Within a run, answers are
remembered; failed queries are not, so that a later one can succeed.

## Main definitions

* `TypeSource`: the type relations that can be asked for.
* `TypeQuery`: one question.
* `EvidenceSession`: what a run remembers, and the questions it asked.
* `EvidenceSession.analyze`, `EvidenceSession.analyzeAll`: the evidence on functions.
* `EvidenceSession.shouldProtect`: whether it protects a function.
-/

namespace Deadwood

/-- The type relations of a code base. Each question may fail. -/
structure TypeSource (R : Type) where
  overridesOf : String → Except Fault (List (MethodOverride R))
  membersOf : String → Except Fault (List TypeMember)
  implementorsOf : String → Except Fault (List TypeDefinition)

/-- One question. -/
inductive TypeQuery where
  | overrides (functionId : String)
  | members (typeId : String)
  | implementors (typeId : String)
  deriving Repr, DecidableEq

namespace TypeQuery

def op : TypeQuery → String
  | overrides _ => "GetMethodOverridesByFunction"
  | members _ => "GetTypeMembers"
  | implementors _ => "GetImplementingClasses"

/-- What a question is about. -/
def key : TypeQuery → String
  | overrides k => k
  | members k => k
  | implementors k => k

def text (q : TypeQuery) : String :=
  q.op ++ "(" ++ q.key ++ ")"

def failed (q : TypeQuery) (cause : Fault) : Fault :=
  .query q.op q.key cause

end TypeQuery

/-- What a run remembers. -/
structure EvidenceMemo (R : Type) where
  results : Memo (Evidence R) := {}
  members : Memo (List TypeMember) := {}
  implementors : Memo (List TypeDefinition) := {}

/-- What a run remembers, if it remembers anything, and the questions it asked, the last one
first. -/
structure EvidenceSession (R : Type) where
  memo : Option (EvidenceMemo R)
  asked : List TypeQuery := []

namespace EvidenceSession

variable {R : Type}

/-- The key under which something of a snapshot is remembered. -/
def memoKey (snapshot id : String) : String :=
  snapshot ++ "\x00" ++ id

def ask (s : EvidenceSession R) (q : TypeQuery) : EvidenceSession R :=
  { s with asked := q :: s.asked }

def membersOf (src : TypeSource R) (snapshot typeId : String) (s : EvidenceSession R) :
    Except Fault (List TypeMember) × EvidenceSession R :=
  let key := memoKey snapshot typeId
  match s.memo.bind (·.members.get? key) with
  | some ms => (.ok ms, s)
  | none =>
    let s := s.ask (.members typeId)
    match src.membersOf typeId with
    | .error f => (.error ((TypeQuery.members typeId).failed f), s)
    | .ok ms =>
      (.ok ms, { s with memo := s.memo.map fun m => { m with members := m.members.set key ms } })

/-- The classes that implement an interface, remembered or asked for. -/
def implementorsOf (src : TypeSource R) (snapshot typeId : String) (s : EvidenceSession R) :
    Except Fault (List TypeDefinition) × EvidenceSession R :=
  let key := memoKey snapshot typeId
  match s.memo.bind (·.implementors.get? key) with
  | some ds => (.ok ds, s)
  | none =>
    let s := s.ask (.implementors typeId)
    match src.implementorsOf typeId with
    | .error f => (.error ((TypeQuery.implementors typeId).failed f), s)
    | .ok ds =>
      (.ok ds,
        { s with memo := s.memo.map fun m => { m with implementors := m.implementors.set key ds } })

def targetIsAbstract (src : TypeSource R) (snapshot : String) (o : MethodOverride R)
    (s : EvidenceSession R) : Except Fault Bool × EvidenceSession R :=
  if o.targetTypeId = "" || o.targetMemberId = "" then (.ok false, s)
  else
    match membersOf src snapshot o.targetTypeId s with
    | (.error f, s) => (.error f, s)
    | (.ok ms, s) => (.ok ((ms.find? (·.id = o.targetMemberId)).any (·.isAbstract)), s)

/-- The class of an override; none if its kind is unknown. -/
def classOf (src : TypeSource R) (snapshot : String) (o : MethodOverride R)
    (s : EvidenceSession R) : Except Fault (Option EvidenceClass) × EvidenceSession R :=
  match o.kind with
  | .abstractImplement => (.ok (some .abstractMethod), s)
  | .implement => (.ok (some .interfaceMethod), s)
  | .signatureImplement => (.ok (some .parentMethod), s)
  | .other _ => (.ok none, s)
  | .override =>
    match targetIsAbstract src snapshot o s with
    | (.error f, s) => (.error f, s)
    | (.ok isAbstract, s) => (.ok (some (if isAbstract then .abstractMethod else .parentMethod)), s)

def classify (src : TypeSource R) (snapshot : String) :
    List (MethodOverride R) → EvidenceSession R →
      Except Fault (List (Classed R)) × EvidenceSession R
  | [], s => (.ok [], s)
  | o :: os, s =>
    match classOf src snapshot o s with
    | (.error f, s) => (.error f, s)
    | (.ok c, s) =>
      match classify src snapshot os s with
      | (.error f, s) => (.error f, s)
      | (.ok rest, s) => (.ok (c.toList.map (·, o) ++ rest), s)

/-- The classes that implement one of some interfaces, one interface after the other. -/
def implementorsOfAll (src : TypeSource R) (snapshot : String) :
    List String → EvidenceSession R → Except Fault (List TypeDefinition) × EvidenceSession R
  | [], s => (.ok [], s)
  | id :: ids, s =>
    match implementorsOf src snapshot id s with
    | (.error f, s) => (.error f, s)
    | (.ok ds, s) =>
      match implementorsOfAll src snapshot ids s with
      | (.error f, s) => (.error f, s)
      | (.ok rest, s) => (.ok (ds ++ rest), s)

/-- The ids of the interfaces among the evidence, in ascending order. -/
def interfaceIds (all : List (Classed R)) : List String :=
  distinctTexts (all.filterMap fun (c, o) =>
    if c = .interfaceMethod && o.targetTypeId ≠ "" then some o.targetTypeId else none)

variable [Scale R]

/-- The evidence on a function by asking, whatever is remembered of it. -/
def examine (src : TypeSource R) (failClosed : Bool) (snapshot id : String)
    (s : EvidenceSession R) : Evidence R × EvidenceSession R :=
  let s := s.ask (.overrides id)
  match src.overridesOf id with
  | .error f => (.unknown failClosed id ((TypeQuery.overrides id).failed f), s)
  | .ok os =>
    match classify src snapshot os s with
    | (.error f, s) => (.unknown failClosed id f, s)
    | (.ok all, s) =>
      match implementorsOfAll src snapshot (interfaceIds all) s with
      | (.error f, s) => (.unknown failClosed id f, s)
      | (.ok ds, s) => (.weigh id all (sortedTexts ((keepFirst (·.id) ds).map (·.name))), s)

/-- The evidence on a function, remembered or found by asking. -/
def analyze (src : TypeSource R) (failClosed : Bool) (snapshot id : String)
    (s : EvidenceSession R) : Evidence R × EvidenceSession R :=
  let key := memoKey snapshot id
  match s.memo.bind (·.results.get? key) with
  | some e => (e, s)
  | none =>
    let (e, s) := examine src failClosed snapshot id s
    if e.failure.isSome then (e, s)
    else (e, { s with memo := s.memo.map fun m => { m with results := m.results.set key e } })

/-- Whether the evidence on a function reaches a threshold. -/
def shouldProtect (src : TypeSource R) (failClosed : Bool) (snapshot id : String) (threshold : R)
    (s : EvidenceSession R) : Bool × EvidenceSession R :=
  let (e, s) := analyze src failClosed snapshot id s
  (e.isProtected threshold, s)

/-- The evidence on several functions, in their order. -/
def analyzeAll (src : TypeSource R) (failClosed : Bool) (snapshot : String) :
    List String → EvidenceSession R → List (Evidence R) × EvidenceSession R
  | [], s => ([], s)
  | id :: ids, s =>
    let (e, s) := analyze src failClosed snapshot id s
    let (es, s) := analyzeAll src failClosed snapshot ids s
    (e :: es, s)

end EvidenceSession

/-- The evidence on a function without anything remembered. -/
def Evidence.of {R : Type} [Scale R] (src : TypeSource R) (failClosed : Bool)
    (snapshot id : String) : Evidence R :=
  (EvidenceSession.analyze src failClosed snapshot id { memo := none }).1

end Deadwood
