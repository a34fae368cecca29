import Deadwood.Code.CallEdge
import Deadwood.Code.FunctionRecord
import Deadwood.Code.TypeRelation
import Deadwood.Json.Record

/-!
# Functions, calls and type relations as JSON

The written form of the extracted code: texts and numbers that say nothing are left out where a
record allows it, and a confidence is left out only if none was recorded.

## Main definitions

* `FunctionRecord.toJson`, `CallEdge.toJson`, …: the written form.
* `FunctionRecord.reader`, `CallEdge.reader`, …: reading it.
-/

namespace Deadwood

open Json (textUnlessEmpty flagIfTrue intUnlessZero)
open Json.Reader (at_)

namespace FunctionRecord

def blank : FunctionRecord := { id := "" }

def toJson (f : FunctionRecord) : Json :=
  .object <|
    [("id", .text f.id)]
    ++ textUnlessEmpty "semantic_id" f.semanticId
    ++ [("name", .text f.name), ("file_path", .text f.filePath), ("start_line", .int f.startLine),
      ("end_line", .int f.endLine), ("cyclomatic_complexity", .int f.complexity),
      ("is_exported", .bool f.isExported)]
    ++ flagIfTrue "is_method" f.isMethod
    ++ flagIfTrue "is_static" f.isStatic
    ++ textUnlessEmpty "class_name" f.className
    ++ textUnlessEmpty "context_path" f.contextPath
    ++ textUnlessEmpty "signature" f.signature

def reader : Json.Reader FunctionRecord :=
  .record [
    at_ "id" .text (·.id) ({ · with id := · }),
    at_ "semantic_id" .text (·.semanticId) ({ · with semanticId := · }),
    at_ "name" .text (·.name) ({ · with name := · }),
    at_ "file_path" .text (·.filePath) ({ · with filePath := · }),
    at_ "start_line" .int (·.startLine) ({ · with startLine := · }),
    at_ "end_line" .int (·.endLine) ({ · with endLine := · }),
    at_ "cyclomatic_complexity" .int (·.complexity) ({ · with complexity := · }),
    at_ "is_exported" .bool (·.isExported) ({ · with isExported := · }),
    at_ "is_method" .bool (·.isMethod) ({ · with isMethod := · }),
    at_ "is_static" .bool (·.isStatic) ({ · with isStatic := · }),
    at_ "class_name" .text (·.className) ({ · with className := · }),
    at_ "context_path" .text (·.contextPath) ({ · with contextPath := · }),
    at_ "signature" .text (·.signature) ({ · with signature := · })]

end FunctionRecord

namespace CallEdge

def blank : CallEdge Float := { caller := "" }

def toJson (e : CallEdge Float) : Json :=
  .object <|
    [("caller_function_id", .text e.caller)]
    ++ textUnlessEmpty "callee_function_id" e.callee
    ++ [("callee_name", .text e.calleeName), ("call_type", .text e.kind.name)]
    ++ intUnlessZero "line_number" e.line
    ++ (match e.confidence with
      | none => []
      | some c => [("confidence", .float c)])

def reader : Json.Reader (CallEdge Float) :=
  .record [
    at_ "caller_function_id" .text (·.caller) ({ · with caller := · }),
    at_ "callee_function_id" .text (·.callee) ({ · with callee := · }),
    at_ "callee_name" .text (·.calleeName) ({ · with calleeName := · }),
    at_ "call_type" .text (·.kind.name) (fun e s => { e with kind := .ofName s }),
    at_ "line_number" .int (·.line) ({ · with line := · }),
    at_ "confidence" (.optional 0.0 .float) (·.confidence) ({ · with confidence := · })]

end CallEdge

namespace TypeDefinition

def blank : TypeDefinition := { id := "" }

def toJson (t : TypeDefinition) : Json :=
  .object <|
    [("id", .text t.id), ("snapshot_id", .text t.snapshotId), ("name", .text t.name),
      ("kind", .text t.kind.name), ("file_path", .text t.filePath),
      ("start_line", .int t.startLine)]
    ++ flagIfTrue "is_abstract" t.isAbstract
    ++ flagIfTrue "is_exported" t.isExported

def reader : Json.Reader TypeDefinition :=
  .record [
    at_ "id" .text (·.id) ({ · with id := · }),
    at_ "snapshot_id" .text (·.snapshotId) ({ · with snapshotId := · }),
    at_ "name" .text (·.name) ({ · with name := · }),
    at_ "kind" .text (·.kind.name) (fun t s => { t with kind := .ofName s }),
    at_ "file_path" .text (·.filePath) ({ · with filePath := · }),
    at_ "start_line" .int (·.startLine) ({ · with startLine := · }),
    at_ "is_abstract" .bool (·.isAbstract) ({ · with isAbstract := · }),
    at_ "is_exported" .bool (·.isExported) ({ · with isExported := · })]

end TypeDefinition

namespace TypeMember

def blank : TypeMember := { id := "" }

def toJson (m : TypeMember) : Json :=
  .object <|
    [("id", .text m.id), ("type_id", .text m.typeId), ("name", .text m.name),
      ("member_kind", .text m.memberKind)]
    ++ textUnlessEmpty "function_id" m.functionId
    ++ flagIfTrue "is_abstract" m.isAbstract
    ++ flagIfTrue "is_static" m.isStatic

def reader : Json.Reader TypeMember :=
  .record [
    at_ "id" .text (·.id) ({ · with id := · }),
    at_ "type_id" .text (·.typeId) ({ · with typeId := · }),
    at_ "name" .text (·.name) ({ · with name := · }),
    at_ "member_kind" .text (·.memberKind) ({ · with memberKind := · }),
    at_ "function_id" .text (·.functionId) ({ · with functionId := · }),
    at_ "is_abstract" .bool (·.isAbstract) ({ · with isAbstract := · }),
    at_ "is_static" .bool (·.isStatic) ({ · with isStatic := · })]

end TypeMember

namespace MethodOverride

def blank : MethodOverride Float := { id := "", confidence := 0.0 }

def toJson (o : MethodOverride Float) : Json :=
  .object <|
    [("id", .text o.id), ("method_member_id", .text o.methodMemberId),
      ("source_type_id", .text o.sourceTypeId)]
    ++ textUnlessEmpty "target_member_id" o.targetMemberId
    ++ textUnlessEmpty "target_type_id" o.targetTypeId
    ++ textUnlessEmpty "target_type_name" o.targetTypeName
    ++ [("override_kind", .text o.kind.name), ("is_compatible", .bool o.isCompatible),
      ("confidence_score", .float o.confidence)]

def reader : Json.Reader (MethodOverride Float) :=
  .record [
    at_ "id" .text (·.id) ({ · with id := · }),
    at_ "method_member_id" .text (·.methodMemberId) ({ · with methodMemberId := · }),
    at_ "source_type_id" .text (·.sourceTypeId) ({ · with sourceTypeId := · }),
    at_ "target_member_id" .text (·.targetMemberId) ({ · with targetMemberId := · }),
    at_ "target_type_id" .text (·.targetTypeId) ({ · with targetTypeId := · }),
    at_ "target_type_name" .text (·.targetTypeName) ({ · with targetTypeName := · }),
    at_ "override_kind" .text (·.kind.name) (fun o s => { o with kind := .ofName s }),
    at_ "is_compatible" .bool (·.isCompatible) ({ · with isCompatible := · }),
    at_ "confidence_score" .float (·.confidence) ({ · with confidence := · })]

end MethodOverride

end Deadwood
