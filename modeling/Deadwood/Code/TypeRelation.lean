/-!
# Types, members and overrides

The type relations of the analysed code: types, their members, and which member overrides or
implements which member of another type.

## Main definitions

* `TypeDefinition`, `TypeMember`, `MethodOverride`.
-/

namespace Deadwood

/-- What a type is declared as. -/
inductive TypeKind where
  | classType
  | interfaceType
  | typeAlias
  | enumeration
  | namespaceType
  | other (name : String)
  deriving Repr, DecidableEq, Inhabited

namespace TypeKind

def name : TypeKind → String
  | classType => "class"
  | interfaceType => "interface"
  | typeAlias => "type_alias"
  | enumeration => "enum"
  | namespaceType => "namespace"
  | other n => n

def ofName (s : String) : TypeKind :=
  match s with
  | "class" => classType
  | "interface" => interfaceType
  | "type_alias" => typeAlias
  | "enum" => enumeration
  | "namespace" => namespaceType
  | s => other s

end TypeKind

structure TypeDefinition where
  id : String
  snapshotId : String := ""
  name : String := ""
  kind : TypeKind := .other ""
  filePath : String := ""
  startLine : Int := 0
  isAbstract : Bool := false
  isExported : Bool := false
  deriving Repr, DecidableEq, Inhabited

/-- A member of a type. If it is a method, it may have a function as its body. -/
structure TypeMember where
  id : String
  typeId : String := ""
  name : String := ""
  /-- What the member is declared as; no rule depends on it. -/
  memberKind : String := ""
  functionId : String := ""
  isAbstract : Bool := false
  isStatic : Bool := false
  deriving Repr, DecidableEq, Inhabited

/-- How a method relates to a method of another type. -/
inductive OverrideKind where
  | override
  | implement
  | abstractImplement
  | signatureImplement
  | other (name : String)
  deriving Repr, DecidableEq, Inhabited

namespace OverrideKind

def name : OverrideKind → String
  | override => "override"
  | implement => "implement"
  | abstractImplement => "abstract_implement"
  | signatureImplement => "signature_implement"
  | other n => n

def ofName (s : String) : OverrideKind :=
  match s with
  | "override" => override
  | "implement" => implement
  | "abstract_implement" => abstractImplement
  | "signature_implement" => signatureImplement
  | s => other s

def isKnown : OverrideKind → Bool
  | other _ => false
  | _ => true

end OverrideKind

/-- A method that stands for a method of another type. -/
structure MethodOverride (R : Type) where
  id : String
  methodMemberId : String := ""
  sourceTypeId : String := ""
  targetMemberId : String := ""
  targetTypeId : String := ""
  targetTypeName : String := ""
  kind : OverrideKind := .other ""
  isCompatible : Bool := false
  confidence : R

end Deadwood
