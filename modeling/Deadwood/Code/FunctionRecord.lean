import Deadwood.Numeral

/-!
# Functions

A function as it was extracted from source code: where it stands, how complex it is and how it may
be called.

## Main definitions

* `FunctionRecord`: one function.
* `FunctionRecord.lineCount`, `FunctionRecord.displayName`: its size and its name for people.
-/

namespace Deadwood

/-- A function of the analysed code. Lines count from one, and both ends belong to it. -/
structure FunctionRecord where
  id : String
  semanticId : String := ""
  name : String := ""
  filePath : String := ""
  startLine : Int := 0
  endLine : Int := 0
  complexity : Int := 0
  isExported : Bool := false
  isMethod : Bool := false
  isStatic : Bool := false
  className : String := ""
  contextPath : String := ""
  signature : String := ""
  deriving Repr, DecidableEq, Inhabited

namespace FunctionRecord

/-- The number of lines of the function; none if it ends before it starts. -/
def lineCount (f : FunctionRecord) : Int :=
  if f.endLine < f.startLine then 0 else Word.wrap (f.endLine - f.startLine + 1)

/-- The name of the function, behind the name of its class if it has one. -/
def displayName (f : FunctionRecord) : String :=
  if f.className = "" then f.name else f.className ++ "." ++ f.name

end FunctionRecord

end Deadwood
