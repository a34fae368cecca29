/-!
# Failures

What can go wrong, and the one place where failures are put into words. A failure may be the cause
of another one, or one of several that happened together; its class is the first class, in a fixed
order, that occurs anywhere in it.

## Main definitions

* `SystemError`: why the operating system refuses an operation on a file.
* `Fault`, `Fault.message`: failures and their texts.
* `Fault.Class`, `Fault.rank`: what callers tell apart.
-/

namespace Deadwood

/-- Why an operation on a file is refused. -/
inductive SystemError where
  | noEntry
  | notDirectory
  | isDirectory
  | alreadyExists
  | notEmpty
  | invalid
  | nameTooLong
  | noSpace
  | inputOutput
  | denied
  deriving Repr, DecidableEq, Inhabited

def SystemError.message : SystemError → String
  | noEntry => "no such file or directory"
  | notDirectory => "not a directory"
  | isDirectory => "is a directory"
  | alreadyExists => "file exists"
  | notEmpty => "directory not empty"
  | invalid => "invalid argument"
  | nameTooLong => "file name too long"
  | noSpace => "no space left on device"
  | inputOutput => "input/output error"
  | denied => "permission denied"

/-- A failure. -/
inductive Fault where
  /-- An option has a value that is not allowed; the value is kept as text. -/
  | badOption (field value reason : String)
  /-- A call edge names a function that does not exist. -/
  | badEdge (caller callee reason : String)
  /-- A query of the type relations failed. -/
  | query (op key : String) (cause : Fault)
  /-- An operation on a source or backup file failed. -/
  | file (op path : String) (cause : Fault)
  /-- A validation command gave no verdict. -/
  | process (command : String) (cause : Fault)
  /-- A validation command ran out of time. -/
  | timeout (command : String) (cause : Fault)
  /-- The store has no such snapshot; without an id, it has none at all. -/
  | noSnapshot (id : Option String)
  /-- The run was cancelled. -/
  | cancelled
  /-- The operating system refused an operation on a path. -/
  | system (op path : String) (error : SystemError)
  /-- The operating system refused to move a file. -/
  | move (source target : String) (error : SystemError)
  /-- Something that should be there is not. -/
  | missing
  /-- A text that could not be read in its format. -/
  | malformed (text : String)
  | other (text : String)
  /-- A failure with an explanation in front of it. -/
  | context (before : String) (cause : Fault)
  /-- Several failures at once. -/
  | several (faults : List Fault)
  deriving Repr, Inhabited

namespace Fault

mutual

def message : Fault → String
  | badOption field value reason => "invalid " ++ field ++ " (" ++ value ++ "): " ++ reason
  | badEdge caller callee reason => "edge " ++ caller ++ " -> " ++ callee ++ ": " ++ reason
  | query op key cause => op ++ "(" ++ key ++ "): " ++ message cause
  | file op path cause => op ++ " " ++ path ++ ": " ++ message cause
  | process command cause => command ++ ": " ++ message cause
  | timeout command _ => command ++ ": timed out"
  | noSnapshot none => "snapshot not found"
  | noSnapshot (some id) => "snapshot not found: " ++ id
  | cancelled => "context canceled"
  | system op path e => op ++ " " ++ path ++ ": " ++ e.message
  | move source target e => "rename " ++ source ++ " " ++ target ++ ": " ++ e.message
  | missing => "file does not exist"
  | malformed text => text
  | other text => text
  | context before cause => before ++ ": " ++ message cause
  | several faults => messages faults

def messages : List Fault → String
  | [] => ""
  | [f] => message f
  | f :: g :: rest => message f ++ "\n" ++ messages (g :: rest)

end

/-- What callers tell apart. The order is the one in which classes are looked for. -/
inductive Class where
  | badOption
  | badEdge
  | query
  | file
  | process
  | noSnapshot
  | cancelled
  | other
  deriving Repr, DecidableEq, Inhabited

mutual

/-- The classes that occur in a failure and its causes. -/
def classes : Fault → List Class
  | badOption _ _ _ => [.badOption]
  | badEdge _ _ _ => [.badEdge]
  | query _ _ cause => .query :: classes cause
  | file _ _ cause => .file :: classes cause
  | process _ cause => .process :: classes cause
  | timeout _ cause => .process :: classes cause
  | noSnapshot _ => [.noSnapshot]
  | cancelled => [.cancelled]
  | context _ cause => classes cause
  | several faults => classesAll faults
  | _ => []

def classesAll : List Fault → List Class
  | [] => []
  | f :: fs => classes f ++ classesAll fs

end

/-- Whether a failure is of a class, or was caused by one that is. -/
def isA (c : Class) (f : Fault) : Bool :=
  (classes f).contains c

def rank (f : Fault) : Class :=
  match [Class.badOption, .badEdge, .query, .file, .process, .noSnapshot, .cancelled].find?
      (fun c => isA c f) with
  | some c => c
  | none => .other

mutual

/-- A failure with its causes, down to the first ones. -/
def chain : Fault → List Fault
  | query op key cause => .query op key cause :: chain cause
  | file op path cause => .file op path cause :: chain cause
  | process command cause => .process command cause :: chain cause
  | timeout command cause => .timeout command cause :: chain cause
  | context before cause => .context before cause :: chain cause
  | several faults => .several faults :: chains faults
  | f => [f]

def chains : List Fault → List Fault
  | [] => []
  | f :: fs => chain f ++ chains fs

end

/-- Whether a failure says that a path does not exist. -/
def isMissing : Fault → Bool
  | system _ _ .noEntry => true
  | missing => true
  | _ => false

end Fault

end Deadwood
