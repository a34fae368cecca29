import Deadwood.Code.FunctionRecord
import Deadwood.Glob
import Deadwood.Path
import Deadwood.Sorted
import Deadwood.Sorted.Quick
import Deadwood.Text.Case

/-!
# Entry points

Functions that are called from outside the analysed code: exported functions, main functions,
callbacks of frameworks, tests, and functions whose names fit a pattern. They are the roots of
reachability.

## Main definitions

* `EntryReason`: why a function is an entry point.
* `isTestFile`, `isTestFunction`: what counts as a test.
* `EntryRules.reasons`, `EntryRules.detect`, `EntryRules.ids`: entry points under some rules.
-/

namespace Deadwood

open Text

/-- Why a function is an entry point. -/
inductive EntryReason where
  | exported
  | main
  | frameworkCallback
  | test
  | pattern
  deriving Repr, DecidableEq, Inhabited

def EntryReason.name : EntryReason → String
  | exported => "exported"
  | main => "main"
  | frameworkCallback => "framework-callback"
  | test => "test"
  | pattern => "pattern"

/-- A function that is called from outside. -/
structure EntryPoint where
  functionId : String
  name : String
  filePath : String
  reasons : List EntryReason
  deriving Repr, DecidableEq

/-! ## Names and files -/

/-- The first character behind `start`, if the name begins with `start` and goes on. -/
def charAfter? (start name : String) : Option Char :=
  (stripStart? start name).bind (·.toList.head?)

/-- Whether the name is `start` and then an upper-case ASCII letter: `onClick` continues `on`,
`once` does not. -/
def continuesWord (start name : String) : Bool :=
  (charAfter? start name).any Char.isUpper

/-- Whether the name is `start` alone, or goes on with anything but a lower-case ASCII letter. -/
def isTestName (name start : String) : Bool :=
  startsWith start name && !(charAfter? start name).any Char.isLower

def isMainName (name : String) : Bool :=
  ["main", "init", "Main"].contains name

/-- Whether a file holds commands: it lies in a directory for commands, or is called so. -/
def isCommandFile (path : String) : Bool :=
  (segments '/' (Path.dir path)).any (["cli", "cmd", "cmds", "commands", "command"].contains ·)
    || ["cli.", "cmd."].any (startsWith · (lower (Path.base path)))

def isTestFile (path : String) : Bool :=
  ["_test.", ".test.", ".spec."].any (occursIn · (Path.base path))
    || occursIn "__tests__/" path

/-- Whether a function is a test, benchmark, example or fuzz function, by its file or its name. -/
def isTestFunction (f : FunctionRecord) : Bool :=
  isTestFile f.filePath || ["Test", "Benchmark", "Example", "Fuzz"].any (isTestName f.name)

def isFrameworkCallback (f : FunctionRecord) : Bool :=
  f.name = "ServeHTTP"
    || ["handle", "Handle", "on", "On"].any (continuesWord · f.name)
    || (isCommandFile f.filePath &&
      (["Command", "Handler", "Action"].any (endsWith · f.name)
        || ["Run", "Execute", "run", "execute"].contains f.name))

/-! ## Detection -/

/-- What counts as an entry point besides the fixed rules. -/
structure EntryRules where
  /-- Tests are no entry points. -/
  excludeTests : Bool := false
  /-- Patterns for the names of further entry points. -/
  patterns : List String := []

namespace EntryRules

def reasons (r : EntryRules) (f : FunctionRecord) : List EntryReason :=
  (if f.isExported && !f.isMethod then [.exported] else [])
    ++ (if isMainName f.name then [.main] else [])
    ++ (if isFrameworkCallback f then [.frameworkCallback] else [])
    ++ (if !r.excludeTests && isTestFunction f then [.test] else [])
    ++ (if r.patterns.any (Glob.fits · f.name) then [.pattern] else [])

def point? (r : EntryRules) (f : FunctionRecord) : Option EntryPoint :=
  match r.reasons f with
  | [] => none
  | why => some ⟨f.id, f.name, f.filePath, why⟩

def detect (r : EntryRules) (fs : List FunctionRecord) : List EntryPoint :=
  sortedBy (fun a b => a.functionId < b.functionId) (fs.filterMap r.point?)

/-- The ids of the entry points in ascending order. -/
def ids (r : EntryRules) (fs : List FunctionRecord) : List String :=
  distinctTexts ((fs.filter fun f => !(r.reasons f).isEmpty).map (·.id))

end EntryRules

end Deadwood
