import Deadwood.PathPattern

/-!
# Layers and modules

Every source file belongs to a layer and, inside it, to a module. Both are read off its path below
the source directory; a table of rules can give layers other names.

## Main definitions

* `LayerRule`: a rule that names the layer of some files.
* `Boundaries`, `Boundaries.ofRoot`: the rules of a code base.
* `Boundaries.resolve`, `Boundaries.layer`, `Boundaries.module`: where a file belongs.
-/

namespace Deadwood

open Text

/-- Files whose path fits the pattern belong to the layer. -/
structure LayerRule where
  pattern : String
  layer : String
  deriving Repr, DecidableEq, Inhabited

/-- How the layers and modules of a code base are told apart. -/
structure Boundaries where
  /-- The root of the code base without a slash at its end; empty if unknown. -/
  rootDir : String := ""
  /-- The rules; the first one that fits wins. -/
  rules : List LayerRule := []

/-- A path without `./` at its start and without a slash at its end. -/
def plainPath (path : String) : String :=
  stripEnd "/" (stripStart "./" path)

/-- Directories that hold the sources and say nothing about them. -/
def isSourceDirectory (dir : String) : Bool :=
  ["src", "lib", "internal", "pkg", "app"].contains dir

/-- The directories below the first source directory; all of them if there is none. -/
def belowSource (dirs : List String) : List String :=
  match dirs.dropWhile (!isSourceDirectory ·) with
  | [] => dirs
  | _ :: rest => rest

/-- The layer and the module that a file in some directories belongs to. -/
def layerAndModule : List String → String × String
  | [] => ("(root)", "(root)")
  | [d] => (d, d)
  | d :: e :: _ => (d, d ++ "/" ++ e)

namespace Boundaries

def ofRoot (root : String) (rules : List LayerRule) : Boundaries :=
  ⟨plainPath root, rules⟩

/-- A path as seen from the root of the code base. -/
def relative (b : Boundaries) (path : String) : String :=
  let p := plainPath path
  let p := if b.rootDir = "" then p else stripStart (b.rootDir ++ "/") p
  stripStart "/" p

def ruleFor? (b : Boundaries) (path : String) : Option String :=
  (b.rules.find? fun r => PathPattern.coversFromRoot r.pattern path).map (·.layer)

/-- The layer and the module of a file. -/
def resolve (b : Boundaries) (path : String) : String × String :=
  let p := b.relative path
  let (layer, module) := layerAndModule (belowSource (segments '/' p).dropLast)
  match b.ruleFor? p with
  | some named => (named, named ++ "/" ++ module)
  | none => (layer, module)

def layer (b : Boundaries) (path : String) : String :=
  (b.resolve path).1

def module (b : Boundaries) (path : String) : String :=
  (b.resolve path).2

end Boundaries

end Deadwood
