import Deadwood.Cycle.Boundary
import Deadwood.Decimal.Layout
import Deadwood.Disk.Basic
import Deadwood.Yaml.Data

/-!
# Layer tables

A file in YAML can hold rules that name the layers of a code base.

## Main definitions

* `LayerTable.ofText?`: the rules in a document.
* `LayerTable.problem?`: the first rule that cannot be used.
* `LayerTable.load`: the rules in a file.
-/

namespace Deadwood.LayerTable

open Yaml

/-- What a node says as a text; a number keeps its written form, and nothing leaves the text as it
was. -/
def textOf (s : Scope) (n : Node) (old : String) : Decoding String := do
  let (_, n) ← s.enter n
  match n with
  | .scalar tag plain text =>
    match Node.scalarDatum? tag plain text with
    | none => failure
    | some .null => return old
    | some (.text t) => return t
    | some _ => return text
  | _ => failure

def once {α : Type} (seen : List String) (name : String) (read : Decoding α) : Decoding α :=
  if seen.contains name then failure else read

/-- One rule; `none` where a node says that there is nothing. -/
def rule (fuel : Nat) (s : Scope) (n : Node) : Decoding (Option LayerRule) := do
  let (s, n) ← s.enter n
  match n with
  | .scalar tag plain text =>
    match Node.scalarDatum? tag plain text with
    | some .null => return none
    | _ => failure
  | .mapping pairs =>
    let use (s : Scope) (name : String) (v : Node) (acc : List String × LayerRule) :=
      if name = "pattern" then once acc.1 name do
        return (name :: acc.1, { acc.2 with pattern := ← textOf s v acc.2.pattern })
      else if name = "layer" then once acc.1 name do
        return (name :: acc.1, { acc.2 with layer := ← textOf s v acc.2.layer })
      else return acc
    let h ← s.eachEntry true use fuel pairs ⟨none, ([], ⟨"", ""⟩)⟩
    return some h.result.2
  | _ => failure

/-- A list of rules; entries without content are dropped. -/
def ruleList (fuel : Nat) (s : Scope) (n : Node) : Decoding (List LayerRule) := do
  let (s, n) ← s.enter n
  match n with
  | .scalar tag plain text =>
    match Node.scalarDatum? tag plain text with
    | some .null => return []
    | _ => failure
  | .sequence items => return (← items.mapM (rule fuel s)).filterMap id
  | _ => failure

def ofRoot (fuel : Nat) (s : Scope) (n : Node) : Decoding (List LayerRule) := do
  let (s, n) ← s.enter n
  match n with
  | .scalar tag plain text =>
    match Node.scalarDatum? tag plain text with
    | some .null => return []
    | _ => failure
  | .mapping pairs =>
    let use (s : Scope) (name : String) (v : Node) (acc : List String × List LayerRule) :=
      if name = "layers" then once acc.1 name do
        return (name :: acc.1, ← ruleList fuel s v)
      else return acc
    let h ← s.eachEntry true use fuel pairs ⟨none, ([], [])⟩
    return h.result.2
  | _ => failure

def ofText? (text : String) : Option (List LayerRule) := do
  match ← Document.ofText? text with
  | none => some []
  | some d => d.decode ofRoot text.length

/-- The first rule that cannot be used, and why. -/
def problem? (path : String) (rules : List LayerRule) : Option Fault :=
  rules.zipIdx.findSome? fun (r, i) =>
    let at_ := "layer table " ++ path ++ ": rule " ++ Decimal.digitText i
    if r.pattern = "" || r.layer = "" then some (.other (at_ ++ " needs pattern and layer"))
    else if !PathPattern.isWellFormed r.pattern then
      some (.context at_ (.other "syntax error in pattern"))
    else none

def load (path : String) (d : Disk) : Except Fault (List LayerRule) :=
  match d.readFile path with
  | .error f => .error (.context "failed to read layer table" f)
  | .ok bytes =>
    match (Text.ofUtf8? bytes).bind ofText? with
    | none =>
      .error (.context ("failed to parse layer table " ++ path) (.malformed "malformed table"))
    | some rules =>
      match problem? path rules with
      | some f => .error f
      | none => .ok rules

end Deadwood.LayerTable
