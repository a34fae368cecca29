import Deadwood.Yaml.Node
import Deadwood.Yaml.Scalar

/-!
# Data of YAML documents

An alias gives the data of the node it points to. A mapping may take over the entries of others by a
merge key; its own entries count more, and of several mappings the first one. A document whose data
stems almost only from aliases is refused.

## Main definitions

* `Yaml.Decoding`: reading that keeps count of its effort.
* `Yaml.Scope.eachEntry`: visits the entries of a mapping, merged ones included.
* `Yaml.Scope.datum`, `Yaml.parse?`: the data of a document.
-/

namespace Deadwood.Yaml

/-! ## Effort -/

/-- How many nodes were visited, and how many of them inside of an alias. -/
structure Effort where
  nodes : Nat := 0
  aliased : Nat := 0

/-- Whether too large a part was visited inside of aliases: more than 99 percent in small documents,
falling to a tenth in large ones. -/
def Effort.isExcessive (e : Effort) : Bool :=
  100 < e.aliased && 1000 < e.nodes &&
    if e.nodes ≤ 400000 then 99 * e.nodes < 100 * e.aliased
    else if 4000000 ≤ e.nodes then e.nodes < 10 * e.aliased
    else e.nodes * (99 * 3600000 - 89 * (e.nodes - 400000)) < 360000000 * e.aliased

abbrev Decoding := StateT Effort Option

/-- The aliases that are being followed, and where they point to. -/
structure Scope where
  anchored : List (Nat × Node)
  open_ : List Nat := []

namespace Scope

def visit (s : Scope) : Decoding Unit := do
  let e ← get
  let e : Effort := ⟨e.nodes + 1, if s.open_.isEmpty then e.aliased else e.aliased + 1⟩
  if e.isExcessive then failure else set e

/-- Visit a node; an alias leads on to its target, which must not hold the alias. -/
def enter (s : Scope) (n : Node) : Decoding (Scope × Node) := do
  s.visit
  match n with
  | .alias_ _ i =>
    match s.anchored.lookup i with
    | none => failure
    | some target =>
      if s.open_.contains i then failure
      let s := { s with open_ := i :: s.open_ }
      s.visit
      return (s, target)
  | n => return (s, n)

/-- The node that an alias points to, without visiting it. -/
def target (s : Scope) : Node → Node
  | .alias_ a i => (s.anchored.lookup i).getD (.alias_ a i)
  | n => n

end Scope

namespace Node

/-- What a key is compared by: no two keys of a mapping may be written alike. -/
def label : Node → Nat × String
  | .scalar _ _ text => (0, text)
  | .sequence _ => (1, "")
  | .mapping _ => (2, "")
  | .alias_ name _ => (3, name)

/-- Whether a key asks for the entries of its value to be merged. -/
def isMerge : Node → Bool
  | .scalar none plain "<<" => plain
  | .scalar (some tag) _ "<<" => tag = "!!merge"
  | _ => false

def scalarDatum? (tag : Option String) (plain : Bool) (text : String) : Option Datum :=
  match tag with
  | some t => if t = "!!str" then some (.text text) else taggedDatum? t text
  | none => some (if plain then plainDatum text else .text text)

def isTextKey : Node → Bool
  | .scalar (some tag) _ _ => tag = "!!str" || tag = "!!merge"
  | .scalar none plain text =>
    match scalarDatum? none plain text with
    | some (.text _) => true
    | _ => false
  | _ => false

end Node

/-! ## Entries of mappings -/

namespace Scope

/-- The name that a key stands for. Where names are texts, a key that means nothing has none. -/
def keyName (s : Scope) (texts : Bool) (k : Node) : Decoding (Option String) := do
  let (_, k) ← s.enter k
  match k with
  | .scalar tag plain text =>
    match Node.scalarDatum? tag plain text with
    | none => failure
    | some .null => return if texts then none else some text
    | some (.text t) => return some t
    | some _ => return some text
  | _ => failure

/-- The mapping that is to be merged, if the node is one or points to one. -/
def mergeSource (s : Scope) (n : Node) : Decoding (Scope × List (Node × Node)) :=
  match s.target n with
  | .mapping _ => do
    match ← s.enter n with
    | (s, .mapping pairs) => return (s, pairs)
    | _ => failure
  | _ => failure

def mergeSources (n : Node) : List Node :=
  match n with
  | .sequence items => items
  | n => [n]

/-- Names that are given already, and what was made of the entries so far. -/
structure Harvest (α : Type) where
  taken : Option (List String)
  result : α

/-- Visit one entry, unless its name was taken. -/
def oneEntry {α : Type} (s : Scope) (texts : Bool) (use : Scope → String → Node → α → Decoding α)
    (h : Harvest α) (pair : Node × Node) : Decoding (Harvest α) := do
  match ← s.keyName texts pair.1 with
  | none => return h
  | some name =>
    if h.taken.any (·.contains name) then return h
    let result ← use s name pair.2 h.result
    return ⟨h.taken.map (name :: ·), result⟩

/-- Visit the entries of a mapping, merged ones included: first its own, then those of a mapping to
be merged whose names are not given yet. `texts` says whether names are texts, `fuel` bounds how
deeply merges are nested. -/
def eachEntry {α : Type} (texts : Bool) (use : Scope → String → Node → α → Decoding α) :
    (fuel : Nat) → Scope → List (Node × Node) → Harvest α → Decoding (Harvest α)
  | 0, _, _, _ => failure
  | fuel + 1, s, pairs, h => do
    if !(pairs.map fun (k, _) => k.label).Nodup then failure
    let own := pairs.filter fun (k, _) => !k.isMerge
    let h' ← own.foldlM (s.oneEntry texts use) h
    match pairs.find? fun (k, _) => k.isMerge with
    | none => return h'
    | some (_, source) =>
      let taken ← match h'.taken with
        | some names => pure names
        | none => do
          let names ← pairs.mapM fun (k, _) => s.keyName false k
          pure (names.filterMap id)
      let merged ← (mergeSources source).foldlM (fun h n => do
        let (s, pairs) ← s.mergeSource n
        eachEntry texts use fuel s pairs h) ⟨some taken, h'.result⟩
      return { merged with taken := h.taken.bind fun _ => merged.taken }

/-! ## Data -/

def put (name : String) (d : Datum) (entries : List (String × Datum)) : List (String × Datum) :=
  entries.filter (·.1 ≠ name) ++ [(name, d)]

/-- The data of a node. At the `top`, names are texts whatever they look like; `fuel` bounds how
deeply nodes are nested. -/
def datum (top : Bool) : (fuel : Nat) → Scope → Node → Decoding Datum
  | 0, _, _ => failure
  | fuel + 1, s, n => do
    let (s, n) ← s.enter n
    match n with
    | .scalar tag plain text => (Node.scalarDatum? tag plain text).elim failure pure
    | .sequence items => .list <$> items.mapM (datum false fuel s)
    | .mapping pairs =>
      let texts := top || pairs.all fun (k, _) => (s.target k).isTextKey
      let h ← s.eachEntry texts (fun s name v entries => do
        return put name (← datum false fuel s v) entries) fuel pairs ⟨none, []⟩
      return .table h.result
    | .alias_ .. => failure

end Scope

/-- Run a reading of a document; its root counts twice, as document and as node. -/
def Document.decode {α : Type} (d : Document) (read : (fuel : Nat) → Scope → Node → Decoding α)
    (size : Nat) : Option α :=
  let fuel := (d.anchored.length + 1) * (2 * size + 4)
  ((read fuel ⟨d.anchored, []⟩ d.root).run ⟨1, 0⟩).map (·.1)

def parse? (text : String) : Option Datum := do
  match ← Document.ofText? text with
  | none => some .null
  | some d => d.decode (Scope.datum true) text.length

end Deadwood.Yaml
