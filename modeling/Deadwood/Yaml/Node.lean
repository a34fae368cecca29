import Deadwood.Yaml.Scan

/-!
# YAML documents

The tokens of a document describe a tree of scalars, sequences and mappings. Only the first document
of a text is read. An alias points to a node with an anchor; this node may be one around the alias.

## Main definitions

* `Yaml.Node`: the tree.
* `Yaml.Document`: a tree with the nodes that aliases point to.
* `Yaml.Document.ofTokens?`: the first document; there may be none.
-/

namespace Deadwood.Yaml

inductive Node where
  | scalar (tag : Option String) (plain : Bool) (text : String)
  | sequence (items : List Node)
  | mapping (pairs : List (Node × Node))
  /-- An alias of the `target`-th node with an anchor. -/
  | alias_ (name : String) (target : Nat)
  deriving Inhabited

/-- A document with its nodes that have an anchor, by number. -/
structure Document where
  root : Node
  anchored : List (Nat × Node) := []

namespace Node

def empty : Node := .scalar none true ""

/-! ## From tokens -/

structure Feed where
  tokens : List Token
  /-- What the handles of tags stand for. -/
  handles : List (String × String) := usualHandles
  /-- The anchors with the numbers of their nodes, the last one first. -/
  anchors : List (String × Nat) := []
  /-- The nodes with an anchor that are complete. -/
  anchored : List (Nat × Node) := []

structure Properties where
  anchor : Option String := none
  tag : Option (String × String) := none

def properties : List Token → Properties × List Token
  | .anchor a :: .tag h t :: ts => (⟨some a, some (h, t)⟩, ts)
  | .tag h t :: .anchor a :: ts => (⟨some a, some (h, t)⟩, ts)
  | .anchor a :: ts => (⟨some a, none⟩, ts)
  | .tag h t :: ts => (⟨none, some (h, t)⟩, ts)
  | ts => ({}, ts)

def Properties.isEmpty (p : Properties) : Bool :=
  p.anchor.isNone && p.tag.isNone

/-- The name of the tag, unless its handle is not known. -/
def Properties.tagName? (p : Properties) (f : Feed) : Option (Option String) :=
  match p.tag with
  | none => some none
  | some (handle, suffix) => Yaml.tagName? f.handles handle suffix

/-- Number the anchor of a node before the node is read, so that an alias inside of it is known. -/
def Feed.announce (p : Properties) (f : Feed) : Feed :=
  match p.anchor with
  | some a => { f with anchors := (a, f.anchors.length) :: f.anchors }
  | none => f

/-- Keep a node that was announced as the `number`-th one. -/
def Feed.keep (p : Properties) (number : Nat) (n : Node) (f : Feed) : Feed :=
  if p.anchor.isSome then { f with anchored := (number, n) :: f.anchored } else f

def Feed.at (f : Feed) (ts : List Token) : Bool :=
  f.tokens.head?.all ts.contains

def Feed.skip (f : Feed) : Feed :=
  { f with tokens := f.tokens.tail }

/-- The empty scalar that an anchor or a tag alone stands for. -/
def bare? (p : Properties) (tag : Option String) (f : Feed) : Option (Node × Feed) :=
  if p.isEmpty then none else some (.scalar tag true "", f)

mutual

/-- The node at the front. Collections in block style, and sequences that are not indented further
than the mapping around them, are only admitted where the flags say so. -/
def node? : (fuel : Nat) → (block level : Bool) → Feed → Option (Node × Feed)
  | 0, _, _, _ => none
  | fuel + 1, block, level, f =>
    match f.tokens with
    | .reference a :: ts => (f.anchors.lookup a).map fun i => (.alias_ a i, { f with tokens := ts })
    | _ => do
      let (p, ts) := properties f.tokens
      let tag ← p.tagName? f
      let number := f.anchors.length
      let f := { f with tokens := ts }.announce p
      let (n, f) ←
        match ts with
        | .scalar plain text :: _ => some (.scalar tag plain text, f.skip)
        | .flowSequence :: _ => flowItems? fuel true [] f.skip
        | .flowMapping :: _ => flowPairs? fuel true [] f.skip
        | .blockSequence :: _ => if block then blockItems? fuel [] f.skip else bare? p tag f
        | .blockMapping :: _ => if block then blockPairs? fuel [] f.skip else bare? p tag f
        | .blockEntry :: _ => if level then levelItems? fuel [] f else bare? p tag f
        | _ => bare? p tag f
      return (n, f.keep p number n)

def blockItems? : (fuel : Nat) → List Node → Feed → Option (Node × Feed)
  | 0, _, _ => none
  | fuel + 1, items, f =>
    match f.tokens with
    | .blockEntry :: _ =>
      let f := f.skip
      if f.at [.blockEntry, .blockEnd] then blockItems? fuel (items ++ [empty]) f
      else do
        let (n, f) ← node? fuel true false f
        blockItems? fuel (items ++ [n]) f
    | .blockEnd :: _ => some (.sequence items, f.skip)
    | _ => none

/-- The entries of a sequence that is not indented further than its key. -/
def levelItems? : (fuel : Nat) → List Node → Feed → Option (Node × Feed)
  | 0, _, _ => none
  | fuel + 1, items, f =>
    match f.tokens with
    | .blockEntry :: _ =>
      let f := f.skip
      if f.at [.blockEntry, .key, .value, .blockEnd] then levelItems? fuel (items ++ [empty]) f
      else do
        let (n, f) ← node? fuel true false f
        levelItems? fuel (items ++ [n]) f
    | _ => some (.sequence items, f)

def blockPairs? : (fuel : Nat) → List (Node × Node) → Feed → Option (Node × Feed)
  | 0, _, _ => none
  | fuel + 1, pairs, f =>
    match f.tokens with
    | .key :: _ => do
      let f := f.skip
      let (k, f) ←
        if f.at [.key, .value, .blockEnd] then some (empty, f) else node? fuel true true f
      let (v, f) ← blockValue? fuel f
      blockPairs? fuel (pairs ++ [(k, v)]) f
    | .blockEnd :: _ => some (.mapping pairs, f.skip)
    | _ => none

def blockValue? : (fuel : Nat) → Feed → Option (Node × Feed)
  | 0, _ => none
  | fuel + 1, f =>
    match f.tokens with
    | .value :: _ =>
      let f := f.skip
      if f.at [.key, .value, .blockEnd] then some (empty, f) else node? fuel true true f
    | _ => some (empty, f)

/-- The entries of a sequence in brackets. A key makes a mapping of one entry; an empty one takes
the token behind it with it. -/
def flowItems? : (fuel : Nat) → (first : Bool) → List Node → Feed → Option (Node × Feed)
  | 0, _, _, _ => none
  | fuel + 1, first, items, f =>
    if f.at [.flowSequenceEnd] then some (.sequence items, f.skip)
    else if !first && !f.at [.flowEntry] then none
    else
      let f := if first then f else f.skip
      match f.tokens with
      | .flowSequenceEnd :: _ => some (.sequence items, f.skip)
      | .key :: _ => do
        let f := f.skip
        let (k, f) ←
          if f.at [.value, .flowEntry, .flowSequenceEnd] then some (empty, f.skip)
          else node? fuel false false f
        let (v, f) ← flowValue? fuel .flowSequenceEnd f
        flowItems? fuel false (items ++ [.mapping [(k, v)]]) f
      | _ => do
        let (n, f) ← node? fuel false false f
        flowItems? fuel false (items ++ [n]) f

def flowValue? : (fuel : Nat) → (stop : Token) → Feed → Option (Node × Feed)
  | 0, _, _ => none
  | fuel + 1, stop, f =>
    match f.tokens with
    | .value :: _ =>
      let f := f.skip
      if f.at [.flowEntry, stop] then some (empty, f) else node? fuel false false f
    | _ => some (empty, f)

def flowPairs? : (fuel : Nat) → (first : Bool) → List (Node × Node) → Feed → Option (Node × Feed)
  | 0, _, _, _ => none
  | fuel + 1, first, pairs, f =>
    if f.at [.flowMappingEnd] then some (.mapping pairs, f.skip)
    else if !first && !f.at [.flowEntry] then none
    else
      let f := if first then f else f.skip
      match f.tokens with
      | .flowMappingEnd :: _ => some (.mapping pairs, f.skip)
      | .key :: _ => do
        let f := f.skip
        let (k, f) ←
          if f.at [.value, .flowEntry, .flowMappingEnd] then some (empty, f)
          else node? fuel false false f
        let (v, f) ← flowValue? fuel .flowMappingEnd f
        flowPairs? fuel false (pairs ++ [(k, v)]) f
      | _ => do
        let (k, f) ← node? fuel false false f
        flowPairs? fuel false (pairs ++ [(k, empty)]) f

end

end Node

namespace Document

/-- What the handles of tags stand for behind some directives, and the tokens that follow. There is
one version, and no handle is declared twice. -/
def handles? : (versioned : Bool) → List (String × String) → List Token →
    Option (List (String × String) × List Token)
  | versioned, hs, .version major minor :: ts =>
    if versioned || major ≠ 1 || minor ≠ 1 then none else handles? true hs ts
  | versioned, hs, .tagHandle h start :: ts =>
    if (hs.lookup h).isSome then none else handles? versioned ((h, start) :: hs) ts
  | _, hs, ts => some (hs ++ usualHandles, ts)

/-- The node at the front as a document. The tokens right behind it must be readable too. -/
def content? (handles : List (String × String)) (ts : List Token) : Option Document := do
  let (n, f) ← Node.node? (4 * ts.length + 8) true false { tokens := ts, handles }
  if (f.tokens.take 3).contains .bad then none else some ⟨n, f.anchored⟩

/-- The first document of a text; `some none` if there is none. -/
def ofTokens? (ts : List Token) : Option (Option Document) := do
  let (handles, rest) ← handles? false [] ts
  match rest with
  | .documentStart :: rest =>
    match rest with
    | .documentStart :: _ | .documentEnd :: _ | .streamEnd :: _
    | .version .. :: _ | .tagHandle .. :: _ =>
      if (rest.take 3).contains .bad then none else return some ⟨Node.empty, []⟩
    | _ => return some (← content? handles rest)
  | _ =>
    if ts.head?.any Token.isDirective then none
    else if rest.head? = some .streamEnd then return none
    else return some (← content? handles rest)

/-- The first document of a text, in front of which the mark of the byte order may stand. -/
def ofText? (text : String) : Option (Option Document) :=
  ofTokens? (tokens (Text.stripStart (String.singleton (Char.ofNat 0xFEFF)) text))

end Document

end Deadwood.Yaml
