import Deadwood.Yaml.Style
import Deadwood.Yaml.Tag

/-!
# Cutting a text into tokens

Indentation is made visible as tokens: a collection in block style opens when its first entry stands
further to the right than the collection around it, and closes at the first token to the left of its
entries. A key without a mark is only recognised by the colon behind it, so tokens that may begin a
key are remembered as candidates, and the tokens of the key are put in front of them later.

## Main definitions

* `Yaml.Scan`: what is known while a text is cut into tokens.
* `Yaml.tokens`: the tokens of a text; `Token.bad` stands where a text cannot be cut further.
-/

namespace Deadwood.Yaml

structure Candidate where
  /-- A key must follow, since the token stands where only keys stand. -/
  required : Bool
  /-- The number of tokens in front of it. -/
  number : Nat
  place : Place

structure Scan where
  place : Place := {}
  rest : List Char
  tokens : Array Token := #[]
  /-- The column of the innermost collection in block style, and those around it. -/
  indent : Int := -1
  outer : List Int := []
  /-- Whether a key may begin here. -/
  keyAllowed : Bool := true
  /-- The candidate of each open bracket, the innermost first, and that of the block around
  them. -/
  keys : List (Option Candidate) := [none]
  /-- Whether a line break was passed at the end of the last token. -/
  crossed : Bool := false

namespace Scan

def flow (s : Scan) : Bool :=
  match s.keys with
  | _ :: _ :: _ => true
  | _ => false

def emit (t : Token) (s : Scan) : Scan :=
  { s with tokens := s.tokens.push t, crossed := false }

def insert (i : Nat) (t : Token) (s : Scan) : Scan :=
  { s with tokens := s.tokens.insertIdxIfInBounds i t }

def skip (n : Nat) (s : Scan) : Scan :=
  { s with place := s.place.right n, rest := s.rest.drop n }

def allow (b : Bool) (s : Scan) : Scan :=
  { s with keyAllowed := b }

def setKey (k : Option Candidate) (s : Scan) : Scan :=
  { s with keys := k :: s.keys.tail }

/-- Give up the candidate; this fails if it had to be a key. -/
def dropKey? (s : Scan) : Option Scan :=
  match s.keys with
  | some k :: _ => if k.required then none else some (s.setKey none)
  | _ => some s

/-- Remember the next token as a candidate, if a key may begin here. -/
def saveKey? (s : Scan) : Option Scan :=
  if s.keyAllowed then do
    let required := !s.flow && s.indent = s.place.column
    let s' ← s.dropKey?
    return s'.setKey (some ⟨required, s.tokens.size, s.place⟩)
  else some s

def unroll (column : Int) : (fuel : Nat) → Scan → Scan
  | 0, s => s
  | fuel + 1, s =>
    if s.flow || s.indent ≤ column then s
    else
      unroll column fuel
        { s.emit .blockEnd with indent := s.outer.headD (-1), outer := s.outer.tail }

def unrollTo (column : Int) (s : Scan) : Scan :=
  s.unroll column (s.outer.length + 1)

/-- How deeply collections may be nested, in brackets and by indentation. -/
def deepest : Nat := 10000

/-- Open a collection at a column, if it lies to the right of the one around it. Its token goes in
front of the `number`-th one, or to the end. -/
def roll? (column : Nat) (number : Option Nat) (t : Token) (s : Scan) : Option Scan :=
  if s.flow || (column : Int) ≤ s.indent then some s
  else if deepest ≤ s.outer.length then none
  else
    let s := { s with indent := column, outer := s.indent :: s.outer }
    match number with
    | some n => some (s.insert n t)
    | none => some (s.emit t)

/-- The candidate, if it can still be a key: keys end on the line they begin on and are not too
long. It fails if a key had to be there. -/
def liveKey? (s : Scan) : Option (Option Candidate) :=
  match s.keys with
  | some k :: _ =>
    if k.place.line < s.place.line || k.place.index + 1024 < s.place.index then
      if k.required then none else some none
    else some (some k)
  | _ => some none

/-- Skip blanks and line breaks. Tabs may not stand where a key may begin; the mark of the byte
order may start a line. -/
def toToken (flow : Bool) : (allowed : Bool) → Place → List Char → Bool × Place × List Char
  | allowed, p, [] => (allowed, p, [])
  | allowed, p, '\r' :: '\n' :: cs => toToken flow (allowed || !flow) (p.down 2) cs
  | allowed, p, c :: cs =>
    if c = ' ' || (c = '\t' && (flow || !allowed)) || (c.toNat = 0xFEFF && p.column = 0) then
      toToken flow allowed (p.right 1) cs
    else if isBreak c then toToken flow (allowed || !flow) (p.down 1) cs
    else (allowed, p, c :: cs)

def placeAfter : Place → List Char → Place
  | p, [] => p
  | p, '\r' :: '\n' :: cs => placeAfter (p.down 2) cs
  | p, c :: cs => placeAfter (if isBreak c then p.down 1 else p.right 1) cs

def commentReach : Nat := 512

/-- Pass the comment at the front, and further ones on the lines below it: in front of these, tabs
may stand everywhere. -/
def passComments : (fuel : Nat) → Scan → Scan
  | 0, s => s
  | fuel + 1, s =>
    let s := s.skip (lineOf s.rest).1.length
    let between := s.rest.takeWhile fun c => isBlank c || c = '\r' || c = '\n'
    let rest := s.rest.drop between.length
    if rest.head? = some '#' && between.length < commentReach then
      passComments fuel { s with place := placeAfter s.place between, rest }
    else s

def advance : (fuel : Nat) → Scan → Scan
  | 0, s => s
  | fuel + 1, s =>
    let (allowed, place, rest) := toToken s.flow s.keyAllowed s.place s.rest
    let s := { s with keyAllowed := allowed, place, rest }
    if rest.head? = some '#' then advance fuel (s.passComments fuel) else s

/-- Pass a comment on the line of the token that was just read. Behind the mark of an entry it
belongs to what follows. -/
def passLineComment (s : Scan) : Scan :=
  let blanks := s.rest.takeWhile isBlank
  let rest := s.rest.drop blanks.length
  let own := match s.tokens.back? with
    | some .blockEntry | some .documentStart | some .documentEnd => false
    | some t => !t.isDirective
    | none => false
  if own && !s.crossed && rest.head? = some '#' && blanks.length < commentReach then
    s.skip (blanks.length + (lineOf rest).1.length)
  else s

def scalar (plain : Bool) (r : Scanned) (s : Scan) : Scan :=
  let s := { s with place := r.place, rest := r.rest }.emit (.scalar plain (String.ofList r.text))
  { s with crossed := r.crossed }

/-- Take over a token that was read on its line, in front of the rest. -/
def take (t : Token) (rest : List Char) (s : Scan) : Scan :=
  (s.skip (s.rest.length - rest.length)).emit t

def passBreak (s : Scan) : Scan :=
  let (_, place, rest) := lineBreak s.place s.rest
  { s with place, rest }

def value? (s : Scan) : Option Scan := do
  match ← s.liveKey? with
  | some k =>
    let s ← (s.insert k.number .key).roll? k.place.column (some k.number) .blockMapping
    return ((s.setKey none).allow false).skip 1 |>.emit .value
  | none =>
    let s := s.setKey none
    if s.flow then return (s.allow false).skip 1 |>.emit .value
    else if !s.keyAllowed then none
    else
      let s ← s.roll? s.place.column none .blockMapping
      return (s.allow true).skip 1 |>.emit .value

/-- A dash or a question mark in block style: the mark of an entry or of a key. -/
def mark? (t : Token) (collection : Token) (s : Scan) : Option Scan := do
  if !s.flow && !s.keyAllowed then none
  let s ← (← s.roll? s.place.column none collection).dropKey?
  return ((s.allow (t = .blockEntry || !s.flow)).skip 1).emit t

def name? (t : String → Token) (s : Scan) : Option Scan := do
  let s ← s.saveKey?
  let name := s.rest.tail.takeWhile isNameChar
  let rest := s.rest.tail.drop name.length
  if name.isEmpty || !(endsWord rest || rest.head?.any ("?:,]\x7d%@`".toList.contains ·)) then none
  else return ((s.allow false).skip (name.length + 1)).emit (t (String.ofList name))

/-- Whether a plain scalar may begin with the first of the characters. -/
def startsPlain (flow : Bool) : List Char → Bool
  | [] => false
  | c :: cs =>
    !(isBlank c || isBreak c || "-?:,[]\x7b\x7d#&*!|>'\"%@`".toList.contains c)
      || (c = '-' && !cs.head?.any isBlank)
      || (!flow && (c = '?' || c = ':') && !endsWord cs)

def token? (c : Char) (cs : List Char) (s : Scan) : Option Scan := do
  if s.place.column = 0 && c = '%' then
    let s ← (s.unrollTo (-1)).dropKey?
    let (t, rest) ← directive? cs
    return ((s.allow false).take t rest).passBreak
  else if atDocumentMark s.place (c :: cs) then
    let s ← (s.unrollTo (-1)).dropKey?
    return ((s.allow false).skip 3).emit (if c = '-' then .documentStart else .documentEnd)
  else if c = '[' || c = '\x7b' then
    let s ← s.saveKey?
    if deepest < s.keys.length then none
    let s := { s with keys := none :: s.keys }
    return ((s.allow true).skip 1).emit (if c = '[' then .flowSequence else .flowMapping)
  else if c = ']' || c = '\x7d' then
    let s ← s.dropKey?
    let s := if s.flow then { s with keys := s.keys.tail } else s
    return ((s.allow false).skip 1).emit (if c = ']' then .flowSequenceEnd else .flowMappingEnd)
  else if c = ',' then
    let s ← s.dropKey?
    return ((s.allow true).skip 1).emit .flowEntry
  else if c = '-' && endsWord cs then s.mark? .blockEntry .blockSequence
  else if c = '?' && (s.flow || endsWord cs) then s.mark? .key .blockMapping
  else if c = ':' && (s.flow || endsWord cs) then s.value?
  else if c = '*' then s.name? .reference
  else if c = '&' then s.name? .anchor
  else if c = '!' then
    let s ← s.saveKey?
    let (handle, suffix, rest) ← tag? cs
    return (s.allow false).take (.tag handle suffix) rest
  else if (c = '|' || c = '>') && !s.flow then
    let s ← s.dropKey?
    let r ← block? (c = '|') s.indent (s.place.right 1) cs
    return (s.allow true).scalar false r
  else if c = '\'' || c = '"' then
    let s ← s.saveKey?
    let r ← quoted? (c = '\'') (cs.length + 1) (s.place.right 1) cs
    return (s.allow false).scalar false r
  else if startsPlain s.flow (c :: cs) then
    let s ← s.saveKey?
    let r ← plain? s.flow (s.indent + 1) (cs.length + 2) {} s.place (c :: cs)
    return (s.allow r.crossed).scalar true r
  else none

/-- Read all tokens. Every one takes a character, so the length of the text is enough `fuel`. -/
def run : (fuel : Nat) → Scan → Scan
  | 0, s => s.emit .bad
  | fuel + 1, s =>
    let s := s.advance (fuel + 1)
    let s := s.unrollTo s.place.column
    match s.rest with
    | [] =>
      match (s.unrollTo (-1)).dropKey? with
      | some s => s.emit .streamEnd
      | none => s.emit .bad
    | c :: cs =>
      match s.token? c cs with
      | some s => run fuel s.passLineComment
      | none => s.emit .bad

end Scan

def tokens (text : String) : List Token :=
  if text.toList.all isAllowed then
    (Scan.run (text.length + 1) { rest := text.toList }).tokens.toList
  else [.bad]

end Deadwood.Yaml
