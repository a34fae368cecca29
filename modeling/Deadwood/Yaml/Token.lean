import Deadwood.Numeral
import Deadwood.Text.Segments

/-!
# Tokens of YAML documents

The tokens that a document is cut into, and the characters and places that matter for cutting it.

## Main definitions

* `Yaml.Token`: the tokens.
* `Yaml.isAllowed`, `Yaml.isBlank`, `Yaml.isBreak`: classes of characters.
* `Yaml.Place`: a place in a text.
-/

namespace Deadwood.Yaml

inductive Token where
  | streamEnd
  /-- The version that the text claims to be written in. -/
  | version (major minor : Nat)
  /-- What the handle of a tag stands for. -/
  | tagHandle (handle start : String)
  | documentStart
  | documentEnd
  | blockSequence
  | blockMapping
  | blockEnd
  | flowSequence
  | flowSequenceEnd
  | flowMapping
  | flowMappingEnd
  | blockEntry
  | flowEntry
  | key
  | value
  | reference (name : String)
  | anchor (name : String)
  | tag (handle suffix : String)
  | scalar (plain : Bool) (text : String)
  /-- The text goes on, but not with a token. -/
  | bad
  deriving Repr, DecidableEq, Inhabited

/-- Whether a token stands in front of the start of a document. -/
def Token.isDirective : Token → Bool
  | .version .. => true
  | .tagHandle .. => true
  | _ => false

/-! ## Characters -/

def isAllowed (c : Char) : Bool :=
  let n := c.toNat
  n = 0x09 || n = 0x0A || n = 0x0D || (0x20 ≤ n && n ≤ 0x7E) || n = 0x85
    || (0xA0 ≤ n && n ≤ 0xFFFD) || 0x10000 ≤ n

def isBlank (c : Char) : Bool :=
  c = ' ' || c = '\t'

def isBreak (c : Char) : Bool :=
  c = '\r' || c = '\n' || c.toNat = 0x85 || c.toNat = 0x2028 || c.toNat = 0x2029

/-- Whether a blank, a line break or the end of the text comes next. -/
def endsWord : List Char → Bool
  | [] => true
  | c :: _ => isBlank c || isBreak c

def breakChar (c : Char) : Char :=
  if c.toNat = 0x2028 || c.toNat = 0x2029 then c else '\n'

def isNameChar (c : Char) : Bool :=
  c.isAlphanum || c = '_' || c = '-'

/-! ## Places -/

structure Place where
  index : Nat := 0
  line : Nat := 0
  column : Nat := 0
  deriving Inhabited

def Place.right (p : Place) (n : Nat) : Place :=
  { p with index := p.index + n, column := p.column + n }

/-- At the start of the next line, behind a break of `n` characters. -/
def Place.down (p : Place) (n : Nat) : Place :=
  { index := p.index + n, line := p.line + 1, column := 0 }

/-- Whether a line starts with the mark of a document's start or end. -/
def atDocumentMark (p : Place) (cs : List Char) : Bool :=
  p.column = 0 &&
    match cs with
    | '-' :: '-' :: '-' :: rest => endsWord rest
    | '.' :: '.' :: '.' :: rest => endsWord rest
    | _ => false

end Deadwood.Yaml
