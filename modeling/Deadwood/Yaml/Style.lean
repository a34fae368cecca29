import Deadwood.Yaml.Token

/-!
# Styles of scalars

A scalar is written plainly, in quotes of two kinds, or as a block of lines.

## Main definitions

* `Yaml.plain?`, `Yaml.quoted?`, `Yaml.block?`: the styles of scalars.
-/

namespace Deadwood.Yaml

/-! ## Gaps inside of scalars -/

structure Gap where
  /-- The blanks, if there was no break. -/
  blanks : List Char := []
  /-- Whether a line break was crossed. -/
  crossed : Bool := false
  /-- The first break, unless it was escaped. -/
  first : Option Char := none
  /-- The breaks that follow. -/
  more : List Char := []

/-- What a gap stands for: a single line break becomes a blank, of several ones the first is
lost. -/
def Gap.folded (g : Gap) : List Char :=
  if !g.crossed then g.blanks
  else
    match g.first with
    | none => g.more
    | some c => if c = '\n' then (if g.more.isEmpty then [' '] else g.more) else c :: g.more

/-- Read a gap. Left of the column `indent` no tab may stand at the start of a line. -/
def gap? (indent : Int) : Gap → Place → List Char → Option (Gap × Place × List Char)
  | g, p, [] => some (g, p, [])
  | g, p, '\r' :: '\n' :: cs =>
    if g.crossed then gap? indent { g with more := g.more ++ ['\n'] } (p.down 2) cs
    else gap? indent { g with crossed := true, first := some '\n' } (p.down 2) cs
  | g, p, c :: cs =>
    if isBlank c then
      if g.crossed && c = '\t' && (p.column : Int) < indent then none
      else if g.crossed then gap? indent g (p.right 1) cs
      else gap? indent { g with blanks := g.blanks ++ [c] } (p.right 1) cs
    else if isBreak c then
      if g.crossed then gap? indent { g with more := g.more ++ [breakChar c] } (p.down 1) cs
      else gap? indent { g with crossed := true, first := some (breakChar c) } (p.down 1) cs
    else some (g, p, c :: cs)

/-! ## Plain scalars -/

def plainWord (flow : Bool) : List Char → List Char × List Char
  | [] => ([], [])
  | c :: cs =>
    if isBlank c || isBreak c || (c = ':' && endsWord cs)
        || (flow && ",?[]\x7b\x7d".toList.contains c) then
      ([], c :: cs)
    else
      let (w, rest) := plainWord flow cs
      (c :: w, rest)

/-- What a scalar was read as: its characters, whether its last line was left, and what
follows. -/
structure Scanned where
  text : List Char
  crossed : Bool
  place : Place
  rest : List Char

/-- A plain scalar. It ends at a comment, at the mark of a document, in front of a colon, and in
block style at a line that is not indented by `indent`. -/
def plain? (flow : Bool) (indent : Int) : (fuel : Nat) → Gap → Place → List Char → Option Scanned
  | 0, _, _, _ => none
  | fuel + 1, before, p, cs =>
    let stopped : Scanned := ⟨[], before.crossed, p, cs⟩
    if atDocumentMark p cs || cs.head? = some '#' then some stopped
    else
      let (w, rest) := plainWord flow cs
      let p := p.right w.length
      let word := if w.isEmpty then [] else before.folded ++ w
      if !(rest.head?.any fun c => isBlank c || isBreak c) then
        some ⟨word, if w.isEmpty then before.crossed else false, p, rest⟩
      else do
        let start : Gap := if w.isEmpty then before else {}
        let (g, p, rest) ← gap? indent start p rest
        if !flow && (p.column : Int) < indent then some ⟨word, g.crossed, p, rest⟩
        else
          let s ← plain? flow indent fuel g p rest
          some { s with text := word ++ s.text }

/-! ## Quoted scalars -/

def shortEscape? (c : Char) : Option Char :=
  match c with
  | '0' => some (Char.ofNat 0)
  | 'a' => some (Char.ofNat 7)
  | 'b' => some (Char.ofNat 8)
  | 't' => some '\t'
  | '\t' => some '\t'
  | 'n' => some '\n'
  | 'v' => some (Char.ofNat 11)
  | 'f' => some (Char.ofNat 12)
  | 'r' => some '\r'
  | 'e' => some (Char.ofNat 27)
  | ' ' => some ' '
  | '"' => some '"'
  | '\'' => some '\''
  | '\\' => some '\\'
  | 'N' => some (Char.ofNat 0x85)
  | '_' => some (Char.ofNat 0xA0)
  | 'L' => some (Char.ofNat 0x2028)
  | 'P' => some (Char.ofNat 0x2029)
  | _ => none

def escapeWidth? (c : Char) : Option Nat :=
  match c with
  | 'x' => some 2
  | 'u' => some 4
  | 'U' => some 8
  | _ => none

/-- The character that an escape behind its backslash stands for, how long it is, and what
follows. -/
def escape? : List Char → Option (Char × Nat × List Char)
  | [] => none
  | c :: cs =>
    match escapeWidth? c with
    | some n => do
      if cs.length < n then none
      let code ← Numeral.natOfDigits? 16 (cs.take n)
      if code.isValidChar then some (Char.ofNat code, n + 2, cs.drop n) else none
    | none => (shortEscape? c).map fun d => (d, 2, cs)

/-- A scalar in quotes, behind the first one. -/
def quoted? (single : Bool) : (fuel : Nat) → Place → List Char → Option Scanned
  | 0, _, _ => none
  | _, _, [] => none
  | fuel + 1, p, c :: cs =>
    let after (ds : List Char) (r : Option Scanned) :=
      r.map fun s => { s with text := ds ++ s.text }
    if atDocumentMark p (c :: cs) then none
    else if single && c = '\'' then
      match cs with
      | '\'' :: rest => after ['\''] (quoted? single fuel (p.right 2) rest)
      | _ => some ⟨[], false, p.right 1, cs⟩
    else if !single && c = '"' then some ⟨[], false, p.right 1, cs⟩
    else if !single && c = '\\' then
      if cs.head?.any isBreak then do
        -- An escaped line break disappears with the blanks behind it.
        let (p, rest) := match cs with
          | '\r' :: '\n' :: rest => (p.down 3, rest)
          | _ => (p.down 2, cs.tail)
        let (g, p, rest) ← gap? (-1) { crossed := true } p rest
        after g.folded (quoted? single fuel p rest)
      else
        match escape? cs with
        | some (d, n, rest) => after [d] (quoted? single fuel (p.right n) rest)
        | none => none
    else if isBlank c || isBreak c then do
      let (g, p, rest) ← gap? (-1) {} p (c :: cs)
      after g.folded (quoted? single fuel p rest)
    else after [c] (quoted? single fuel (p.right 1) cs)

/-! ## Block scalars -/

/-- What becomes of the line breaks at the end of a block scalar. -/
inductive Chomp where
  | clip
  | strip
  | keep
  deriving DecidableEq

/-- The marks behind the bar of a block scalar: chomping and indentation in either order. -/
def blockMarks? : List Char → Option (Chomp × Option Nat × Nat × List Char)
  | c :: d :: cs =>
    let chomp? (c : Char) : Option Chomp :=
      if c = '+' then some .keep else if c = '-' then some .strip else none
    let digit? (c : Char) : Option Nat := if c.isDigit then some (c.toNat - '0'.toNat) else none
    match chomp? c, digit? c with
    | some k, _ =>
      match digit? d with
      | some n => if n = 0 then none else some (k, some n, 2, cs)
      | none => some (k, none, 1, d :: cs)
    | none, some n =>
      if n = 0 then none
      else
        match chomp? d with
        | some k => some (k, some n, 2, cs)
        | none => some (.clip, some n, 1, d :: cs)
    | none, none => some (.clip, none, 0, c :: d :: cs)
  | [c] =>
    if c = '+' then some (.keep, none, 1, [])
    else if c = '-' then some (.strip, none, 1, [])
    else if c.isDigit then
      (if c = '0' then none else some (.clip, some (c.toNat - '0'.toNat), 1, []))
    else some (.clip, none, 0, [c])
  | [] => some (.clip, none, 0, [])

/-- Read the indentation of a line and the empty lines in front of it: the breaks of the empty
lines, the widest indentation, and what follows. Without a known indentation all blanks are
skipped. -/
def indentation? (indent : Option Nat) : (widest : Nat) → Place → List Char →
    Option (List Char × Nat × Place × List Char)
  | widest, p, [] => some ([], max widest p.column, p, [])
  | widest, p, '\r' :: '\n' :: cs =>
    (indentation? indent (max widest p.column) (p.down 2) cs).map
      fun (bs, w, r) => ('\n' :: bs, w, r)
  | widest, p, c :: cs =>
    let inside := indent.all (p.column < ·)
    if inside && c = ' ' then indentation? indent widest (p.right 1) cs
    else if inside && c = '\t' then none
    else if isBreak c then
      (indentation? indent (max widest p.column) (p.down 1) cs).map
        fun (bs, w, r) => (breakChar c :: bs, w, r)
    else some ([], max widest p.column, p, c :: cs)

def lineOf (cs : List Char) : List Char × List Char :=
  (cs.takeWhile (!isBreak ·), cs.dropWhile (!isBreak ·))

def lineBreak (p : Place) : List Char → List Char × Place × List Char
  | '\r' :: '\n' :: cs => (['\n'], p.down 2, cs)
  | c :: cs => if isBreak c then ([breakChar c], p.down 1, cs) else ([], p, c :: cs)
  | [] => ([], p, [])

/-- The lines of a block scalar with a known indentation. `before` is the break that ended the last
line, `empty` the breaks of the empty lines behind it, and `blank` says that the last line started
with a blank, which keeps its break from being folded. -/
def blockLines? (literal : Bool) (chomp : Chomp) (indent : Nat) : (fuel : Nat) →
    (before empty : List Char) → (blank : Bool) → Place → List Char → Option Scanned
  | 0, _, _, _, _, _ => none
  | fuel + 1, before, empty, blank, p, cs =>
    if p.column = indent && !cs.isEmpty then do
      let starts := cs.head?.any isBlank
      let joint :=
        if !literal && !blank && !starts && before = ['\n'] then
          (if empty.isEmpty then [' '] else []) ++ empty
        else before ++ empty
      let (line, rest) := lineOf cs
      let (br, p, rest) := lineBreak (p.right line.length) rest
      let (empty, _, p, rest) ← indentation? (some indent) 0 p rest
      let s ← blockLines? literal chomp indent fuel br empty starts p rest
      some { s with text := joint ++ line ++ s.text }
    else
      let tail := (if chomp = .strip then [] else before) ++ (if chomp = .keep then empty else [])
      some ⟨tail, true, p, cs⟩

/-- A block scalar behind its bar, inside of a collection with the indentation `parent`. -/
def block? (literal : Bool) (parent : Int) (p : Place) (cs : List Char) : Option Scanned := do
  let (chomp, given, n, rest) ← blockMarks? cs
  let p := p.right n
  let blanks := rest.takeWhile isBlank
  let p := p.right blanks.length
  let rest := rest.dropWhile isBlank
  let (comment, rest) := if rest.head? = some '#' then lineOf rest else ([], rest)
  let p := p.right comment.length
  if !(rest.head?.all isBreak) then none
  let (_, p, rest) := lineBreak p rest
  match given with
  | some n =>
    let indent := if 0 ≤ parent then parent.toNat + n else n
    let (empty, _, p, rest) ← indentation? (some indent) 0 p rest
    blockLines? literal chomp indent (rest.length + 2) [] empty false p rest
  | none =>
    let (empty, widest, p, rest) ← indentation? none 0 p rest
    let indent := max (max widest (parent + 1).toNat) 1
    blockLines? literal chomp indent (rest.length + 2) [] empty false p rest

end Deadwood.Yaml
