import Deadwood.Numeral
import Deadwood.Text.Segments

/-!
# Tokens of TOML documents

A document is read in two modes. Where an entry may start, a bracket opens a heading and everything
else is a key; behind an equals sign values are read, until a line ends outside of brackets. Keys
keep their written form here, see `Toml.keyParts?`.

## Main definitions

* `Toml.Token`: the tokens.
* `Toml.tokens?`: the tokens of a document, if it can be cut into tokens.
-/

namespace Deadwood.Toml

inductive Token where
  /-- The heading of a table, or of one more table in a list of tables. -/
  | heading (listed : Bool) (key : String)
  | key (written : String)
  | equal
  | comma
  | openList
  | closeList
  | openTable
  | closeTable
  | text (s : String)
  | integer (written : String)
  | float (written : String)
  | infinity (negative : Bool)
  | notNumber
  | bool (b : Bool)
  | date (year month day : Nat)
  | time (hour minute second : Nat)
  /-- How far a time zone is off; `none` if it is not. -/
  | zone (off : Option (Nat × Nat))
  deriving Repr, DecidableEq

def isSpace (c : Char) : Bool :=
  c = ' ' || c = '\t'

def isBare (c : Char) : Bool :=
  ('a' ≤ c && c ≤ 'z') || ('A' ≤ c && c ≤ 'Z') || c.isDigit || c = '_' || c = '-'

/-! ## Texts -/

def charOf (n : Nat) : Char :=
  if n.isValidChar then Char.ofNat n else Char.ofNat 0xFFFD

def shortEscape? (c : Char) : Option Char :=
  match c with
  | '"' => some '"'
  | 'n' => some '\n'
  | 'b' => some (Char.ofNat 8)
  | 'f' => some (Char.ofNat 12)
  | '/' => some '/'
  | 't' => some '\t'
  | 'r' => some '\r'
  | '\\' => some '\\'
  | _ => none

/-- The characters up to `stop`, with escapes resolved, and what follows `stop`. A backslash in
front of blanks removes all of them: they are dropped while `skipping`. Other control characters
than tabs and, if `newlines`, line ends must be escaped. -/
def basicText? (stop : List Char) (newlines : Bool) :
    (skipping : Bool) → List Char → Option (List Char × List Char)
  | _, [] => none
  | skipping, c :: cs =>
    let after (d : Char) (r : Option (List Char × List Char)) :=
      r.map fun (ds, rest) => (d :: ds, rest)
    if skipping && (isSpace c || c = '\n' || c = '\r') then basicText? stop newlines true cs
    else if stop.isPrefixOf (c :: cs) then some ([], (c :: cs).drop stop.length)
    else if c = '\\' then
      match cs with
      | 'u' :: a :: b :: d :: e :: rest =>
        match Numeral.natOfDigits? 16 [a, b, d, e] with
        | some n => after (charOf n) (basicText? stop newlines false rest)
        | none => none
      | 'U' :: a :: b :: d :: e :: f :: g :: h :: i :: rest =>
        match Numeral.natOfDigits? 16 [a, b, d, e, f, g, h, i] with
        | some n => after (charOf n) (basicText? stop newlines false rest)
        | none => none
      | d :: rest =>
        if isSpace d || d = '\n' || d = '\r' then basicText? stop newlines true rest
        else
          match shortEscape? d with
          | some x => after x (basicText? stop newlines false rest)
          | none => none
      | [] => none
    else if c.toNat < 0x20 && c ≠ '\t' && !(newlines && (c = '\n' || c = '\r')) then none
    else after c (basicText? stop newlines false cs)

/-- The characters up to `stop` as they are, and what follows `stop`. -/
def literalText? (stop : List Char) : List Char → Option (List Char × List Char)
  | [] => none
  | c :: cs =>
    if stop.isPrefixOf (c :: cs) then some ([], (c :: cs).drop stop.length)
    else (literalText? stop cs).map fun (ds, rest) => (c :: ds, rest)

def dropLineEnd : List Char → List Char
  | '\r' :: '\n' :: cs => cs
  | '\n' :: cs => cs
  | cs => cs

/-- A text behind its first quote; three quotes in a row open a text of several lines. -/
def quoted? : List Char → Option (List Char × List Char)
  | '"' :: '"' :: '"' :: cs => basicText? ['"', '"', '"'] true false (dropLineEnd cs)
  | '"' :: cs => basicText? ['"'] false false cs
  | '\'' :: '\'' :: '\'' :: cs => literalText? ['\'', '\'', '\''] (dropLineEnd cs)
  | '\'' :: cs => literalText? ['\''] cs
  | _ => none

/-! ## Keys -/

/-- The written form of a key up to the blanks behind it, and what follows. Quoted parts are kept
in quotes with their escapes resolved. -/
def key? : (fuel : Nat) → List Char → Option (List Char × List Char)
  | 0, _ => none
  | _, [] => some ([], [])
  | fuel + 1, c :: cs =>
    let after (ds : List Char) (rest : List Char) :=
      (key? fuel rest).map fun (es, r) => (ds ++ es, r)
    if c = '=' then some ([], c :: cs)
    else if c = '"' then
      match basicText? ['"'] true false cs with
      | some (ds, rest) => after ('"' :: ds ++ ['"']) rest
      | none => none
    else if c = '\'' then
      match literalText? ['\''] cs with
      | some (ds, rest) => after ('\'' :: ds ++ ['\'']) rest
      | none => none
    else if isSpace c then
      match cs.dropWhile isSpace with
      | '.' :: rest => after (' ' :: '.' :: rest.takeWhile isSpace) (rest.dropWhile isSpace)
      | rest => some ([], rest)
    else if c = '.' || isBare c then after [c] cs
    else none

/-- The parts of a key between dots. Blanks around a part do not belong to it. -/
def splitKey? : (fuel : Nat) → List Char → Option (List String)
  | 0, _ => none
  | fuel + 1, cs =>
    match cs.dropWhile isSpace with
    | [] => some []
    | c :: rest =>
      let after (part : List Char) (r : List Char) :=
        (splitKey? fuel r).map (String.ofList part :: ·)
      if isBare c then
        let part := (c :: rest).takeWhile isBare
        match (c :: rest).dropWhile isBare with
        | [] => after part []
        | d :: r =>
          if d = '.' then after part (d :: r)
          else if isSpace d then
            match r.dropWhile isSpace with
            | [] => after part []
            | e :: r' => if e = '.' then after part (e :: r') else none
          else none
      else if c = '\'' || c = '"' then
        match literalText? [c] rest with
        | some (part, r) => after part r
        | none => none
      else if c = '.' then
        match rest with
        | [] => none
        | d :: _ =>
          if isBare d || d = '\'' || d = '"' || d = ' ' then splitKey? fuel rest else none
      else none

def keyParts? (written : String) : Option (List String) :=
  match splitKey? (written.length + 1) written.toList with
  | some [] => none
  | parts => parts

/-- The name in a heading up to `]`, and what follows it. -/
def headingName? (cs : List Char) : Option (List Char × List Char) :=
  match cs.takeWhile (fun c => c ≠ ']' && c ≠ '['), cs.dropWhile (fun c => c ≠ ']' && c ≠ '[') with
  | [], _ => none
  | name, ']' :: rest => some (name, rest)
  | _, _ => none

/-! ## Numbers, dates and times -/

structure Seen where
  point : Bool := false
  exponent : Bool := false
  digit : Bool := false
  /-- The last character was the mark of the exponent. -/
  mark : Bool := false

def number? : Seen → List Char → Option (List Char × Seen × List Char)
  | seen, [] => if seen.digit then some ([], seen, []) else none
  | seen, c :: cs =>
    let after (r : Option (List Char × Seen × List Char)) :=
      r.map fun (ds, s, rest) => (c :: ds, s, rest)
    if c.isDigit then after (number? { seen with digit := true, mark := false } cs)
    else if c = '_' then after (number? { seen with mark := false } cs)
    else if c = '.' then
      if seen.point || !seen.digit || !cs.head?.any Char.isDigit then none
      else after (number? { seen with point := true, mark := false } cs)
    else if c = 'e' || c = 'E' then after (number? { seen with exponent := true, mark := true } cs)
    else if seen.mark && (c = '+' || c = '-') then after (number? { seen with mark := false } cs)
    else if seen.digit then some ([], seen, c :: cs)
    else none

def isDigitOf (mark c : Char) : Bool :=
  c = '_' ||
    match mark with
    | 'x' => (Numeral.digitValue? c).any (· < 16)
    | 'o' => (Numeral.digitValue? c).any (· < 8)
    | _ => (Numeral.digitValue? c).any (· < 2)

/-- Behind an optional sign: the words for infinity and for what is no number, or a number. -/
def signed? (sign : List Char) (cs : List Char) : Option (Token × List Char) :=
  match "inf".toList.isPrefixOf? cs, "nan".toList.isPrefixOf? cs with
  | some rest, _ => some (.infinity (sign = ['-']), rest)
  | _, some rest => some (.notNumber, rest)
  | none, none =>
    (number? {} cs).map fun (ds, seen, rest) =>
      let written := String.ofList (sign ++ ds)
      (if seen.point || seen.exponent then .float written else .integer written, rest)

/-- A number that starts with a digit. A zero in front of a letter announces a base. -/
def unsigned? : List Char → Option (Token × List Char)
  | '0' :: c :: cs =>
    if c = 'x' || c = 'o' || c = 'b' then
      match cs.takeWhile (isDigitOf c) with
      | [] => none
      | ds => some (.integer (String.ofList ('0' :: c :: ds)), cs.dropWhile (isDigitOf c))
    else if ('a' ≤ c && c ≤ 'z') || ('A' ≤ c && c ≤ 'Z') then none
    else signed? [] ('0' :: c :: cs)
  | cs => signed? [] cs

def twoDigits? : List Char → Option (Nat × List Char)
  | a :: b :: rest => (Numeral.natOfDigits? 10 [a, b]).map (·, rest)
  | _ => none

/-- A time of day `hh:mm:ss` with an optional fraction of a second. -/
def time? (cs : List Char) : Option (Token × List Char) := do
  let (hour, cs) ← twoDigits? cs
  let cs ← [':'].isPrefixOf? cs
  let (minute, cs) ← twoDigits? cs
  let cs ← [':'].isPrefixOf? cs
  let (second, cs) ← twoDigits? cs
  let cs ← match cs with
    | '.' :: d :: rest => if d.isDigit then some (rest.dropWhile Char.isDigit) else none
    | '.' :: [] => none
    | _ => some cs
  return (.time hour minute second, cs)

/-- A time of day behind a date, which may have a zone. -/
def zonedTime? (cs : List Char) : Option (List Token × List Char) := do
  let (t, cs) ← time? cs
  match cs with
  | 'Z' :: rest => some ([t, .zone none], rest)
  | c :: rest =>
    if c = '+' || c = '-' then do
      let (hours, rest) ← twoDigits? rest
      let rest ← [':'].isPrefixOf? rest
      let (minutes, rest) ← twoDigits? rest
      return ([t, .zone (some (hours, minutes))], rest)
    else some ([t], c :: rest)
  | [] => some ([t], [])

/-- A date `yyyy-mm-dd` and, behind `T` or a blank, a time of day. -/
def date? (cs : List Char) : Option (List Token × List Char) := do
  let (century, cs) ← twoDigits? cs
  let (year, cs) ← twoDigits? cs
  let cs ← ['-'].isPrefixOf? cs
  let (month, cs) ← twoDigits? cs
  let cs ← ['-'].isPrefixOf? cs
  let (day, cs) ← twoDigits? cs
  let d : Token := .date (century * 100 + year) month day
  let timed (cs : List Char) := (zonedTime? cs).map fun (ts, rest) => (d :: ts, rest)
  match cs with
  | 'T' :: rest => timed rest
  | ' ' :: a :: b :: rest =>
    if a.isDigit && b.isDigit then timed (a :: b :: rest) else some ([d], ' ' :: a :: b :: rest)
  | _ => some ([d], cs)

def digits? (cs : List Char) : Option (List Token × List Char) :=
  let one (r : Option (Token × List Char)) := r.map fun (t, rest) => ([t], rest)
  match cs with
  | a :: b :: ':' :: _ => if a.isDigit && b.isDigit then one (time? cs) else one (unsigned? cs)
  | a :: b :: c :: d :: '-' :: _ =>
    if a.isDigit && b.isDigit && c.isDigit && d.isDigit then date? cs else one (unsigned? cs)
  | _ => one (unsigned? cs)

/-! ## Documents -/

inductive Bracket where
  | list
  | table
  deriving Repr, DecidableEq

inductive Mode where
  /-- A key, a heading or the end of a table in braces. -/
  | entry
  | value
  deriving Repr, DecidableEq

def word? (cs : List Char) : Option (Token × List Char) :=
  match "true".toList.isPrefixOf? cs, "false".toList.isPrefixOf? cs with
  | some rest, _ => some (.bool true, rest)
  | _, some rest => some (.bool false, rest)
  | none, none =>
    match "inf".toList.isPrefixOf? cs, "nan".toList.isPrefixOf? cs with
    | some rest, _ => some (.infinity false, rest)
    | _, some rest => some (.notNumber, rest)
    | none, none => none

/-- The tokens of a text. Every call consumes a character or ends, so the length of the text is
enough `fuel`. -/
def scan : (fuel : Nat) → Mode → List Bracket → List Char → Option (List Token)
  | 0, _, _, _ => none
  | _, _, _, [] => some []
  | fuel + 1, .entry, open_, c :: cs =>
    let after (t : Token) (m : Mode) (b : List Bracket) (rest : List Char) :=
      (scan fuel m b rest).map (t :: ·)
    if c = '\x7d' then
      match open_ with
      | .table :: outer => after .closeTable .value outer cs
      | _ => none
    else if c = '[' then
      match cs with
      | '[' :: rest =>
        match headingName? rest with
        | some (name, ']' :: rest) => after (.heading true (String.ofList name)) .entry open_ rest
        | _ => none
      | _ =>
        match headingName? cs with
        | some (name, rest) => after (.heading false (String.ofList name)) .entry open_ rest
        | none => none
    else if c = '#' then scan fuel .entry open_ (cs.dropWhile (· ≠ '\n'))
    else if c = '=' then after .equal .value open_ cs
    else if isSpace c || c = '\n' || c = '\r' then scan fuel .entry open_ cs
    else
      match key? (cs.length + 2) (c :: cs) with
      | some (written, rest) => after (.key (String.ofList written)) .entry open_ rest
      | none => none
  | fuel + 1, .value, open_, c :: cs =>
    let after (t : Token) (m : Mode) (b : List Bracket) (rest : List Char) :=
      (scan fuel m b rest).map (t :: ·)
    let found (r : Option (Token × List Char)) :=
      match r with
      | some (t, rest) => after t .value open_ rest
      | none => none
    if c = '[' then after .openList .value (.list :: open_) cs
    else if c = ']' then
      match open_ with
      | .list :: outer => after .closeList .value outer cs
      | _ => none
    else if c = '\x7b' then after .openTable .entry (.table :: open_) cs
    else if c = '\x7d' then
      match open_ with
      | .table :: outer => after .closeTable .value outer cs
      | _ => none
    else if c = '#' then scan fuel .value open_ (cs.dropWhile (· ≠ '\n'))
    else if c = ',' then
      after .comma (if open_.head? = some .table then .entry else .value) open_ cs
    else if c = '\n' || c = '\r' then
      scan fuel (if open_.head? = some .list then .value else .entry) open_ cs
    else if isSpace c then scan fuel .value open_ cs
    else if c = '"' || c = '\'' then
      found ((quoted? (c :: cs)).map fun (ds, rest) => (.text (String.ofList ds), rest))
    else if c = '+' || c = '-' then found (signed? [c] cs)
    else if c.isDigit then
      match digits? (c :: cs) with
      | some (ts, rest) => (scan fuel .value open_ rest).map (ts ++ ·)
      | none => none
    else found (word? (c :: cs))

def tokens? (s : String) : Option (List Token) :=
  scan (s.length + 1) .entry [] s.toList

end Deadwood.Toml
