import Deadwood.Numeral
import Deadwood.Shell.Reply

/-!
# Formatted texts

A template holds text, escapes and directives. Each directive takes an argument; a template is used
again until no arguments are left.

## Main definitions

* `Shell.unescape`: a text in which escapes stand for bytes.
* `Shell.Directive`, `Shell.Directive.fill`: directives and what they write.
* `Shell.format`: a template with its arguments.
-/

namespace Deadwood.Shell

/-! ## Escapes -/

def isOctal (b : UInt8) : Bool :=
  48 ≤ b && b ≤ 55

def letterEscape? (b : UInt8) : Option UInt8 :=
  match Char.ofNat b.toNat with
  | 'a' => some 7
  | 'b' => some 8
  | 't' => some 9
  | 'n' => some 10
  | 'v' => some 11
  | 'f' => some 12
  | 'r' => some 13
  | '\\' => some 92
  | _ => none

/-- The byte of the escape behind a backslash, and what follows: a letter, or up to three octal
digits. A backslash in front of anything else stands for itself. -/
def escapeByte (bs : Bytes) : UInt8 × Bytes :=
  match bs with
  | [] => (92, [])
  | b :: rest =>
    match letterEscape? b with
    | some c => (c, rest)
    | none =>
      if isOctal b then
        let ds := (bs.take 3).takeWhile isOctal
        (UInt8.ofNat (ds.foldl (fun v d => 8 * v + (d.toNat - 48)) 0), bs.drop ds.length)
      else (92, bs)

/-- A text in which escapes stand for bytes, and whether it goes on behind it: the letter `c` stops
everything. Octal digits may stand behind a zero. -/
def unescape : (fuel : Nat) → Bytes → Bytes × Bool
  | 0, _ => ([], true)
  | _, [] => ([], true)
  | fuel + 1, b :: bs =>
    if b ≠ 92 then
      let (rest, more) := unescape fuel bs
      (b :: rest, more)
    else if bs.head? = some 99 then ([], false)
    else
      let digits := match bs with
        | 48 :: d :: rest => if isOctal d then d :: rest else bs
        | _ => bs
      let (c, after) := escapeByte digits
      let (rest, more) := unescape fuel after
      (c :: rest, more)

def unescaped (bs : Bytes) : Bytes × Bool :=
  unescape (bs.length + 1) bs

/-- Write arguments with blanks between them and a line end, which a first argument can turn off. -/
def echo (args : List Bytes) : Bytes :=
  let (ended, args) := if args.head? = some [45, 110] then (false, args.tail) else (true, args)
  let rec write : List Bytes → Bytes
    | [] => if ended then [10] else []
    | a :: rest =>
      let (bs, more) := unescaped a
      if !more then bs
      else if rest.isEmpty then bs ++ write rest
      else bs ++ 32 :: write rest
  write args

/-! ## Directives -/

structure Directive where
  left : Bool := false
  plus : Bool := false
  space : Bool := false
  other : Bool := false
  zero : Bool := false
  width : Nat := 0
  precision : Option Nat := none
  letter : Char

namespace Directive

def upper (s : String) : String :=
  String.ofList (s.toList.map Char.toUpper)

def pad (d : Directive) (bs : Bytes) : Bytes :=
  let fill := List.replicate (d.width - bs.length) 32
  if d.left then bs ++ fill else fill ++ bs

/-- A number from its sign and digits; zeros may stand between them. -/
def padNumber (d : Directive) (zeros : Bool) (sign digits : String) : Bytes :=
  if zeros && d.zero && !d.left then
    Text.utf8 (sign ++ Text.repeated (d.width - sign.length - digits.length) "0" ++ digits)
  else d.pad (Text.utf8 (sign ++ digits))

def sign (d : Directive) (negative : Bool) : String :=
  if negative then "-" else if d.plus then "+" else if d.space then " " else ""

/-- The digits of a number, with as many as the precision asks for. -/
def digits (d : Directive) (base n : Nat) : String :=
  let ds := if n = 0 && d.precision = some 0 then "" else String.ofList (Nat.toDigits base n)
  Text.repeated (d.precision.getD 1 - ds.length) "0" ++ ds

def fillInt (d : Directive) (i : Int) : Bytes :=
  d.padNumber d.precision.isNone (d.sign (i < 0)) (d.digits 10 i.natAbs)

def fillNat (d : Directive) (n : Nat) : Bytes :=
  match d.letter with
  | 'o' =>
    let ds := d.digits 8 n
    let ds := if d.other && !Text.startsWith "0" ds then "0" ++ ds else ds
    d.padNumber d.precision.isNone "" ds
  | 'x' => d.padNumber d.precision.isNone (if d.other && n ≠ 0 then "0x" else "") (d.digits 16 n)
  | 'X' =>
    d.padNumber d.precision.isNone (if d.other && n ≠ 0 then "0X" else "")
      (upper (d.digits 16 n))
  | _ => d.padNumber d.precision.isNone "" (d.digits 10 n)

def fillBytes (d : Directive) (bs : Bytes) : Bytes :=
  d.pad (match d.precision with
    | some n => bs.take n
    | none => bs)

/-! ## Numbers with a point -/

/-- A number rounded to a count of significant digits, and the position of the first one. -/
def significant (b : Binary) (count : Nat) : Nat × Int :=
  if b.mantissa = 0 then (0, 0)
  else
    let r := Binary.scaled b.mantissa b.exponent
    let top := r.magnitude
    let v := r.timesTen ((count : Int) - 1 - top)
    let c := v.num / v.den
    let twice := 2 * (v.num - c * v.den)
    let c := if twice < v.den || (twice = v.den && c % 2 = 0) then c else c + 1
    if Nat.pow 10 count ≤ c then (c / 10, top + 1) else (c, top)

/-- Drop zeros at the end of places, and a point with nothing behind it. -/
def dropZeros (s : String) : String :=
  if s.toList.contains '.' then
    let cs := s.toList.reverse.dropWhile (· = '0')
    String.ofList ((if cs.head? = some '.' then cs.tail else cs).reverse)
  else s

def exponential (d : Directive) (b : Binary) (places : Nat) (trim : Bool) : String :=
  let (c, top) := significant b (places + 1)
  let ds := Decimal.padded (places + 1) c
  let body := String.ofList (ds.toList.take 1)
    ++ (if places = 0 then (if d.other then "." else "")
        else "." ++ String.ofList (ds.toList.drop 1))
  (if trim then dropZeros body else body) ++ "e" ++ (if top < 0 then "-" else "+")
    ++ Decimal.padded 2 top.natAbs

def magnitude (d : Directive) (b : Binary) (x : Float) : String :=
  let places := d.precision.getD 6
  let plain (n : Nat) := fixedText n x.abs ++ if n = 0 && d.other then "." else ""
  match d.letter.toLower with
  | 'e' => exponential d b places false
  | 'f' => plain places
  | _ =>
    let count := max 1 places
    let top := (significant b count).2
    if -4 ≤ top && top < (count : Int) then
      let s := plain ((count : Int) - 1 - top).toNat
      if d.other then s else dropZeros s
    else exponential d b (count - 1) (!d.other)

def fillFloat (d : Directive) (x : Float) : Bytes :=
  match Binary.ofFloat? x with
  | some b =>
    let s := d.magnitude b x
    d.padNumber true (d.sign b.negative) (if d.letter.isUpper then upper s else s)
  | none =>
    let s := if x.isNaN then "nan" else "inf"
    d.padNumber false (d.sign (x < 0)) (if d.letter.isUpper then upper s else s)

end Directive

/-! ## Arguments as numbers -/

inductive Fit where
  | whole | partly | nothing | tooLarge

def isSpaceChar (c : Char) : Bool :=
  c = ' ' || (9 ≤ c.toNat && c.toNat ≤ 13)

/-- The integer at the start of a text, in the base that it announces. -/
def leadingInt (s : String) : Int × Fit :=
  let cs := s.toList.dropWhile isSpaceChar
  let (negative, cs) := Numeral.unsigned cs
  let hex := match cs with
    | '0' :: x :: d :: _ => (x = 'x' || x = 'X') && (Numeral.digitValue? d).any (· < 16)
    | _ => false
  let base := if hex then 16 else if cs.head? = some '0' then 8 else 10
  let cs := if hex then cs.drop 2 else cs
  let ds := cs.takeWhile fun c => (Numeral.digitValue? c).any (· < base)
  let n := (Numeral.natOfDigits? base ds).getD 0
  (if negative then -(n : Int) else n,
    if ds.isEmpty then (if s = "" then .whole else .nothing)
    else if ds.length = cs.length then .whole else .partly)

def leadingFloat (s : String) : Float × Fit :=
  let cs := s.toList.dropWhile isSpaceChar
  let ends := (List.range (cs.length + 1)).reverse
  let read (n : Nat) : Option Float :=
    let start := cs.take n
    if start.contains '_' then none else (Numeral.float (String.ofList start)).toOption
  match ends.find? fun n => (read n).isSome with
  | some n => ((read n).getD 0, if n = cs.length then .whole else .partly)
  | none => (0, if s = "" then .whole else .nothing)

/-! ## Templates -/

/-- What was written so far, and the arguments that are left. -/
structure Filling where
  out : Array UInt8 := #[]
  complaints : List String := []
  args : List Bytes
  /-- Whether nothing more is written. -/
  stopped : Bool := false

abbrev Fill := StateT Filling (Except (Filling × String))

def emit (bs : Bytes) : Fill Unit :=
  modify fun f => { f with out := f.out ++ bs.toArray }

def argument : Fill (Option Bytes) := do
  let f ← get
  set { f with args := f.args.tail }
  return f.args.head?

/-- Note that an argument is no number of the wanted kind. -/
def checkFit (arg : String) (fit : Fit) : Fill Unit :=
  let complain (s : String) : Fill Unit :=
    modify fun f => { f with complaints := f.complaints ++ [arg ++ ": " ++ s] }
  match fit with
  | .whole => return
  | .partly => complain "not completely converted"
  | .nothing => complain "expected numeric value"
  | .tooLarge => complain "Numerical result out of range"

/-- The next argument as an integer; behind a quote stands a character for its number. -/
def intArgument (signed : Bool) : Fill Int := do
  match ← argument with
  | none => return 0
  | some bs =>
    match bs with
    | 34 :: rest => return (rest.headD 0).toNat
    | 39 :: rest => return (rest.headD 0).toNat
    | _ =>
      let s := textOf bs
      let (i, fit) := leadingInt s
      let bound : Int := Word.bound
      let count : Int := Word.count
      let (low, high) : Int × Int :=
        if signed then (-bound, bound - 1) else (1 - count, count - 1)
      let fits := decide (low ≤ i ∧ i ≤ high)
      checkFit s (match fit with
        | .whole => if fits then .whole else .tooLarge
        | fit => fit)
      if signed then return max low (min high i)
      else return (if fits then i else count - 1) % count

def floatArgument : Fill Float := do
  match ← argument with
  | none => return 0
  | some bs =>
    match bs with
    | 34 :: rest => return (rest.headD 0).toNat.toFloat
    | 39 :: rest => return (rest.headD 0).toNat.toFloat
    | _ =>
      let (x, fit) := leadingFloat (textOf bs)
      checkFit (textOf bs) fit
      return x

/-- A width or precision: digits, or a star for an argument. -/
def size (bs : Bytes) : Fill (Option Int × Bytes) := do
  match bs with
  | 42 :: rest => return (some (← intArgument true), rest)
  | _ =>
    let ds := bs.takeWhile fun b => 48 ≤ b && b ≤ 57
    let n : Nat := ds.foldl (fun v d => 10 * v + (d.toNat - 48)) 0
    return (if ds.isEmpty then none else some (n : Int), bs.drop ds.length)

def Directive.fill (d : Directive) (whole : Bytes) : Fill Unit := do
  match d.letter with
  | 'd' | 'i' => emit (d.fillInt (← intArgument true))
  | 'o' | 'u' | 'x' | 'X' => emit (d.fillNat (← intArgument false).toNat)
  | 'e' | 'E' | 'f' | 'F' | 'g' | 'G' => emit (d.fillFloat (← floatArgument))
  | 's' => emit (d.fillBytes ((← argument).getD []))
  | 'c' => emit (d.pad [((← argument).getD []).headD 0])
  | 'b' =>
    let (bs, more) := unescaped ((← argument).getD [])
    emit (d.fillBytes bs)
    if !more then modify fun f => { f with stopped := true }
  | _ => throw (← get, textOf whole ++ ": invalid directive")

def fillOnce : (fuel : Nat) → Bytes → Fill Unit
  | 0, _ => return
  | _, [] => return
  | fuel + 1, b :: bs => do
    if b = 92 then
      let (c, rest) := escapeByte bs
      emit [c]
      fillOnce fuel rest
    else if b ≠ 37 then
      emit [b]
      fillOnce fuel bs
    else if bs.head? = some 37 then
      emit [37]
      fillOnce fuel bs.tail
    else
      let flags := bs.takeWhile (Text.utf8 "#-+ 0").contains
      let (width, rest) ← size (bs.drop flags.length)
      let (precision, rest) : Option Int × Bytes ← match rest with
        | 46 :: rest => do
          let (p, rest) ← size rest
          pure (some (p.getD 0), rest)
        | rest => pure (none, rest)
      match rest with
      | [] => throw (← get, "missing format character")
      | l :: after =>
        let d : Directive := {
          left := flags.contains 45 || width.any (· < 0)
          plus := flags.contains 43
          space := flags.contains 32
          other := flags.contains 35
          zero := flags.contains 48
          width := (width.getD 0).natAbs
          precision := precision.bind fun p => if p < 0 then none else some p.toNat
          letter := Char.ofNat l.toNat }
        d.fill (37 :: bs.take (bs.length - after.length))
        if !(← get).stopped then fillOnce fuel after

/-- Use a template until no arguments are left, or until it takes none. -/
def fillAll (template : Bytes) : (fuel : Nat) → Fill Unit
  | 0 => return
  | fuel + 1 => do
    let before := (← get).args.length
    fillOnce (template.length + 1) template
    let f ← get
    if f.args.isEmpty || f.args.length = before || f.stopped then return
    else fillAll template fuel

/-- What a template writes with its arguments, and the complaints about them; the last of them ends
the work if the flag is set. -/
def format (template : Bytes) (args : List Bytes) : Bytes × List String × Bool :=
  match (fillAll template (args.length + 1)).run { args } with
  | .ok (_, f) => (f.out.toList, f.complaints, false)
  | .error (f, message) => (f.out.toList, f.complaints ++ [message], true)

end Deadwood.Shell
