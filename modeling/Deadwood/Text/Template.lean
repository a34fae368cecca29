import Deadwood.Text.Quoted
import Deadwood.Text.Segments
import Deadwood.Text.Utf8

/-!
# Message templates

A template is a text in which a percent sign and a letter stand for an argument. Between them may
stand flags, a width, a limit and the number of an argument in brackets. The arguments are texts.
What a template gets wrong (a letter of another kind, a number that is no argument, too few or too
many arguments) is shown in the message itself.

## Main definitions

* `Template.Fill`: how an argument is written.
* `Template.directive`: what stands between the percent sign and the letter.
* `Template.message`: the message of a template and its arguments.
-/

namespace Deadwood.Template

structure Fill where
  /-- Write the argument the other way: in raw quotes, or with a mark for base sixteen. -/
  sharp : Bool := false
  /-- Fill up with zeros instead of blanks, on the left only. -/
  zero : Bool := false
  /-- Write ASCII only. -/
  plus : Bool := false
  /-- Fill up on the right. -/
  minus : Bool := false
  /-- Set blanks between bytes. -/
  space : Bool := false
  /-- The least number of characters. -/
  width : Nat := 0
  /-- The greatest number of characters of the text. -/
  limit : Option Nat := none

def Fill.pad (f : Fill) (s : String) : String :=
  let filling := Text.repeated (f.width - s.length) (if f.zero && !f.minus then "0" else " ")
  if f.minus then s ++ filling else filling ++ s

def Fill.cut (f : Fill) (s : String) : String :=
  match f.limit with
  | some n => String.ofList (s.toList.take n)
  | none => s

def Fill.quoted (f : Fill) (s : String) : String :=
  let s := f.cut s
  f.pad (if f.sharp && Text.fitsRawQuotes s then "\x60" ++ s ++ "\x60"
    else if f.plus then Text.quotedAscii s
    else Text.quoted s)

/-- The bytes of a text in base sixteen. The limit counts bytes. -/
def Fill.hex (f : Fill) (capital : Bool) (s : String) : String :=
  let bytes := Text.utf8 s
  let bytes := match f.limit with
    | some n => bytes.take n
    | none => bytes
  let mark := if f.sharp then (if capital then "0X" else "0x") else ""
  let digits := bytes.map (fun b =>
    let ds := Text.hexDigits 2 b.toNat
    if capital then String.ofList (ds.toList.map Char.toUpper) else ds)
  f.pad (if bytes.isEmpty then ""
    else if f.space then Text.join " " (digits.map (mark ++ ·))
    else mark ++ String.join digits)

def Fill.shown (f : Fill) (letter : Char) (argument : String) : String :=
  match letter with
  | 's' => f.pad (f.cut argument)
  | 'v' =>
    if f.sharp then { f with sharp := false, plus := false }.quoted argument
    else f.pad (f.cut argument)
  | 'q' => f.quoted argument
  | 'x' => f.hex false argument
  | 'X' => f.hex true argument
  | 'T' => f.pad (f.cut "string")
  | 'w' =>
    let text := if f.sharp then { f with sharp := false, plus := false }.quoted argument
      else f.pad (f.cut argument)
    "%!w(string=" ++ text ++ ")"
  | _ => "%!" ++ String.singleton letter ++ "(string=" ++ f.pad (f.cut argument) ++ ")"

/-! ## Directives -/

/-- How far a template has been read, and what is known about its arguments. -/
structure Reading where
  rest : List Char
  /-- The place of the argument to take. -/
  next : Nat
  /-- Whether all numbers in brackets name arguments and stand where they may. -/
  sound : Bool := true
  /-- Whether a number in brackets was met. -/
  reordered : Bool := false
  /-- Complaints about widths and limits that are taken from arguments. -/
  notes : String := ""

/-- The number at the front, if there is one, and the rest. A number with too many digits takes all
that follows with it. -/
def numberUpTo : Option Nat → List Char → Option Nat × List Char
  | n, [] => (n, [])
  | n, c :: cs =>
    if c.isDigit then
      if 1000000 < n.getD 0 then (none, [])
      else numberUpTo (some (10 * n.getD 0 + (c.toNat - 48))) cs
    else (n, c :: cs)

def number (cs : List Char) : Option Nat × List Char :=
  numberUpTo none cs

/-- The number between brackets at the front, and what follows them. Without a closing bracket
only the opening one is read. -/
def bracketed (cs : List Char) : Option Nat × List Char :=
  let inner := (cs.drop 1).takeWhile (· ≠ ']')
  let rest := (cs.drop 1).dropWhile (· ≠ ']')
  if rest.isEmpty || cs.length < 3 then (none, cs.drop 1)
  else
    match number inner with
    | (some n, []) => (some n, rest.drop 1)
    | _ => (none, rest.drop 1)

/-- Read a number in brackets, if there is one; `count` is the number of arguments. The second part
of the answer says whether there was a number, be it of an argument or not. -/
def Reading.index (r : Reading) (count : Nat) : Reading × Bool :=
  match r.rest with
  | '[' :: _ =>
    match bracketed r.rest with
    | (some n, rest) =>
      if 1 ≤ n && n ≤ count then ({ r with rest, next := n - 1, reordered := true }, true)
      else ({ r with rest, sound := false, reordered := true }, true)
    | (none, rest) => ({ r with rest, sound := false, reordered := true }, false)
  | _ => (r, false)

/-- Take the argument that should be a width or a limit. No argument is a number. -/
def Reading.star (r : Reading) (count : Nat) (note : String) : Reading :=
  { r with rest := r.rest.drop 1, next := if r.next < count then r.next + 1 else r.next,
           notes := r.notes ++ note }

/-- Read the width. `indexed` says that a number in brackets is in front. -/
def Reading.width (r : Reading) (count : Nat) (indexed : Bool) : Reading × Bool × Nat :=
  match r.rest with
  | '*' :: _ => (r.star count "%!(BADWIDTH)", false, 0)
  | _ =>
    match number r.rest with
    | (some n, rest) => ({ r with rest, sound := r.sound && !indexed }, indexed, n)
    | (none, rest) => ({ r with rest }, indexed, 0)

def Reading.limit (r : Reading) (count : Nat) (indexed : Bool) : Reading × Bool × Option Nat :=
  match r.rest with
  | '.' :: rest =>
    let (r, indexed) := Reading.index { r with rest, sound := r.sound && !indexed } count
    match r.rest with
    | '*' :: _ => (r.star count "%!(BADPREC)", false, none)
    | _ =>
      let (n, rest) := number r.rest
      ({ r with rest }, indexed, some (n.getD 0))
  | _ => (r, indexed, none)

/-- Read what stands between the percent sign and the letter. -/
def directive (count : Nat) (r : Reading) : Fill × Reading :=
  let isFlag (c : Char) : Bool := "+-# 0".toList.contains c
  let flags := r.rest.takeWhile isFlag
  let (r, indexed) := Reading.index { r with rest := r.rest.dropWhile isFlag } count
  let (r, indexed, width) := r.width count indexed
  let (r, indexed, limit) := r.limit count indexed
  let r := if indexed then r else (r.index count).1
  (⟨flags.contains '#', flags.contains '0', flags.contains '+', flags.contains '-',
    flags.contains ' ', width, limit⟩, r)

/-! ## Messages -/

def surplus (arguments : List String) : String :=
  if arguments.isEmpty then ""
  else "%!(EXTRA " ++ Text.join ", " (arguments.map ("string=" ++ ·)) ++ ")"

/-- What a directive with this letter writes, and the place of the next argument. -/
def written (arguments : List String) (f : Fill) (r : Reading) (letter : Char) : String × Nat :=
  let complaint (s : String) : String := "%!" ++ String.singleton letter ++ "(" ++ s ++ ")"
  if letter = '%' then ("%", r.next)
  else if !r.sound then (complaint "BADINDEX", r.next)
  else
    match arguments[r.next]? with
    | none => (complaint "MISSING", r.next)
    | some a => (f.shown letter a, r.next + 1)

/-- The message of the rest of a template, from the argument at `next`. -/
def run (arguments : List String) : Nat → (next : Nat) → (reordered : Bool) → List Char → String
  | 0, _, _, _ => ""
  | _, next, reordered, [] => if reordered then "" else surplus (arguments.drop next)
  | fuel + 1, next, reordered, c :: cs =>
    if c ≠ '%' then String.singleton c ++ run arguments fuel next reordered cs
    else
      let (f, r) := directive arguments.length { rest := cs, next, reordered }
      match r.rest with
      | [] =>
        r.notes ++ "%!(NOVERB)" ++ if r.reordered then "" else surplus (arguments.drop r.next)
      | letter :: rest =>
        let (text, next) := written arguments f r letter
        r.notes ++ text ++ run arguments fuel next r.reordered rest

def message (template : String) (arguments : List String) : String :=
  run arguments (template.length + 1) 0 false template.toList

end Deadwood.Template
