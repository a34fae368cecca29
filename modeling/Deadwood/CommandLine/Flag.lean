import Deadwood.Numeral
import Deadwood.Text.Csv
import Deadwood.Text.Quoted

/-!
# Flags

A command takes flags, which have a name and sometimes a letter, and arguments. A flag is written
`--name value`, `--name=value`, `-l value`, `-l=value` or `-lvalue`; letters of flags without a
value can stand together behind one dash. A lone `--` ends the flags.

## Main definitions

* `Flag`, `FlagValue`: flags and what they can hold.
* `UsageError`: what is wrong with an invocation.
* `readArguments`: the flags and arguments of an invocation.
-/

namespace Deadwood.CommandLine

inductive FlagKind where
  | text | integer | number
  /-- On or off; on if no value is given. -/
  | toggle
  /-- How often the flag is given. -/
  | count
  /-- Values between commas; a repeated flag adds to them. -/
  | texts
  deriving DecidableEq

structure Flag where
  name : String
  letter : Option Char := none
  kind : FlagKind
  /-- What the flag is for. -/
  help : String

inductive FlagValue where
  | text (s : String)
  | integer (i : Int)
  | number (x : Float)
  | toggle (b : Bool)
  | texts (ss : List String)

inductive UsageError where
  | unknownCommand (name parent : String) (similar : List String)
  | unknownFlag (name : String)
  | unknownLetter (letter : Char) (letters : String)
  | noValue (name : String)
  | noLetterValue (letter : Char) (letters : String)
  | badForm (argument : String)
  | badValue (value flag reason : String)
  | argumentCount (wanted received : Nat)

namespace UsageError

def inQuotes (c : Char) : String :=
  let inner := if c == '\x27' then "\\'" else if c == '"' then "\"" else Text.quotedChar c
  "'" ++ inner ++ "'"

def message : UsageError → String
  | unknownCommand name parent similar =>
    "unknown command " ++ Text.quoted name ++ " for " ++ Text.quoted parent
      ++ if similar.isEmpty then ""
        else "\n\nDid you mean this?\n" ++ String.join (similar.map fun s => "\t" ++ s ++ "\n")
  | unknownFlag name => "unknown flag: --" ++ name
  | unknownLetter c letters => "unknown shorthand flag: " ++ inQuotes c ++ " in -" ++ letters
  | noValue name => "flag needs an argument: --" ++ name
  | noLetterValue c letters => "flag needs an argument: " ++ inQuotes c ++ " in -" ++ letters
  | badForm argument => "bad flag syntax: " ++ argument
  | badValue value flag reason =>
    "invalid argument " ++ Text.quoted value ++ " for " ++ Text.quoted flag ++ " flag: " ++ reason
  | argumentCount wanted received =>
    "accepts " ++ Decimal.digitText wanted ++ " arg(s), received " ++ Decimal.digitText received

end UsageError

/-! ## Values -/

abbrev Given := List (String × FlagValue)

namespace Given

def text? (g : Given) (name : String) : Option String :=
  match g.lookup name with
  | some (.text s) => some s
  | _ => none

/-- The text of a flag, empty if it was not given. -/
def text (g : Given) (name : String) : String :=
  (g.text? name).getD ""

def integer? (g : Given) (name : String) : Option Int :=
  match g.lookup name with
  | some (.integer i) => some i
  | _ => none

def number? (g : Given) (name : String) : Option Float :=
  match g.lookup name with
  | some (.number x) => some x
  | _ => none

def toggle? (g : Given) (name : String) : Option Bool :=
  match g.lookup name with
  | some (.toggle b) => some b
  | _ => none

def isOn (g : Given) (name : String) : Bool :=
  (g.toggle? name).getD false

def texts (g : Given) (name : String) : List String :=
  match g.lookup name with
  | some (.texts ss) => ss
  | _ => []

def put (g : Given) (name : String) (v : FlagValue) : Given :=
  (name, v) :: g.filter (·.1 != name)

end Given

namespace Flag

/-- The value of a flag that is given without one, if it may be. -/
def bareValue? (f : Flag) : Option String :=
  match f.kind with
  | .toggle => some "true"
  | .count => some "+1"
  | _ => none

def shown (f : Flag) : String :=
  match f.letter with
  | some c => "-" ++ String.singleton c ++ ", --" ++ f.name
  | none => "--" ++ f.name

def numberReason (reader value : String) (problem : String) : String :=
  "strconv." ++ reader ++ ": parsing " ++ Text.quoted value ++ ": " ++ problem

def set (f : Flag) (value : String) (g : Given) : Except UsageError Given :=
  let refuse {α : Type} (reason : String) : Except UsageError α :=
    .error (.badValue value f.shown reason)
  match f.kind with
  | .text => .ok (g.put f.name (.text value))
  | .integer =>
    match Numeral.int value with
    | .ok i => .ok (g.put f.name (.integer i))
    | .error p => refuse (numberReason "ParseInt" value p.message)
  | .count =>
    if value = "+1" then .ok (g.put f.name (.integer ((g.integer? f.name).getD 0 + 1)))
    else
      match Numeral.int value with
      | .ok i => .ok (g.put f.name (.integer i))
      | .error p => refuse (numberReason "ParseInt" value p.message)
  | .number =>
    match Numeral.float value with
    | .ok x => .ok (g.put f.name (.number x))
    | .error p => refuse (numberReason "ParseFloat" value p.message)
  | .toggle =>
    match Numeral.truth? value with
    | some b => .ok (g.put f.name (.toggle b))
    | none => refuse (numberReason "ParseBool" value "invalid syntax")
  | .texts =>
    match Csv.values value with
    | .ok vs => .ok (g.put f.name (.texts (g.texts f.name ++ vs)))
    | .error p => refuse p.message

end Flag

/-! ## Arguments -/

def named? (flags : List Flag) (name : String) : Option Flag :=
  flags.find? (·.name == name)

def lettered? (flags : List Flag) (c : Char) : Option Flag :=
  flags.find? (·.letter == some c)

def firstByte (c : Char) : Char :=
  Char.ofNat (((Text.utf8 (String.singleton c)).headD 0).toNat)

/-- Read a flag by its name. Answers the arguments that are left. -/
def readNamed (flags : List Flag) (argument : String) (rest : List String) (g : Given) :
    Except UsageError (Given × List String) :=
  let body := argument.toList.drop 2
  match body with
  | [] => .error (.badForm argument)
  | c :: _ =>
    if c == '-' || c == '=' then .error (.badForm argument)
    else
      let name := String.ofList (body.takeWhile (· != '='))
      match named? flags name with
      | none => .error (.unknownFlag name)
      | some f =>
        match body.dropWhile (· != '='), f.bareValue?, rest with
        | _ :: value, _, _ => do return (← f.set (String.ofList value) g, rest)
        | [], some bare, _ => do return (← f.set bare g, rest)
        | [], none, value :: rest => do return (← f.set value g, rest)
        | [], none, [] => .error (.noValue name)

/-- Read letters behind one dash. Answers the arguments that are left. -/
def readLetters (flags : List Flag) : List Char → List String → Given →
    Except UsageError (Given × List String)
  | [], rest, g => .ok (g, rest)
  | c :: cs, rest, g =>
    let letters := String.ofList (c :: cs)
    match lettered? flags c with
    | none => .error (.unknownLetter (firstByte c) letters)
    | some f =>
      match cs, f.bareValue?, rest with
      | '=' :: d :: value, _, _ => do return (← f.set (String.ofList (d :: value)) g, rest)
      | _, some bare, _ => do readLetters flags cs rest (← f.set bare g)
      | d :: value, none, _ => do return (← f.set (String.ofList (d :: value)) g, rest)
      | [], none, value :: rest => do return (← f.set value g, rest)
      | [], none, [] => .error (.noLetterValue c letters)

/-- The flags and arguments of an invocation. Flags and arguments may alternate. -/
def readFrom (flags : List Flag) : Nat → List String → Given → List String →
    Except UsageError (Given × List String)
  | 0, _, g, taken => .ok (g, taken.reverse)
  | _, [], g, taken => .ok (g, taken.reverse)
  | fuel + 1, a :: rest, g, taken =>
    match a.toList with
    | '-' :: '-' :: [] => .ok (g, taken.reverse ++ rest)
    | '-' :: '-' :: _ => do
      let (g, rest) ← readNamed flags a rest g
      readFrom flags fuel rest g taken
    | '-' :: c :: cs => do
      let (g, rest) ← readLetters flags (c :: cs) rest g
      readFrom flags fuel rest g taken
    | _ => readFrom flags fuel rest g (a :: taken)

def readArguments (flags : List Flag) (args : List String) :
    Except UsageError (Given × List String) :=
  readFrom flags (args.length + 1) args [] []

end Deadwood.CommandLine
