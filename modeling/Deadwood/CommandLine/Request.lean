import Deadwood.CommandLine.Catalogue
import Deadwood.Text.Case

/-!
# Invocations

From the words of an invocation to the command that is meant, its flags and its arguments.

## Main definitions

* `locate`: the command that is meant.
* `Request`, `Request.ofWords`: what is asked for.
-/

namespace Deadwood.CommandLine

/-! ## Similar names -/

/-- One row of the table of distances between a text and the beginnings of another. -/
def distanceRow (c : Char) : List Char → List Nat → Nat → List Nat
  | d :: ds, diagonal :: above :: row, left =>
    let here := min (min (above + 1) (left + 1)) (diagonal + if c == d then 0 else 1)
    here :: distanceRow c ds (above :: row) here
  | _, _, _ => []

/-- How many insertions, deletions and exchanges lead from one text to the other. -/
def distance (s t : String) : Nat :=
  let first := List.range (t.length + 1)
  let last := s.toList.zipIdx.foldl
    (fun row (c, i) => (i + 1) :: distanceRow c t.toList row (i + 1)) first
  last.getLast?.getD 0

def similarNames (c : Command) (word : String) : List String :=
  (c.children.map Command.name).filter fun name =>
    distance (Text.lower word) (Text.lower name) ≤ 2
      || Text.startsWith (Text.lower word) (Text.lower name)

/-! ## The command -/

/-- Whether a word is a flag that takes the next word as its value. Unknown flags are taken to do
so. -/
def takesNext (flags : List Flag) (word : String) : Bool :=
  let needsValue (f : Option Flag) : Bool := (f.bind Flag.bareValue?).isNone
  !word.toList.contains '=' &&
    match word.toList with
    | '-' :: '-' :: name => needsValue (named? flags (String.ofList name))
    | ['-', c] => needsValue (lettered? flags c)
    | _ => false

/-- The words that are neither flags nor values of flags. A flag that takes the next word ends the
search if less than two words follow it. -/
def plainWords (flags : List Flag) : List String → List String
  | [] => []
  | "--" :: _ => []
  | [w] => if Text.startsWith "-" w || w == "" then [] else [w]
  | w :: v :: rest =>
    if takesNext flags w then (if rest.isEmpty then [] else plainWords flags rest)
    else if Text.startsWith "-" w || w == "" then plainWords flags (v :: rest)
    else w :: plainWords flags (v :: rest)

/-- Leave out the first occurrence of a word that is no value of a flag. -/
def withoutWord (flags : List Flag) (word : String) : List String → List String
  | [] => []
  | "--" :: rest => "--" :: rest
  | [w] => if w == word && !takesNext flags w then [] else [w]
  | w :: v :: rest =>
    if takesNext flags w then w :: v :: withoutWord flags word rest
    else if w == word then v :: rest
    else w :: withoutWord flags word (v :: rest)

/-- Go down from a command as far as the words name children. Answers the command and the words
without the names. -/
def descend : Nat → Command → List String → Command × List String
  | 0, c, words => (c, words)
  | fuel + 1, c, words =>
    match plainWords c.knownFlags words with
    | [] => (c, words)
    | name :: _ =>
      match c.child? name with
      | some d => descend fuel d (withoutWord c.knownFlags name words)
      | none => (c, words)

/-- The command that is meant. The program itself takes no arguments, so a word there names a
command that does not exist. -/
def locate (words : List String) : Except UsageError (Command × List String) :=
  let (c, rest) := descend (words.length + 1) rootCommand words
  match c.path, plainWords c.knownFlags rest with
  | [], name :: _ => .error (.unknownCommand name programName (similarNames c name))
  | _, _ => .ok (c, rest)

/-! ## Requests -/

inductive Request where
  | help (c : Command)
  | version
  | run (c : Command) (flags : Given) (args : List String)

/-- What an invocation asks for. Help comes before anything else, and groups of commands have
nothing else to offer. -/
def Request.ofWords (words : List String) : Except UsageError Request := do
  let (c, rest) ← locate words
  let (flags, args) ← readArguments c.allFlags rest
  if flags.isOn "help" then return .help c
  if flags.isOn "version" then return .version
  if !c.acts then return .help c
  match c.argumentCount with
  | some n => if args.length != n then throw (.argumentCount n args.length)
  | none => pure ()
  return .run c flags args

end Deadwood.CommandLine
