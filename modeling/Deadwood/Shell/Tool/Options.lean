import Deadwood.Shell.Reply

/-!
# Options of tools

Options are letters behind a dash. Letters can be joined, and some of them take a value: the rest of
the argument, or the next one. Options and operands may come in any order; two dashes alone end the
options.

## Main definitions

* `Shell.Options`, `Shell.Options.parse`: options and operands.
* `Shell.overFiles`: the same for each file that is named, or for the input.
-/

namespace Deadwood.Shell

/-- The options and operands of a tool, in order. -/
structure Options where
  given : List (Char × Bytes) := []
  operands : List Bytes := []

namespace Options

def has (o : Options) (c : Char) : Bool :=
  o.given.any (·.1 = c)

def value? (o : Options) (c : Char) : Option Bytes :=
  (o.given.reverse.find? (·.1 = c)).map (·.2)

def values (o : Options) (c : Char) : List Bytes :=
  (o.given.filter (·.1 = c)).map (·.2)

/-- The letters of an argument. A letter that takes a value takes the rest of them, or it waits for
the next argument. -/
def letters (known valued : String) :
    List Char → Except String (List (Char × Bytes) × Option Char)
  | [] => .ok ([], none)
  | c :: cs =>
    if valued.toList.contains c then
      .ok (if cs.isEmpty then ([], some c) else ([(c, Text.utf8 (String.ofList cs))], none))
    else if known.toList.contains c then
      (letters known valued cs).map fun (os, w) => ((c, []) :: os, w)
    else .error ("invalid option -- '" ++ String.singleton c ++ "'")

/-- Read arguments; `waiting` is a letter that takes the next one as its value. -/
def read (known valued : String) (long : List (String × Char)) :
    (waiting : Option Char) → List Bytes → Except String Options
  | some c, [] => .error ("option requires an argument -- '" ++ String.singleton c ++ "'")
  | none, [] => .ok {}
  | some c, a :: rest =>
    (read known valued long none rest).map fun o => { o with given := (c, a) :: o.given }
  | none, a :: rest =>
    if a = [45, 45] then .ok { operands := rest }
    else if [45, 45].isPrefixOf a then
      let text := textOf a
      let name := String.ofList ((text.toList.drop 2).takeWhile (· ≠ '='))
      match long.lookup name with
      | none => .error ("unrecognized option '" ++ text ++ "'")
      | some c =>
        let value := Text.utf8 (String.ofList ((text.toList.dropWhile (· ≠ '=')).drop 1))
        (read known valued long none rest).map fun o => { o with given := (c, value) :: o.given }
    else if a.head? = some 45 && 1 < a.length then do
      let (os, waiting) ← letters known valued ((textOf a).toList.drop 1)
      let o ← read known valued long waiting rest
      return { o with given := os ++ o.given }
    else (read known valued long none rest).map fun o => { o with operands := a :: o.operands }

end Options

/-- Run a tool with its options; `known` letters stand alone, `valued` ones take a value. -/
def withOptions (name known valued : String) (long : List (String × Char)) (args : List Bytes)
    (run : Options → Reply) : Reply :=
  match Options.read known valued long none args with
  | .ok o => run o
  | .error e =>
    Reply.refusal 1 (name ++ ": " ++ e ++ "\nTry '" ++ name ++ " --help' for more information.")

/-- The contents of the files that are named, or of the input. -/
def contents (s : Scene) (limit : Nat) (files : List Bytes) :
    List (String × Except String Bytes) :=
  if files.isEmpty then [("-", .ok (s.input.take limit))]
  else files.map fun f => (textOf f, s.read (textOf f) limit)

def readsInput (files : List Bytes) : Bool :=
  files.isEmpty || files.contains [45]

/-- A filter: what is made of all files together, with complaints about those that cannot be
read. -/
def overFiles (name : String) (s : Scene) (files : List Bytes) (run : Bytes → Bytes) : Reply :=
  let all := contents s endless files
  let complaints := all.filterMap fun (f, content) =>
    match content with
    | .error e => some (Reply.refusal 1 (name ++ ": " ++ nameText f ++ ": " ++ e))
    | .ok _ => none
  let whole := all.flatMap fun (_, content) => content.toOption.getD []
  { Reply.all complaints ++ Reply.out (run whole) with reads := readsInput files }

end Deadwood.Shell
