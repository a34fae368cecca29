/-!
# Command scripts

The checks of a code base are given as scripts: commands with arguments, joined by pipes and by the
conditions under which the next one runs, and put together to choices, loops and functions.

## Main definitions

* `Shell.Piece`, `Shell.Word`: words and what is put into them.
* `Shell.Command`, `Shell.Compound`, `Shell.Step`, `Shell.Script`: the parts of a script.
-/

namespace Deadwood.Shell

inductive Change where
  | keep
  | length
  /-- The word in its place if there is none; `empty` says whether an empty value counts as none. -/
  | default_ (empty : Bool)
  /-- The same, and the parameter is given the word as its value. -/
  | assign (empty : Bool)
  /-- The script ends with the word as its message if there is none. -/
  | demand (empty : Bool)
  /-- The word in its place if there is one. -/
  | alternative (empty : Bool)
  /-- Without what the pattern fits at its start. -/
  | cutStart (longest : Bool)
  /-- Without what the pattern fits at its end. -/
  | cutEnd (longest : Bool)
  /-- Nothing that is known. -/
  | bad
  deriving DecidableEq

/-- When a pipeline runs: in any case, or only after success or failure. -/
inductive Joint where
  | always | onSuccess | onFailure
  deriving DecidableEq

inductive Opening where
  | read | write | append | readWrite
  deriving DecidableEq

mutual

inductive Piece where
  | text (quoted : Bool) (s : String)
  | parameter (quoted : Bool) (name : String) (change : Change) (word : List Piece)
  /-- What a script writes. -/
  | output (quoted : Bool) (body : List Step)
  /-- The value of an expression with numbers. -/
  | number (quoted : Bool) (expression : List Piece)

inductive Redirect where
  | file (stream : Nat) (opening : Opening) (path : List Piece)
  /-- To where another stream goes. -/
  | copy (stream : Nat) (target : List Piece)
  /-- From a text in the script itself, by its number. -/
  | text (stream : Nat) (number : Nat)

inductive Command where
  | simple (line : Nat) (assigned : List (String × List Piece)) (words : List (List Piece))
    (redirects : List Redirect)
  | compound (body : Compound) (redirects : List Redirect)
  | define (name : String) (body : Command)

inductive Compound where
  | group (body : List Step)
  /-- Steps that change nothing around them. -/
  | enclosed (body : List Step)
  /-- The same, without waiting for them. -/
  | background (body : List Step)
  | choice (test yes no : List Step)
  /-- Repeat while the test succeeds, or until it does. -/
  | loop (wanted : Bool) (test body : List Step)
  /-- Repeat for each of some words, or for each argument. -/
  | each (name : String) (words : Option (List (List Piece))) (body : List Step)
  /-- The first arm with a pattern that fits. -/
  | select (subject : List Piece) (arms : List (List (List Piece) × List Step))

/-- Commands, each of which reads what the one before it writes. -/
inductive Step where
  | mk (joint : Joint) (negated : Bool) (commands : List Command)

end

abbrev Word := List Piece

abbrev Script := List Step

/-- A here-document is a text in the script; all of them, by their numbers. -/
abbrev Texts := List (Nat × Word)

end Deadwood.Shell
