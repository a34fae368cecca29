import Deadwood.CommandLine.Catalogue
import Deadwood.Text.Class

/-!
# Help texts

What is printed about a command: its description, how it is used, the commands below it, its own
flags and the flags of every command.

## Main definitions

* `Command.help`: the help text of a command.
-/

namespace Deadwood.CommandLine

def FlagKind.valueWord : FlagKind → String
  | .text => " string"
  | .integer => " int"
  | .number => " float"
  | .toggle => ""
  | .count => " count"
  | .texts => " strings"

def Flag.form (f : Flag) : String :=
  (match f.letter with
    | some c => "  -" ++ String.singleton c ++ ", --"
    | none => "      --") ++ f.name ++ f.kind.valueWord

def padTo (width : Nat) (s : String) : String :=
  s ++ Text.repeated (width - s.length) " "

/-- The lines of flags, in the order of their names. -/
def flagLines (flags : List Flag) : String :=
  let sorted := flags.mergeSort fun f g => f.name ≤ g.name
  let width := (sorted.map (·.form.length)).foldl max 0
  String.join (sorted.map fun f => padTo width f.form ++ "   " ++ f.help ++ "\n")

namespace Command

def useLine (c : Command) : String :=
  c.fullName ++ (if c.arguments == "" then "" else " " ++ c.arguments) ++ " [flags]"

/-- The names of commands fill at least this many columns. -/
def nameWidth : Nat := 11

def childLines (c : Command) : String :=
  let sorted := c.children.mergeSort fun d e => d.name ≤ e.name
  let width := (sorted.map (·.name.length)).foldl max nameWidth
  String.join (sorted.map fun d => "  " ++ padTo width d.name ++ " " ++ d.brief ++ "\n")

def usage (c : Command) : String :=
  let isGroup := !c.children.isEmpty
  let isRoot := c.path.isEmpty
  let own := (if isRoot then globalFlags else c.flags) ++ c.helpFlag :: c.versionFlag
  "Usage:\n"
    ++ (if c.acts then "  " ++ c.useLine ++ "\n" else "")
    ++ (if isGroup then "  " ++ c.fullName ++ " [command]\n\nAvailable Commands:\n" ++ c.childLines
      else "")
    ++ "\nFlags:\n" ++ flagLines own
    ++ (if isRoot then "" else "\nGlobal Flags:\n" ++ flagLines globalFlags)
    ++ (if isGroup then
        "\nUse \"" ++ c.fullName ++ " [command] --help\" for more information about a command.\n"
      else "")

def help (c : Command) : String :=
  (if c.description == "" then c.brief else c.description) ++ "\n\n" ++ c.usage

end Command

end Deadwood.CommandLine
