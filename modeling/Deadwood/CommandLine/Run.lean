import Deadwood.CommandLine.Deletion
import Deadwood.CommandLine.Help
import Deadwood.CommandLine.Request
import Deadwood.CommandLine.Upkeep

/-!
# Running commands

One invocation of the program, from its words to its exit status.

## Main definitions

* `run`: one invocation.
-/

namespace Deadwood.CommandLine

def versionText : String :=
  programName ++ " version dev\n"

def showHelp (words : List String) : Action Unit :=
  match locate words with
  | .ok (c, _) => Action.print (Text.utf8 c.help)
  | .error _ =>
    Action.printAside ("Unknown help topic ["
      ++ Text.join " " (words.map fun w => "\x60" ++ w ++ "\x60") ++ "]\n" ++ rootCommand.usage)

def perform (c : Command) (flags : Given) (args : List String) : Action Unit :=
  match c.path with
  | ["help"] => showHelp args
  | ["config", "validate"] => checkSettings flags
  | ["config", "show"] => showSettings flags
  | ["import"] => importSnapshot flags (args.headD "")
  | ["cycles"] => showCycles flags
  | ["deps"] => showMetrics flags
  | ["dead"] => showDead flags
  | ["delete"] => deleteFunctions flags
  | ["restore"] => restoreBackup (args.headD "")
  | ["backups"] => listBackups flags
  | ["backups", "discard"] => discardBackup (args.headD "")
  | _ => pure ()

def answer (words : List String) : Action Unit :=
  match Request.ofWords words with
  | .error e => throw (.other e.message)
  | .ok (.help c) => Action.print (Text.utf8 c.help)
  | .ok .version => Action.print (Text.utf8 versionText)
  | .ok (.run c flags args) => perform c flags args

/-- One invocation: its exit status and what it leaves behind. A failure is reported on the standard
output. -/
def run (words : List String) (s : Session) : Nat × Session :=
  match (answer words).run.run s with
  | (.ok _, s) => (0, s)
  | (.error f, s) =>
    let ((_, s)) := (Action.announce .error ("Error: " ++ f.message)).run.run s
    (1, s)

end Deadwood.CommandLine
