import Deadwood.Disk.Basic
import Deadwood.Pruning.Outcome

/-!
# Validation

Before and after a deletion the code is checked by two commands, one for its types and one for its
tests. A command that is not given, cannot be started or runs out of time gives no verdict.

## Main definitions

* `CommandEnd`, `CommandRunner`: what is known about the running of commands.
* `CheckOutcome`: what one command says.
* `Checks`: the two commands.
* `Checks.run`: the verdict of both.
-/

namespace Deadwood

/-- How a command ended. -/
inductive CommandEnd where
  | exited (status : Nat)
  | killed (signal : String)
  | timedOut

/-- What runs a command on a disk for at most `limit` milliseconds: how the command ended, what it
wrote, and the disk it leaves. -/
abbrev CommandRunner := (limit : Nat) → (command : String) → Disk → CommandEnd × Bytes × Disk

/-- What one validation command says. -/
structure CheckOutcome where
  /-- Whether the command ran and gave a verdict. -/
  performed : Bool := false
  passed : Bool := false
  /-- The end of what it wrote. -/
  output : Bytes := []
  fault : Option Fault := none

def CheckOutcome.verdict? (o : CheckOutcome) : Option Bool :=
  if o.performed then some o.passed else none

/-- The two validation commands and where they run. -/
structure Checks where
  typeCheck : String := ""
  tests : String := ""
  /-- The directory in which they run; empty for the working directory. -/
  dir : String := ""
  /-- The time for each command, in milliseconds; five minutes if it is not positive. -/
  limit : Int := 0

namespace Checks

def keptOutput : Nat := 4096

def tail (bs : Bytes) : Bytes :=
  bs.drop (bs.length - keptOutput)

def timeLimit (c : Checks) : Nat :=
  if 0 < c.limit then c.limit.toNat else 300000

/-- The disk as it is seen from the directory of the commands. -/
def enter (c : Checks) (d : Disk) : Except Fault Disk :=
  if c.dir == "" then .ok d
  else
    match d.find c.dir with
    | .ok (place, .directory) => .ok { d with workDir := place }
    | .ok _ => .error (.system "chdir" c.dir .notDirectory)
    | .error e => .error (.system "chdir" c.dir e)

/-- Run one command. Statuses 126 and 127 say that it could not be started. -/
def runOne (c : Checks) (runner : CommandRunner) (command : String) (d : Disk) :
    CheckOutcome × Disk :=
  if command == "" then ({}, d)
  else
    match c.enter d with
    | .error f => ({ fault := some (.process command f) }, d)
    | .ok inside =>
      let (finish, shown, left) := runner c.timeLimit command inside
      let output := tail shown
      let after := { left with workDir := d.workDir }
      match finish with
      | .timedOut =>
        ({ output, fault := some (.timeout command (.other "context deadline exceeded")) }, after)
      | .killed signal =>
        ({ output, fault := some (.process command (.other ("signal: " ++ signal))) }, after)
      | .exited 0 => ({ performed := true, passed := true, output }, after)
      | .exited status =>
        if status == 126 || status == 127 then
          let cause := Fault.other ("exit status " ++ Decimal.digitText status)
          ({ output, fault := some (.process command cause) }, after)
        else ({ performed := true, output }, after)

def runBoth (c : Checks) (runner : CommandRunner) (d : Disk) :
    CheckOutcome × CheckOutcome × Disk :=
  let (types, d) := c.runOne runner c.typeCheck d
  let (tests, d) := c.runOne runner c.tests d
  (types, tests, d)

def run (c : Checks) (runner : CommandRunner) (d : Disk) : Verdict × Disk :=
  let (types, tests, d) := c.runBoth runner d
  (.ofChecks types.verdict? tests.verdict?, d)

end Checks

end Deadwood
