/-!
# Signals

A signal ends a process unless it is caught or ignored.

## Main definitions

* `Shell.signals`: the signals by number.
* `Shell.signalNumber?`: the number of a signal.
* `Shell.signalReport`, `Shell.signalNotice`: how the end by a signal is told.
-/

namespace Deadwood.Shell

def signals : List String :=
  ["HUP", "INT", "QUIT", "ILL", "TRAP", "ABRT", "BUS", "FPE", "KILL", "USR1", "SEGV", "USR2",
    "PIPE", "ALRM", "TERM", "STKFLT", "CHLD", "CONT", "STOP", "TSTP", "TTIN", "TTOU", "URG", "XCPU",
    "XFSZ", "VTALRM", "PROF", "WINCH", "IO", "PWR", "SYS"]

/-- The number of a signal by its name or number; zero stands for the end of a script. -/
def signalNumber? (s : String) : Option Nat :=
  let name := String.ofList (s.toList.map Char.toUpper)
  if !s.toList.isEmpty && s.toList.all Char.isDigit then
    s.toNat?.bind fun n => if n ≤ 64 then some n else none
  else if name = "EXIT" then some 0
  else (signals.idxOf? name).map (· + 1)

def signalName (n : Nat) : String :=
  if n = 0 then "EXIT" else (signals[n - 1]?).getD ("RTMIN+" ++ toString (n - 34))

/-- What a signal does to a process that does not catch it. -/
inductive SignalEffect where
  | ends | nothing | stops

def signalEffect (n : Nat) : SignalEffect :=
  if [17, 18, 23, 28].contains n then .nothing
  else if [19, 20, 21, 22].contains n then .stops
  else .ends

/-- The end of a command by a signal, for the one who started it. -/
def signalReport (n : Nat) : String :=
  let texts := ["hangup", "interrupt", "quit", "illegal instruction", "trace/breakpoint trap",
    "aborted", "bus error", "floating point exception", "killed", "user defined signal 1",
    "segmentation fault", "user defined signal 2", "broken pipe", "alarm clock", "terminated"]
  if n = 0 then "signal 0" else (texts[n - 1]?).getD ("signal " ++ toString n)

/-- The end of a command by a signal, as a script tells it; of some signals it says nothing. -/
def signalNotice (n : Nat) : String :=
  let texts := ["Hangup", "", "Quit", "Illegal instruction", "Trace/breakpoint trap", "Aborted",
    "Bus error", "Floating point exception", "Killed", "User defined signal 1",
    "Segmentation fault", "User defined signal 2", "", "Alarm clock", "Terminated", "Stack fault",
    "Child exited", "Continued", "Stopped (signal)", "Stopped", "Stopped (tty input)",
    "Stopped (tty output)", "Urgent I/O condition", "CPU time limit exceeded",
    "File size limit exceeded", "Virtual timer expired", "Profiling timer expired",
    "Window changed", "I/O possible", "Power failure", "Bad system call"]
  (texts[n - 1]?).getD ("Real-time signal " ++ toString (n - 34))

end Deadwood.Shell
