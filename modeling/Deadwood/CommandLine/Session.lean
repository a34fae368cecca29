import Deadwood.CommandLine.Flag
import Deadwood.Disk.Basic
import Deadwood.Report.Basic
import Deadwood.Report.Style
import Deadwood.Settings.Load
import Deadwood.Time

/-!
# Sessions

A session is one invocation of the program: the disk it works on, what it reads and what it writes.
An action may fail at any point; what it wrote before that stays written.

## Main definitions

* `Session`: the outside of an invocation.
* `Action`: something that is done in a session.
* `Writer`: where a report goes and in which format.
-/

namespace Deadwood.CommandLine

structure Session where
  disk : Disk
  /-- What the user types. -/
  input : Bytes := []
  out : Bytes := []
  err : Bytes := []
  /-- What the user was asked, if anything. The answer is in the input. -/
  asked : String := ""
  /-- Whether colour codes are written. -/
  codes : Bool := false
  /-- An identifier that is not in use. -/
  freshId : String
  now : Timestamp

abbrev Action := ExceptT Fault (StateM Session)

namespace Action

def print (bs : Bytes) : Action Unit :=
  modify fun s => { s with out := s.out ++ bs }

def printAside (text : String) : Action Unit :=
  modify fun s => { s with err := s.err ++ Text.utf8 text }

def announce (tone : Tone) (text : String) : Action Unit := do
  print (Text.utf8 (tone.colouredMessage ⟨(← get).codes⟩ "%s" [text]))

def ofExcept {α : Type} : Except Fault α → Action α
  | .ok a => pure a
  | .error f => throw f

/-- The result of something that changes the disk and may fail. -/
def onDisk (f : Disk → Option Fault × Disk) : Action Unit := do
  let (fault, disk) := f (← get).disk
  modify fun s => { s with disk }
  match fault with
  | some f => throw f
  | none => pure ()

end Action

/-! ## Settings -/

/-- The settings of an invocation: those of the file, changed by the flags. -/
def loadSettings (flags : Given) : Action Settings := do
  match Settings.load (flags.text "config") (← get).disk with
  | .error p => throw p.fault
  | .ok (s, _) =>
    let format := flags.text "format"
    let store := flags.text "store"
    let verbose := 0 < (flags.integer? "verbose").getD 0
    return { s with
      output := { s.output with
        format := if format = "" then s.output.format else format
        verbose := s.output.verbose || verbose }
      storePath := if store = "" then s.storePath else store }

/-! ## Reports -/

structure Writer where
  format : Format
  /-- A file, or the standard output. -/
  file : Option String
  coloured : Bool

namespace Writer

/-- A writer as the settings and flags say. A file is emptied; in files there are no colours. -/
def make (s : Settings) (flags : Given) : Action Writer := do
  let format := Format.ofName s.output.format
  let file := flags.text "output"
  if file = "" then return ⟨format, none, s.output.color⟩
  else
    let disk ← Action.ofExcept ((← get).disk.writeFile file [] 0o644)
    modify fun s => { s with disk }
    return ⟨format, some file, false⟩

/-- Whether the data behind a report are wanted, and not the report. -/
def wantsData (w : Writer) : Bool :=
  w.format == .json || w.format == .toon

def write (w : Writer) (bs : Bytes) : Action Unit :=
  match w.file with
  | none => Action.print bs
  | some path => modify fun s =>
    let old := (s.disk.readFile path).toOption.getD []
    { s with disk := (s.disk.writeFile path (old ++ bs) 0o644).toOption.getD s.disk }

def output (w : Writer) (shape : Toon.Shape) (b : Block) : Action Unit := do
  match b.write w.format ⟨w.coloured && (← get).codes⟩ shape with
  | .ok bs => w.write bs
  | .error e => throw (.other e)

/-- Write a message: in its colour on the standard output, or behind its label. -/
def say (w : Writer) (tone : Tone) (text : String) : Action Unit :=
  if w.coloured then Action.announce tone text
  else w.write (Text.utf8 (tone.plainMessage "%s" [text]))

/-- A text in the colour of its severity, where there are colours. -/
def severity (w : Writer) (text : String) : Action String := do
  let codes := (← get).codes
  return if w.coloured then Palette.severity ⟨codes⟩ text text else text

end Writer

end Deadwood.CommandLine
