import Deadwood.Shell.Pattern
import Deadwood.Shell.Script
import Deadwood.Shell.Signal

/-!
# Running scripts: the machine

A running script works on a disk, on streams, and on variables, functions and settings of its own.
The streams and the disk are shared with the scripts inside of it; the rest is not.

## Main definitions

* `Shell.Stream`: where bytes go to and come from.
* `Shell.Session`, `Shell.Machine`: what a script works on.
* `Shell.Halt`, `Shell.Running`: running, and why it may stop.
* `Shell.fieldsOf`: the fields of an expanded word.
-/

namespace Deadwood.Shell

inductive Stream where
  /-- Bytes that were written, and how many of them were read. -/
  | pipe (content : Array UInt8) (used : Nat)
  /-- A file at an offset; what is written may always go to its end. -/
  | file (place : Location) (offset : Nat) (append : Bool)
  | nothing
  | zeros
  deriving Inhabited

structure Variable where
  value : Option Bytes := none
  exported : Bool := false
  fixed : Bool := false

structure Session where
  name : Bytes := Text.utf8 "sh"
  /-- The number of the process. -/
  number : Nat := 100
  bindings : List (String × Variable) := []
  functions : List (String × Command) := []
  arguments : List Bytes := []
  place : Location := []
  /-- The stream of each number. -/
  channels : List (Nat × Nat) := []
  /-- The letters of the settings that are on. -/
  settings : List Char := []
  /-- What is run at signals. -/
  traps : List (Nat × Bytes) := []
  /-- How many loops are around the current command. -/
  loops : Nat := 0
  /-- The values that variables had before a function declared them as its own. -/
  covered : List (List (String × Option Variable)) := []
  /-- How many letters of the current argument were read as options. -/
  optionOffset : Nat := 0

structure Machine where
  disk : Disk
  session : Session
  /-- All streams; the first one is shown. -/
  streams : Array Stream := #[.pipe #[] 0, .nothing]
  /-- The status of the last command. -/
  status : Nat := 0
  /-- The line of the current command. -/
  line : Nat := 1
  /-- The time that has passed, and the time there is, in milliseconds. -/
  elapsed : Nat := 0
  limit : Nat
  texts : Texts := []
  /-- The status of the last script whose output was put into a word. -/
  substituted : Option Nat := none
  /-- The commands in the background, with their statuses. -/
  jobs : List (Nat × Nat) := []
  /-- The command that reads the current text, as it is named in complaints. -/
  reading : String := ""
  /-- The signals that wait for their traps. -/
  pending : List Nat := []

inductive Halt where
  | exit (status : Nat)
  /-- There was a mistake. -/
  | failed
  | return_ (status : Nat)
  | break_ (levels : Nat)
  | continue_ (levels : Nat)
  | killed (signal : Nat)
  | timedOut

abbrev Running := ExceptT Halt (StateM Machine)

def attempt {α : Type} (x : Running α) : Running (Except Halt α) := fun m =>
  match x m with
  | (r, m) => (.ok r, m)

def session : Running Session := do
  return (← get).session

def modifySession (f : Session → Session) : Running Unit :=
  modify fun m => { m with session := f m.session }

def setStatus (status : Nat) : Running Unit :=
  modify fun m => { m with status }

/-! ## Streams -/

def Machine.shown (m : Machine) : Bytes :=
  match (m.streams[0]? : Option Stream) with
  | some (.pipe content _) => content.toList
  | _ => []

def addStream (s : Stream) : Running Nat := do
  let m ← get
  set { m with streams := m.streams.push s }
  return m.streams.size

def channel? (c : Nat) : Running (Option Nat) := do
  return (← session).channels.lookup c

def setChannel (c stream : Nat) : Running Unit :=
  modifySession fun s => { s with channels := assign c stream s.channels }

def closeChannel (c : Nat) : Running Unit :=
  modifySession fun s => { s with channels := unassign c s.channels }

/-- The content of a file behind a change at an offset. -/
def overwritten (content : Bytes) (offset : Nat) (bs : Bytes) : Bytes :=
  content.take offset ++ List.replicate (offset - content.length) 0 ++ bs
    ++ content.drop (offset + bs.length)

/-- Write bytes; `false` if the channel leads nowhere. -/
def write (c : Nat) (bs : Bytes) : Running Bool := do
  match ← channel? c with
  | none => return false
  | some i =>
    modify fun m =>
      match (m.streams[i]? : Option Stream) with
      | some (.pipe _ _) =>
        { m with
          streams := m.streams.modify i fun
            | .pipe content used => .pipe (content ++ bs.toArray) used
            | s => s }
      | some (.file place offset append) =>
        match m.disk.node? place with
        | some (.file content mode) =>
          let at_ := if append then content.length else offset
          { m with
            disk := m.disk.put place (.file (overwritten content at_ bs) mode)
            streams := m.streams.modify i fun _ => .file place (at_ + bs.length) append }
        | _ => m
      | _ => m
    return true

def writeText (c : Nat) (s : String) : Running Unit := do
  let _ ← write c (Text.utf8 s)

def remaining (c : Nat) : Running Bytes := do
  match ← channel? c with
  | none => return []
  | some i =>
    let m ← get
    match (m.streams[i]? : Option Stream) with
    | some (.pipe content used) => return (content.extract used content.size).toList
    | some (.file place offset _) =>
      match m.disk.node? place with
      | some (.file content _) => return content.drop offset
      | _ => return []
    | some .zeros => return List.replicate endless 0
    | _ => return []

def consume (c count : Nat) : Running Unit := do
  match ← channel? c with
  | none => return
  | some i =>
    modify fun m =>
      { m with
        streams := m.streams.modify i fun
          | .pipe content used => .pipe content (used + count)
          | .file place offset append => .file place (offset + count) append
          | s => s }

def scene : Running Scene := do
  let m ← get
  let isFile := match (m.session.channels.lookup 0).bind fun i => m.streams[i]? with
    | some (.file _ _ _) => true
    | _ => false
  return { disk := m.disk, place := m.session.place, input := ← remaining 0, inputIsFile := isFile }

def bareScene : Running Scene := do
  let m ← get
  return { disk := m.disk, place := m.session.place, input := [] }

def perform (r : Reply) : Running Nat := do
  for (c, bs) in r.writes do
    let _ ← write c bs
  match r.disk with
  | some disk => modify fun m => { m with disk }
  | none => pure ()
  if r.reads then consume 0 (← remaining 0).length
  return r.status

/-! ## Messages -/

def complain (what : String) : Running Unit := do
  let m ← get
  writeText 2 (textOf m.session.name ++ ": " ++ Decimal.digitText m.line ++ ": " ++ what ++ "\n")

def fail {α : Type} (what : String) : Running α := do
  complain what
  throw .failed

/-- A complaint of the script itself. It names the command that reads the current text. -/
def object (what : String) : Running Unit := do
  complain ((← get).reading ++ what)

def reject {α : Type} (what : String) : Running α := do
  object what
  throw .failed

/-! ## Variables -/

def variableOf? (name : String) : Running (Option Variable) := do
  return (← session).bindings.lookup name

def value? (name : String) : Running (Option Bytes) := do
  return (← variableOf? name).bind (·.value)

def assignVariable (name : String) (value : Bytes) : Running Unit := do
  let old := (← variableOf? name).getD {}
  if old.fixed then fail (name ++ ": is read only")
  let exported := old.exported || (← session).settings.contains 'a'
  modifySession fun s =>
    { s with
      bindings := assign name { old with value := some value, exported } s.bindings
      optionOffset := if name = "OPTIND" then 0 else s.optionOffset }

def isSetting (c : Char) : Running Bool := do
  return (← session).settings.contains c

/-- The letters of the settings in the order in which they are told. -/
def settingLetters : List (Char × String) :=
  [('e', "errexit"), ('f', "noglob"), ('I', "ignoreeof"), ('i', "interactive"), ('m', "monitor"),
    ('n', "noexec"), ('s', "stdin"), ('x', "xtrace"), ('v', "verbose"), ('V', "vi"), ('E', "emacs"),
    ('C', "noclobber"), ('a', "allexport"), ('b', "notify"), ('u', "nounset")]

def parameter? (name : String) : Running (Option Bytes) := do
  let m ← get
  let s := m.session
  let number (n : Nat) : Option Bytes := some (Text.utf8 (Decimal.digitText n))
  match name with
  | "?" => return number m.status
  | "$" => return number s.number
  | "#" => return number s.arguments.length
  | "!" => return m.jobs.head?.bind fun j => number j.1
  | "-" =>
    return some (Text.utf8 (String.ofList
      ((settingLetters.map (·.1)).reverse.filter s.settings.contains)))
  | "0" => return some s.name
  | "LINENO" => return number m.line
  | _ =>
    if name.toList.all Char.isDigit then
      return s.arguments[(name.toNat?.getD 0) - 1]?
    else value? name

/-! ## Fields -/

inductive Atom where
  /-- A byte; it may end a field if it came from a value without quotes. -/
  | byte (b : UInt8) (quoted splits : Bool)
  /-- Quotes: the field is kept even if it is empty. -/
  | quote
  /-- The end of a field. -/
  | cut
  deriving DecidableEq

def atomsOf (quoted : Bool) (bs : Bytes) : List Atom :=
  (if quoted then [.quote] else []) ++ bs.map (.byte · quoted !quoted)

def separators : Running Bytes := do
  return (← value? "IFS").getD [32, 9, 10]

/-- The fields of an expanded word. `current` is the field so far, backwards, if there is one;
`blank` says that a blank has just ended a field, so that another separator belongs to it. -/
def split (ifs : Bytes) : (current : Option (List Marked)) → (blank : Bool) → List Atom →
    List (List Marked)
  | none, _, [] => []
  | some f, _, [] => [f.reverse]
  | current, blank, a :: as =>
    match a with
    | .cut => (current.map List.reverse).toList ++ split ifs none false as
    | .quote => split ifs (some (current.getD [])) false as
    | .byte b quoted splits =>
      if splits && ifs.contains b then
        if b = 32 || b = 9 || b = 10 then
          match current with
          | some f => f.reverse :: split ifs none true as
          | none => split ifs none blank as
        else
          match current with
          | some f => f.reverse :: split ifs none false as
          | none => if blank then split ifs none false as else [] :: split ifs none false as
      else split ifs (some ((b, quoted) :: current.getD [])) false as

def fieldsOf (ifs : Bytes) (as : List Atom) : List (List Marked) :=
  split ifs none false as

def markedOf : List Atom → List Marked
  | [] => []
  | .byte b quoted _ :: as => (b, quoted) :: markedOf as
  | .quote :: as => markedOf as
  | .cut :: as => (32, true) :: markedOf as

def plainOf (as : List Atom) : Bytes :=
  (markedOf as).map (·.1)

end Deadwood.Shell
