import Deadwood.Shell.Expand
import Deadwood.Shell.Process
import Deadwood.Validation

/-!
# Running scripts

A script runs on a value of the disk and for a limited time. It is read line by line, and a line
runs before the next one is read. Both streams of its commands are shown together, in the order in
which they are written. Commands that are joined by pipes run one after the other, each on all that
the one before it wrote.

## Main definitions

* `Shell.call`, `Shell.runSimple`, `Shell.runCompound`, `Shell.runCommand`: commands.
* `Shell.runText`: a text as a script.
* `Shell.runner`: running, down to a given level.
* `Shell.run`: a whole script, as a runner of commands.
-/

namespace Deadwood.Shell

/-! ## Calls -/

/-- Run a text for a command that reads it; answers its status. -/
def readFor (r : Runner) (tested : Bool) (command : String) (text : Bytes) : Running Nat := do
  let before ← get
  setStatus 0
  modify fun m => { m with reading := command ++ ": " }
  let ended ← attempt (r.text tested text)
  modify fun m => { m with line := before.line, reading := before.reading }
  match ended with
  | .ok _ => return (← get).status
  | .error h => throw h

def source (r : Runner) (tested : Bool) (path : String) : Running Nat := do
  if !path.toList.contains '/' then fail (".: " ++ path ++ ": not found")
  match (← bareScene).read path endless with
  | .error _ => fail (".: cannot open " ++ path ++ ": No such file")
  | .ok text =>
    match ← attempt (readFor r tested path text) with
    | .ok status | .error (.return_ status) => return status
    | .error h => throw h

def tolerant (x : Running Nat) : Running Nat := do
  match ← attempt x with
  | .ok status => return status
  | .error .failed => return 2
  | .error h => throw h

def callFunction (r : Runner) (tested : Bool) (name : String) (args : List Bytes) :
    Running Nat := do
  let before ← session
  match before.functions.lookup name with
  | none => return 127
  | some body =>
    modifySession fun s =>
      { s with
        arguments := args
        loops := 0
        covered := [] :: s.covered }
    let ended ← attempt (r.command tested body)
    modifySession fun s =>
      { s with
        arguments := before.arguments
        loops := before.loops
        channels := before.channels
        covered := before.covered
        bindings := (s.covered.headD []).foldl (fun vs (n, v) =>
          match v with
          | some v => assign n v vs
          | none => unassign n vs) s.bindings }
    match ended with
    | .ok _ => return (← get).status
    | .error (.return_ status) => return status
    | .error h => throw h

def callOther (r : Runner) (tested replacing : Bool) (word : Bytes) (args : List Bytes) :
    Running Nat := do
  let name := textOf word
  match (if replacing then none else builtin? name) with
  | some run => if specials.contains name then run args else tolerant (run args)
  | none =>
    if name = "command" && !replacing then
      match args.map textOf, args with
      | "-v" :: target :: _, _ => resolve target
      | "-V" :: _, _ :: targets => typeBuiltin (targets.take 1)
      | "-p" :: _, _ :: inner :: rest => tolerant (r.other tested inner rest)
      | _, inner :: rest => tolerant (r.other tested inner rest)
      | _, [] => return 0
    else callTool r replacing word args

/-- Call a function or another command by its name; answers its status, and whether its redirections
stay. -/
def call (r : Runner) (tested isFunction : Bool) (word : Bytes) (args : List Bytes) :
    Running (Nat × Bool) := do
  let name := textOf word
  if isFunction then return (← callFunction r tested name args, false)
  else
    match name, args with
    | "exec", [] => return (0, true)
    | "exec", command :: args =>
      let status ← callOther r tested true command args
      throw (.exit status)
    | "eval", args => return (← readFor r tested "eval" (args.intersperse [32]).flatten, false)
    | ".", [] => fail ".: filename argument required"
    | ".", path :: _ => return (← source r tested (textOf path), false)
    | _, _ => return (← callOther r tested false word args, false)

/-! ## Commands -/

def runSimple (r : Runner) (tested : Bool) (assigned : List (String × Word)) (words : List Word)
    (rs : List Redirect) : Running Unit := do
  modify fun m => { m with substituted := none }
  let fields ← expandFields r words
  let before ← session
  let name := textOf (fields.headD [])
  let special := specials.contains name
  let isFunction := (before.functions.lookup name).isSome
  let restore : Running Unit := modifySession fun s => { s with channels := before.channels }
  if !(← redirected r rs) then
    restore
    setStatus 2
    if special && !isFunction && !fields.isEmpty then throw .failed
  else
    let given ← assignAll r assigned
    if ← isSetting 'x' then
      let trace := given.map (fun (n, v) => Text.utf8 (n ++ "=") ++ v) ++ fields
      let line := (← value? "PS4").getD [] ++ (trace.intersperse [32]).flatten ++ [10]
      let now := (← session).channels
      restore
      let _ ← write 2 line
      modifySession fun s => { s with channels := now }
    match fields with
    | [] =>
      restore
      setStatus ((← get).substituted.getD 0)
    | word :: args =>
      let kept := (special && !isFunction) || given.isEmpty
      if !kept then
        for (n, _) in given do
          modifySession fun s =>
            { s with
              bindings := assign n { (s.bindings.lookup n).getD {} with exported := true }
                s.bindings }
      let ended ← attempt (call r tested isFunction word args)
      -- The values that were given are for this command only.
      if !kept then
        modifySession fun s =>
          { s with bindings := given.foldl (fun vs (n, _) =>
              match before.bindings.lookup n with
              | some v => assign n v vs
              | none => unassign n vs) s.bindings }
      match ended with
      | .ok (status, stays) =>
        if !stays then restore
        setStatus status
      | .error h =>
        restore
        throw h

/-- Run the body of a loop; answers whether the loop goes on. -/
def runBody (x : Running Unit) : Running Bool := do
  let loops := (← session).loops
  let channels := (← session).channels
  match ← attempt x with
  | .ok _ => return true
  | .error (.break_ n) =>
    modifySession fun s => { s with loops, channels }
    setStatus 0
    if 1 < n then
      modifySession fun s => { s with loops := s.loops - 1 }
      throw (.break_ (n - 1))
    return false
  | .error (.continue_ n) =>
    modifySession fun s => { s with loops, channels }
    setStatus 0
    if 1 < n then
      modifySession fun s => { s with loops := s.loops - 1 }
      throw (.continue_ (n - 1))
    return true
  | .error h => throw h

/-- Repeat a body as long as a test has the wanted outcome; `last` is the status of the body. -/
def runLoop (r : Runner) (tested wanted : Bool) (test body : Script) :
    (fuel : Nat) → (last : Nat) → Running Unit
  | 0, _ => throw .timedOut
  | fuel + 1, last => do
    if ← runBody (runSteps r true test) then
      if ((← get).status = 0) = wanted then
        if ← runBody (runSteps r tested body) then
          runLoop r tested wanted test body fuel (← get).status
      else setStatus last

def runEach (r : Runner) (tested : Bool) (name : String) (body : Script) :
    List Bytes → Running Unit
  | [] => return
  | v :: vs => do
    assignVariable name v
    if ← runBody (runSteps r tested body) then runEach r tested name body vs

def anyFits (r : Runner) (text : Bytes) : List Word → Running Bool
  | [] => return false
  | p :: ps => do
    if (Pattern.ofBytes (← expandMarked r p)).fits text then return true else anyFits r text ps

def runArms (r : Runner) (tested : Bool) (text : Bytes) : List (List Word × Script) → Running Unit
  | [] => return
  | (patterns, body) :: arms => do
    if ← anyFits r text patterns then runSteps r tested body else runArms r tested text arms

/-- How many steps a script may take before it is taken for endless. -/
def patience : Nat := 100000

def runCompound (r : Runner) (tested : Bool) : Compound → Running Unit
  | .group body => runSteps r tested body
  | .enclosed body => do
    setStatus (← enclosed r (runSteps r tested body))
  | .background body => do
    let status ← enclosed r do
      setChannel 0 (← addStream .nothing)
      runSteps r tested body
    modify fun m =>
      { m with status := 0, jobs := (m.session.number + m.jobs.length + 1, status) :: m.jobs }
  | .choice test yes no => do
    runSteps r true test
    if (← get).status = 0 then runSteps r tested yes
    else if no.isEmpty then setStatus 0
    else runSteps r tested no
  | .loop wanted test body => do
    modifySession fun s => { s with loops := s.loops + 1 }
    runLoop r tested wanted test body patience 0
    modifySession fun s => { s with loops := s.loops - 1 }
  | .each name words body => do
    let values ← match words with
      | some ws => expandFields r ws
      | none => pure (← session).arguments
    setStatus 0
    modifySession fun s => { s with loops := s.loops + 1 }
    runEach r tested name body values
    modifySession fun s => { s with loops := s.loops - 1 }
  | .select subject arms => do
    let text ← expandText r (withHome (← value? "HOME") subject)
    setStatus 0
    runArms r tested text arms

def runCommand (r : Runner) (tested : Bool) : Command → Running Unit
  | .simple line assigned words rs => do
    modify fun m => { m with line }
    runSimple r tested assigned words rs
    runTraps r patience
    leaveOnFailure tested
  | .define name body => do
    modifySession fun s => { s with functions := assign name body s.functions }
    setStatus 0
  | .compound body rs => do
    let saved := (← session).channels
    if ← redirected r rs then
      let ended ← attempt (runCompound r tested body)
      modifySession fun s => { s with channels := saved }
      match ended with
      | .ok _ => pure ()
      | .error h => throw h
    else
      modifySession fun s => { s with channels := saved }
      setStatus 2
    runTraps r patience
    match body with
    | .enclosed _ => leaveOnFailure tested
    | _ => return

/-! ## Texts -/

def runLines (r : Runner) (tested : Bool) : (fuel : Nat) → Source → Running Unit
  | 0, _ => return
  | fuel + 1, source => do
    match nextLine source with
    | .error e =>
      modify fun m => { m with line := e.line }
      reject ("Syntax error: " ++ e.message)
    | .ok none => return
    | .ok (some (script, source)) =>
      modify fun m => { m with texts := source.texts }
      if !(← isSetting 'n') then runSteps r tested script
      runLines r tested fuel { source with texts := (← get).texts }

def runText (r : Runner) (tested : Bool) (text : Bytes) : Running Unit := do
  let texts := (← get).texts
  let chars := (textOf text).toList
  runLines r tested (chars.length + 1) { rest := chars, texts, count := texts.length }

def runner : (level : Nat) → Runner
  | 0 => .deepest
  | level + 1 =>
    let below := runner level
    { expand := expandPieces below
      command := runCommand below
      text := runText below
      other := fun tested word args => do return (← call below tested false word args).1
      tool := callTool below false }

/-! ## Whole scripts -/

def commonPlaces : List Location :=
  [["tmp"], ["bin"], ["usr"], ["usr", "bin"], ["usr", "local"], ["etc"], ["dev"], ["home"],
    ["root"], ["var"], ["var", "tmp"], ["proc"]]

def firstVariables (place : Location) : List (String × Variable) :=
  let given (exported : Bool) (name value : String) : String × Variable :=
    (name, { value := some (Text.utf8 value), exported })
  [given true "HOME" "/root", given false "IFS" " \t\n", given false "OPTIND" "1",
    given true "PATH" "/usr/local/sbin:/usr/local/bin:/usr/sbin:/usr/bin:/sbin:/bin",
    given false "PPID" "99", given false "PS1" "# ", given false "PS2" "> ", given false "PS4" "+ ",
    given true "PWD" (placeText place)]

def deepestLevel : Nat := 2000

/-- A text that looks like an option is one, and then there is no script. -/
def optionProblem? (text : String) : Option String :=
  match text.toList with
  | sign :: c :: cs =>
    if sign ≠ '-' && sign ≠ '+' then none
    else if text = "--" then some "-c requires an argument"
    else
      let known (c : Char) : Bool := (settingLetters.lookup c).isSome || c = 'c'
      match (c :: cs).find? fun c => !known c with
      | some c => some ("Illegal option -" ++ String.singleton c)
      | none => some "-c requires an argument"
  | _ => none

def run : CommandRunner := fun limit text disk =>
  let added := commonPlaces.filter fun l => (disk.node? l).isNone
  let session : Session := {
    place := disk.workDir
    channels := [(0, 1), (1, 0), (2, 0)]
    bindings := firstVariables disk.workDir }
  let start : Machine := {
    disk := added.foldl (fun d l => d.put l .directory) disk
    session
    limit }
  let r := runner deepestLevel
  let script : Running Unit := match optionProblem? text with
    | some problem => do
      writeText 2 ("sh: 0: " ++ problem ++ "\n")
      throw .failed
    | none => r.text false (Text.utf8 text)
  let (ended, m) := (leaving r script) start
  let finish : CommandEnd := match ended with
    | .ok status => .exited status
    | .error (.killed n) => .killed (signalReport n)
    | .error _ => .timedOut
  (finish, m.shown, added.foldl (fun d l => d.erase l) m.disk)

end Deadwood.Shell
