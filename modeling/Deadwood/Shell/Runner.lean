import Deadwood.Shell.Builtin

/-!
# Running parts of scripts

Scripts are nested: words hold scripts, functions call functions, and commands start other scripts.
What runs them one level deeper is a value of its own, so that every part of the work is defined for
a given level.

## Main definitions

* `Shell.Runner`: what runs the parts one level deeper.
* `Shell.enclosed`, `Shell.leaving`: scripts inside of scripts, and their ends.
* `Shell.runSteps`, `Shell.captured`: steps, and what they write.
-/

namespace Deadwood.Shell

/-- What runs the parts of a script one level deeper. A flag `tested` says that failures are looked
at, so that they do not end the script. -/
structure Runner where
  expand : (splits : Bool) → Word → Running (List Atom)
  command : (tested : Bool) → Command → Running Unit
  text : (tested : Bool) → Bytes → Running Unit
  /-- Call a command that is no function. -/
  other : (tested : Bool) → (word : Bytes) → (args : List Bytes) → Running Nat
  tool : (word : Bytes) → (args : List Bytes) → Running Nat

/-- The runner below the last level: scripts that are nested so deep break down. -/
def Runner.deepest : Runner where
  expand _ _ := throw (.killed 11)
  command _ _ := throw (.killed 11)
  text _ _ := throw (.killed 11)
  other _ _ _ := throw (.killed 11)
  tool _ _ := throw (.killed 11)

/-- A script inside of the script: it changes nothing of the session around it. -/
def inside (x : Running Nat) : Running Nat := do
  let saved ← session
  let line := (← get).line
  modifySession fun s =>
    { s with traps := s.traps.filter (·.2.isEmpty) }
  let r ← attempt x
  modify fun m => { m with line, session := saved }
  match r with
  | .ok status => return status
  | .error h => throw h

/-- Run something to its end, and then what is to be run at the end. -/
def leaving (r : Runner) (x : Running Unit) : Running Nat := do
  let ended (e : Except Halt Unit) : Running Nat := do
    match e with
    | .ok _ => return (← get).status
    | .error (.exit status) | .error (.return_ status) => return status % 256
    | .error .failed => return 2
    | .error (.break_ _) | .error (.continue_ _) => return 0
    | .error h => throw h
  let status ← ended (← attempt x)
  match (← session).traps.lookup 0 with
  | none => return status
  | some action =>
    modifySession fun s => { s with traps := unassign 0 s.traps }
    setStatus status
    match ← attempt (r.text false action) with
    | .ok _ => return status
    | e => ended e

/-- Run a script inside of the script; answers its status. -/
def enclosed (r : Runner) (x : Running Unit) : Running Nat :=
  inside (leaving r x)

/-- Run what is to be run at signals that arrived, `fuel` of them at most. -/
def runTraps (r : Runner) : (fuel : Nat) → Running Unit
  | 0 => throw .timedOut
  | fuel + 1 => do
    let m ← get
    match m.pending with
    | [] => return
    | n :: later =>
      set { m with pending := later }
      match m.session.traps.lookup n with
      | some action =>
        r.text false action
        setStatus m.status
      | none => pure ()
      runTraps r fuel

/-! ## Steps -/

/-- End the script if a command failed and the setting asks for it. -/
def leaveOnFailure (tested : Bool) : Running Unit := do
  let status := (← get).status
  if status ≠ 0 && !tested && (← isSetting 'e') then throw (.exit status)

/-- Run commands that are joined by pipes; `input` is the stream that the first one reads, unless it
is the input of all of them. They all see the status from `before`. -/
def runPipe (r : Runner) (before : Nat) : (input : Option Nat) → List Command → Running Unit
  | _, [] => return
  | input, c :: cs => do
    let i ← addStream (.pipe #[] 0)
    setStatus before
    let status ← enclosed r do
      match input with
      | some stream => setChannel 0 stream
      | none => pure ()
      if !cs.isEmpty then setChannel 1 i
      r.command true c
    setStatus status
    runPipe r before (some i) cs

def isChained : Script → Bool
  | .mk .always _ _ :: _ => false
  | [] => false
  | _ => true

/-- Run steps, each if the status of those before it admits it. -/
def runSteps (r : Runner) (tested : Bool) : Script → Running Unit
  | [] => return
  | .mk joint negated commands :: rest => do
    let status := (← get).status
    let wanted := match joint with
      | .always => true
      | .onSuccess => status = 0
      | .onFailure => status ≠ 0
    if wanted then
      let guarded := tested || isChained rest || negated
      match commands with
      | [c] => r.command guarded c
      | cs =>
        runPipe r status none cs
        leaveOnFailure guarded
      if negated then setStatus (if (← get).status = 0 then 1 else 0)
    runSteps r tested rest

def withoutEnds (bs : Bytes) : Bytes :=
  ((bs.reverse.dropWhile (· = 10)).reverse).filter (· ≠ 0)

def captured (r : Runner) (body : Script) : Running Bytes := do
  let i ← addStream (.pipe #[] 0)
  let status ← enclosed r do
    setChannel 1 i
    runSteps r false body
  let m ← get
  let out : Bytes := match (m.streams[i]? : Option Stream) with
    | some (.pipe content _) => content.toList
    | _ => []
  -- The last stream is not needed any more.
  set { m with
    streams := if m.streams.size = i + 1 then m.streams.pop else m.streams
    substituted := some status
    status }
  return withoutEnds out

end Deadwood.Shell
