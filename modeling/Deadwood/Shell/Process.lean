import Deadwood.Shell.Runner

/-!
# Starting tools

Tools by their names or paths: those that only answer, those that call other ones, and scripts in
processes of their own.

## Main definitions

* `Shell.sleep`, `Shell.yes`: tools that take time.
* `Shell.startText`, `Shell.startShell`, `Shell.startScript`: other scripts.
* `Shell.callTool`: any tool.
-/

namespace Deadwood.Shell

/-! ## Time -/

def pause (ms : Nat) : Running Unit := do
  modify fun m => { m with elapsed := m.elapsed + ms }
  let m ← get
  if m.limit ≤ m.elapsed then throw .timedOut

/-- A number of seconds with a unit behind it, in milliseconds. -/
def milliseconds? (s : String) : Option Nat :=
  let body := s.toList.takeWhile fun c => c.isDigit || c = '.'
  let unit : Option Nat := match s.toList.drop body.length with
    | [] | ['s'] => some 1000
    | ['m'] => some 60000
    | ['h'] => some 3600000
    | ['d'] => some 86400000
    | _ => none
  match unit, Text.segments '.' (String.ofList body) with
  | some u, [whole] => whole.toNat?.map (· * u)
  | some u, [whole, part] => do
    let n ← if whole = "" then some 0 else whole.toNat?
    let f ← ((part ++ "000").toList.take 3 |> String.ofList).toNat?
    if whole = "" && part = "" then none else some (n * u + f * u / 1000)
  | _, _ => none

def sleep (args : List Bytes) : Running Nat := do
  match args.mapM fun a => milliseconds? (textOf a) with
  | some (t :: ts) =>
    pause (ts.foldl (· + ·) t)
    return 0
  | some [] => perform (missingOperand "sleep")
  | none =>
    let bad := (args.find? fun a => (milliseconds? (textOf a)).isNone).getD []
    perform (Reply.refusal 1 ("sleep: invalid time interval '" ++ textOf bad
      ++ "'\nTry 'sleep --help' for more information."))

/-- Write a line again and again, as long as someone may read it. -/
def yes (args : List Bytes) : Running Nat := do
  let line := (if args.isEmpty then [121] else (args.intersperse [32]).flatten) ++ [10]
  match ← channel? 1 with
  | some i =>
    let _ ← write 1 (List.replicate (endless / 10 / line.length + 1) line).flatten
    let m ← get
    match (m.streams[i]? : Option Stream), i with
    | some (.pipe _ _), _ + 1 => return 141
    | _, _ => throw .timedOut
  | none => return 1

def exportedLines : Running (List (String × Bytes)) := do
  return (← session).bindings.filterMap fun (n, v) =>
    if v.exported then v.value.map (n, ·) else none

/-! ## Other scripts -/

def startText (r : Runner) (name : Bytes) (args : List Bytes) (settings : List Char)
    (text : Bytes) : Running Nat := do
  let before ← get
  let s := before.session
  modify fun m =>
    { m with
      status := 0
      line := 1
      reading := ""
      session := { s with
        name
        arguments := args
        number := s.number + 1000
        functions := []
        bindings := s.bindings.filter (·.2.exported)
        settings
        traps := []
        loops := 0
        covered := [] } }
  let ended ← attempt (enclosed r (r.text false text))
  modify fun m =>
    { m with line := before.line, reading := before.reading, session := s, jobs := before.jobs }
  match ended with
  | .ok status => return status
  | .error (.killed n) =>
    let notice := signalNotice n
    if notice ≠ "" then writeText 2 (notice ++ "\n")
    return 128 + n
  | .error h => throw h

def startShell (r : Runner) (name : String) (args : List Bytes) : Running Nat := do
  let flags := args.takeWhile fun a => a.head? = some 45 && 1 < a.length
  let letters := flags.flatMap fun f => (textOf f).toList.drop 1
  let settings := letters.filter fun c => c ≠ 'c' && (settingLetters.lookup c).isSome
  let operands := args.drop flags.length
  if letters.contains 'c' then
    match operands with
    | [] =>
      writeText 2 (name ++ ": 0: -c requires an argument\n")
      return 2
    | [text] => startText r (Text.utf8 name) [] settings text
    | text :: zero :: rest => startText r zero rest settings text
  else
    match operands with
    | [] =>
      let text ← remaining 0
      consume 0 text.length
      startText r (Text.utf8 name) [] settings text
    | path :: rest =>
      match (← bareScene).read (textOf path) endless with
      | .ok text => startText r path rest settings text
      | .error _ =>
        writeText 2 (name ++ ": 0: cannot open " ++ textOf path ++ ": No such file\n")
        return 2

def startScript (r : Runner) (path : Bytes) (args : List Bytes) (content : Bytes) :
    Running Nat := do
  let line := textOf (content.takeWhile (· ≠ 10))
  let interpreter := (Text.stripStart "#!" line).toList.dropWhile (· = ' ') |> String.ofList
  let words := (Text.segments ' ' interpreter).filter (· ≠ "")
  if Text.startsWith "#!" line then
    match words with
    | [] => startText r path args [] content
    | program :: options =>
      let words := (options.map Text.utf8) ++ path :: args
      r.tool (Text.utf8 program) words
  else startText r path args [] content

/-! ## Tools that call tools -/

/-- Call a command with other exported variables, or list them. -/
def callEnv (r : Runner) (args : List Bytes) : Running Nat := do
  let given := args.takeWhile fun a => a.contains 61
  let saved := (← session).bindings
  for a in given do
    let (name, value) := assignment? a
    modifySession fun s =>
      { s with bindings := assign name { value, exported := true } s.bindings }
  let status ← match args.drop given.length with
    | [] =>
      for (n, v) in ← exportedLines do
        let _ ← write 1 (Text.utf8 (n ++ "=") ++ v ++ [10])
      pure 0
    | word :: rest =>
      let name := textOf word
      if isTool name || name.toList.contains '/' then r.tool word rest
      else
        writeText 2 ("env: '" ++ name ++ "': No such file or directory\n")
        pure 127
  modifySession fun s => { s with bindings := saved }
  return status

def callTimed (r : Runner) (args : List Bytes) : Running Nat := do
  match args with
  | time :: word :: rest =>
    match milliseconds? (textOf time) with
    | none => perform (Reply.refusal 125 ("timeout: invalid time interval '" ++ textOf time
        ++ "'\nTry 'timeout --help' for more information."))
    | some ms =>
      let m ← get
      let limit := if ms = 0 then m.limit else min m.limit (m.elapsed + ms)
      set { m with limit }
      let ended ← attempt (r.tool word rest)
      modify fun n => { n with limit := m.limit, session := m.session }
      match ended with
      | .ok status => return status
      | .error .timedOut =>
        modify fun n => { n with elapsed := limit }
        if m.limit ≤ limit then throw .timedOut
        return 124
      | .error h => throw h
  | _ => perform (missingOperand "timeout")

def callEach (r : Runner) : List (List Bytes) → (status : Nat) → Running Nat
  | [], status => return status
  | [] :: cs, status => callEach r cs status
  | (word :: args) :: cs, status => do
    let now ← r.tool word args
    callEach r cs (if now = 0 then status else if now = 127 then 127 else 123)

/-- Groups of at most `size` words. There is one at least. -/
def groups (size : Nat) : (fuel : Nat) → List Bytes → List (List Bytes)
  | 0, _ => []
  | fuel + 1, ws =>
    if ws.length ≤ size then [ws] else ws.take size :: groups size fuel (ws.drop size)

/-- Call a command with the words of the input as further arguments. -/
def callMany (r : Runner) (args : List Bytes) : Running Nat := do
  let input ← remaining 0
  consume 0 input.length
  let words := (fieldsOf [32, 9, 10] (input.map (.byte · false true))).map fun f => f.map (·.1)
  let each (command : List Bytes) (size : Nat) : Running Nat :=
    let command := if command.isEmpty then [Text.utf8 "echo"] else command
    callEach r ((groups (max 1 size) (words.length + 1) words).map (command ++ ·)) 0
  let args : List Bytes := match args with
    | (45 :: 73 :: b :: bs) :: rest => [45, 73] :: (b :: bs) :: rest
    | (45 :: 110 :: b :: bs) :: rest => [45, 110] :: (b :: bs) :: rest
    | args => args
  match args.map textOf, args with
  | "-n" :: count :: _, _ :: _ :: command => each command (count.toNat?.getD 1)
  | "-I" :: mark :: _, _ :: _ :: command =>
    let put (line word : Bytes) : Bytes := if word = Text.utf8 mark then line else word
    callEach r ((linesOf input).map fun l => command.map (put l)) 0
  | _, command => each command words.length

/-- The same tool as the command of the script, but without escapes. -/
def echoTool (args : List Bytes) : Reply :=
  let flags := args.takeWhile fun a =>
    a.head? = some 45 && 1 < a.length && a.tail.all fun b => b = 110 || b = 101 || b = 69
  let has (b : UInt8) := flags.any fun f => f.contains b
  let texts := (args.drop flags.length).map fun a => if has 101 then (unescaped a).1 else a
  Reply.out ((texts.intersperse [32]).flatten ++ if has 110 then [] else [10])

/-! ## Any tool -/

def callTool (r : Runner) (replacing : Bool) (word : Bytes) (args : List Bytes) : Running Nat := do
  let path := textOf word
  let parts := Text.segments '/' path
  let known := ["/bin", "/usr/bin", ""].contains (Text.join "/" parts.dropLast)
  let name := parts.getLast?.getD ""
  let searched := (Text.segments ':' (textOf ((← value? "PATH").getD []))).any fun p =>
    p = "/usr/bin" || p = "/bin"
  let notFound (status : Nat) (what : String) : Running Nat := do
    if replacing then complain ("exec: " ++ path ++ ": " ++ what) else object (path ++ ": " ++ what)
    return status
  if path = "" then notFound 127 "Permission denied"
  else if known && (searched || 1 < parts.length) && isTool name then
    match tool? name with
    | some tool => perform (tool args (← scene))
    | none =>
      match name with
      | "sh" | "dash" | "bash" => startShell r name args
      | "sleep" => sleep args
      | "yes" => yes args
      | "env" => callEnv r args
      | "printenv" =>
        match args with
        | [] => callEnv r []
        | a :: _ =>
          match (← exportedLines).lookup (textOf a) with
          | some v =>
            let _ ← write 1 (v ++ [10])
            return 0
          | none => return 1
      | "timeout" => callTimed r args
      | "xargs" => callMany r args
      | "which" =>
        let mut status := 0
        for a in args do
          match ← toolPath? (textOf a) with
          | some p => writeText 1 (p ++ "\n")
          | none => status := 1
        return status
      | "echo" => perform (echoTool args)
      | _ =>
        match builtin? name with
        | some run => run args
        | none => return 127
  else if parts.length < 2 then notFound 127 "not found"
  else
    let s ← bareScene
    match s.disk.find (s.path path) with
    | .error _ => notFound 127 "not found"
    | .ok (_, .directory) => notFound 126 "Permission denied"
    | .ok (_, .file content mode) =>
      if mode / 64 % 2 = 1 || mode / 8 % 2 = 1 || mode % 2 = 1 then
        startScript r word args content
      else notFound 126 "Permission denied"

end Deadwood.Shell
