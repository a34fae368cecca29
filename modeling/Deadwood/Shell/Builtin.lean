import Deadwood.Shell.Format
import Deadwood.Shell.Machine
import Deadwood.Shell.Reader
import Deadwood.Shell.Tool

/-!
# Commands of the script itself

Commands that work on the machine and not only on the disk and the streams. A mistake in one of the
special ones ends the script; the other ones only fail.

## Main definitions

* `Shell.specials`, `Shell.builtins`: the names.
* `Shell.builtin?`: the command of a name.
-/

namespace Deadwood.Shell

def specials : List String :=
  [".", ":", "break", "continue", "eval", "exec", "exit", "export", "local", "readonly", "return",
    "set", "shift", "times", "trap", "unset"]

def builtins : List String :=
  specials ++ ["[", "alias", "bg", "cd", "chdir", "command", "echo", "false", "fg", "getopts",
    "hash", "jobs", "kill", "printf", "pwd", "read", "test", "true", "type", "ulimit", "umask",
    "unalias", "wait"]

def runners : List String :=
  ["sh", "dash", "bash", "env", "printenv", "xargs", "timeout", "sleep", "yes", "which"]

def isTool (name : String) : Bool :=
  (tool? name).isSome || runners.contains name
    || ["echo", "printf", "test", "[", "pwd", "kill"].contains name

abbrev Builtin := List Bytes → Running Nat

def mistake (what : String) : Running Nat := do
  complain what
  return 2

def natural? (bs : Bytes) : Option Nat :=
  (wholeNumber? (textOf bs)).bind fun i =>
    if 0 ≤ i && i < 2147483648 then some i.toNat else none

/-- A number as an argument; the script ends if it is none. -/
def naturalOr (name : String) (default_ : Nat) : List Bytes → Running Nat
  | [] => return default_
  | a :: _ =>
    match natural? a with
    | some n => return n
    | none => fail (name ++ ": Illegal number: " ++ textOf a)

/-! ## Writing and testing -/

def echoBuiltin : Builtin := fun args => do
  if ← write 1 (echo args) then return 0
  else
    complain "echo: echo: I/O error"
    return 1

def printfBuiltin : Builtin := fun args => do
  match (if args.head? = some [45, 45] then args.tail else args) with
  | [] => mistake "printf: usage: printf format [arg ...]"
  | template :: rest =>
    if args.head?.any fun a => a.head? = some 45 && 1 < a.length && a ≠ [45, 45] then
      fail ("printf: Illegal option " ++ textOf (template.take 2))
    let (out, complaints, ended) := format template rest
    for c in complaints do
      complain ("printf: " ++ c)
    let _ ← write 1 out
    return if ended then 2 else if complaints.isEmpty then 0 else 1

def testBuiltin (name : String) : Builtin := fun args => do
  let args : Option (List Bytes) :=
    if name = "test" then some args
    else if args.getLast?.any (fun a => a.head? = some 93) then some args.dropLast
    else none
  match args with
  | none => mistake "[: missing ]"
  | some args =>
    match condition (← bareScene) args with
    | .ok b => return if b then 0 else 1
    | .error e => mistake (name ++ ": " ++ e)

/-! ## Places -/

def placeText (l : Location) : String :=
  "/" ++ Text.join "/" l

def pwdBuiltin : Builtin := fun _ => do
  writeText 1 (placeText (← session).place ++ "\n")
  return 0

def cdBuiltin : Builtin := fun args => do
  let args := args.filter fun a => a ≠ Text.utf8 "-L" && a ≠ Text.utf8 "-P" && a ≠ [45, 45]
  let home := textOf ((← value? "HOME").getD [])
  let old := textOf ((← value? "OLDPWD").getD [])
  let back := args.head? = some [45]
  let target := match args with
    | [] => home
    | a :: _ => textOf a
  let target := if back then old else target
  let s ← bareScene
  match s.disk.find (if target = "" then s.path "." else s.path target) with
  | .ok (place, .directory) =>
    let before := (← session).place
    modifySession fun s => { s with place }
    assignVariable "OLDPWD" (Text.utf8 (placeText before))
    assignVariable "PWD" (Text.utf8 (placeText place))
    if back then writeText 1 (placeText place ++ "\n")
    return 0
  | _ => mistake ("cd: can't cd to " ++ target)

/-! ## Leaving -/

def exitBuiltin : Builtin := fun args => do
  throw (.exit (← naturalOr "exit" (← get).status args))

def returnBuiltin : Builtin := fun args => do
  throw (.return_ (← naturalOr "return" (← get).status args))

def levels (name : String) (args : List Bytes) : Running Nat := do
  match ← naturalOr name 1 args with
  | 0 => fail (name ++ ": Illegal number: " ++ textOf (args.headD []))
  | n => return min n (← session).loops

def breakBuiltin : Builtin := fun args => do
  match ← levels "break" args with
  | 0 => return 0
  | n => throw (.break_ n)

def continueBuiltin : Builtin := fun args => do
  match ← levels "continue" args with
  | 0 => return 0
  | n => throw (.continue_ n)

/-! ## Arguments and settings -/

def shiftBuiltin : Builtin := fun args => do
  let n ← naturalOr "shift" 1 args
  let s ← session
  if s.arguments.length < n then fail "shift: can't shift that many"
  modifySession fun s => { s with arguments := s.arguments.drop n }
  return 0

def setLetters (on : Bool) (cs : List Char) : Running Unit := do
  for c in cs do
    if (settingLetters.lookup c).isNone then
      fail ("set: Illegal option " ++ (if on then "-" else "+") ++ String.singleton c)
    modifySession fun s =>
      let others := s.settings.filter (· ≠ c)
      { s with settings := if on then c :: others else others }

def quotedValue (bs : Bytes) : Bytes :=
  39 :: (bs.flatMap fun b => if b = 39 then Text.utf8 "'\"'\"'" else [b]) ++ [39]

def listVariables (start : String) (wanted : Variable → Bool) : Running Unit := do
  let s ← session
  let names := sortedTexts (s.bindings.map (·.1))
  for n in names do
    match s.bindings.lookup n with
    | some v =>
      if wanted v then
        let value := match v.value with
          | some bs => 61 :: quotedValue bs
          | none => []
        let _ ← write 1 (Text.utf8 (start ++ n) ++ value ++ [10])
    | none => pure ()

def setArguments : List Bytes → Running Unit
  | [] => return
  | a :: rest => do
    let texts := (textOf a).toList
    match texts with
    | ['-', '-'] => modifySession fun s => { s with arguments := rest }
    | ['-'] =>
      setLetters false ['x', 'v']
      if !rest.isEmpty then modifySession fun s => { s with arguments := rest }
    | ['-', 'o'] | ['+', 'o'] =>
      match rest with
      | [] =>
        let s ← session
        writeText 1 ("Current option settings\n" ++ String.join (settingLetters.map fun (c, n) =>
          n ++ Text.repeated (16 - n.length) " "
            ++ (if s.settings.contains c then "on" else "off") ++ "\n"))
      | name :: rest =>
        match settingLetters.find? fun l => l.2 = textOf name with
        | some (c, _) =>
          setLetters (texts.head? = some '-') [c]
          setArguments rest
        | none => fail ("set: Illegal option " ++ textOf a ++ " " ++ textOf name)
    | '-' :: cs =>
      if cs.getLast? = some 'o' then
        setLetters true cs.dropLast
        match rest with
        | name :: rest =>
          match settingLetters.find? fun l => l.2 = textOf name with
          | some (c, _) =>
            setLetters true [c]
            setArguments rest
          | none => fail ("set: Illegal option -o " ++ textOf name)
        | [] => return
      else
        setLetters true cs
        setArguments rest
    | '+' :: cs =>
      setLetters false cs
      setArguments rest
    | _ => modifySession fun s => { s with arguments := a :: rest }

def setBuiltin : Builtin := fun args => do
  if args.isEmpty then listVariables "" fun v => v.value.isSome
  else setArguments args
  return 0

/-! ## Variables -/

def assignment? (a : Bytes) : String × Option Bytes :=
  let name := textOf (a.takeWhile (· ≠ 61))
  match a.dropWhile (· ≠ 61) with
  | _ :: value => (name, some value)
  | [] => (name, none)

def declare (command : String) (change : Variable → Variable) (args : List Bytes) :
    Running Unit := do
  for a in args do
    let (name, value) := assignment? a
    if !isName name then fail (command ++ ": " ++ name ++ ": bad variable name")
    match value with
    | some v => assignVariable name v
    | none => pure ()
    modifySession fun s =>
      { s with bindings := assign name (change ((s.bindings.lookup name).getD {})) s.bindings }

def exportBuiltin : Builtin := fun args => do
  if args.isEmpty || args = [Text.utf8 "-p"] then listVariables "export " (·.exported)
  else declare "export" (fun v => { v with exported := true }) args
  return 0

def readonlyBuiltin : Builtin := fun args => do
  if args.isEmpty || args = [Text.utf8 "-p"] then listVariables "readonly " (·.fixed)
  else declare "readonly" (fun v => { v with fixed := true }) args
  return 0

def localBuiltin : Builtin := fun args => do
  match (← session).covered with
  | [] => fail "local: not in a function"
  | _ =>
    for a in args do
      let (name, value) := assignment? a
      if !isName name then fail ("local: " ++ name ++ ": bad variable name")
      modifySession fun s =>
        match s.covered with
        | frame :: frames =>
          if (frame.lookup name).isSome then s
          else { s with covered := ((name, s.bindings.lookup name) :: frame) :: frames }
        | [] => s
      match value with
      | some v => assignVariable name v
      | none => pure ()
    return 0

def unsetBuiltin : Builtin := fun args => do
  let functions := args.head? = some (Text.utf8 "-f")
  let names := if functions || args.head? = some (Text.utf8 "-v") then args.tail else args
  for a in names do
    let name := textOf a
    if functions then
      modifySession fun s => { s with functions := unassign name s.functions }
    else
      if !isName name then fail ("unset: " ++ name ++ ": bad variable name")
      if ((← variableOf? name).getD {}).fixed then fail ("unset: " ++ name ++ ": is read only")
      modifySession fun s => { s with bindings := unassign name s.bindings }
  return 0

/-! ## Reading -/

/-- A line of the input with its escapes, how many bytes it takes, and whether it has an end. -/
def inputLine (raw : Bool) : Bytes → List Atom × Nat × Bool
  | [] => ([], 0, false)
  | 10 :: _ => ([], 1, true)
  | 92 :: 10 :: rest =>
    if raw then ([.byte 92 false true], 2, true)
    else
      let (as, n, ended) := inputLine raw rest
      (as, n + 2, ended)
  | 92 :: c :: rest =>
    let (as, n, ended) := inputLine raw rest
    (if raw then .byte 92 false true :: .byte c false true :: as else .byte c true false :: as,
      n + 2, ended)
  | b :: rest =>
    let (as, n, ended) := inputLine raw rest
    if b = 0 then (as, n + 1, ended) else (.byte b false true :: as, n + 1, ended)

def isSeparator (ifs : Bytes) : Atom → Bool
  | .byte b _ splits => splits && ifs.contains b
  | _ => false

def isBlankSeparator (ifs : Bytes) : Atom → Bool
  | .byte b _ splits => splits && ifs.contains b && (b = 32 || b = 9 || b = 10)
  | _ => false

/-- The values for `n` names: one field each, and all that is left for the last one. -/
def readFields (ifs : Bytes) : (n : Nat) → List Atom → List Bytes
  | 0, _ => []
  | 1, as =>
    let as := as.dropWhile (isBlankSeparator ifs)
    let bare := (as.reverse.dropWhile (isBlankSeparator ifs)).reverse
    -- A single separator behind a single field belongs to it.
    let field := bare.takeWhile fun a => !isSeparator ifs a
    if bare.length = field.length + 1 then [plainOf field] else [plainOf bare]
  | n + 1, as =>
    let as := as.dropWhile (isBlankSeparator ifs)
    let field := as.takeWhile fun a => !isSeparator ifs a
    let rest := (as.drop field.length).dropWhile (isBlankSeparator ifs)
    let rest := match rest with
      | a :: more => if isSeparator ifs a then more else rest
      | [] => []
    plainOf field :: readFields ifs n rest

def readBuiltin : Builtin := fun args => do
  match Options.read "r" "p" [] none args with
  | .error _ => mistake ("read: Illegal option " ++ textOf (args.headD []))
  | .ok o =>
    if o.operands.isEmpty then mistake "read: arg count"
    else
      for a in o.operands do
        if !isName (textOf a) then fail ("read: " ++ textOf a ++ ": bad variable name")
      let (as, n, ended) := inputLine (o.has 'r') (← remaining 0)
      consume 0 n
      let values := readFields (← separators) o.operands.length as
      for (a, i) in o.operands.zipIdx do
        assignVariable (textOf a) ((values[i]?).getD [])
      return if ended then 0 else 1

def getoptsBuiltin : Builtin := fun args => do
  match args with
  | letters :: name :: given =>
    let s ← session
    let all := if given.isEmpty then s.arguments else given
    let index := ((← value? "OPTIND").bind natural?).getD 1
    let name := textOf name
    let silent := letters.head? = some 58
    let move (index offset : Nat) : Running Unit := do
      assignVariable "OPTIND" (Text.utf8 (Decimal.digitText index))
      modifySession fun s => { s with optionOffset := offset }
    let current := (all[index - 1]?).getD []
    if s.optionOffset = 0 && (current.length < 2 || current.head? ≠ some 45) then
      assignVariable name [63]
      return 1
    else if s.optionOffset = 0 && current = [45, 45] then
      move (index + 1) 0
      assignVariable name [63]
      return 1
    else
      let offset := max 1 s.optionOffset
      let c := (current[offset]?).getD 0
      let rest := current.drop (offset + 1)
      let (next, after) := if rest.isEmpty then (index + 1, 0) else (index, offset + 1)
      let dropValue : Running Unit :=
        modifySession fun s => { s with bindings := unassign "OPTARG" s.bindings }
      let found := letters.dropWhile (· ≠ c)
      if found.isEmpty || c = 58 then
        move next after
        assignVariable name [63]
        if silent then assignVariable "OPTARG" [c]
        else
          dropValue
          writeText 2 ("Illegal option -" ++ textOf [c] ++ "\n")
        return 0
      else if found[1]? = some 58 then
        match rest, all[index]? with
        | [], none =>
          move (index + 1) 0
          if silent then
            assignVariable "OPTARG" [c]
            assignVariable name [58]
          else
            dropValue
            writeText 2 ("No arg for -" ++ textOf [c] ++ " option\n")
            assignVariable name [63]
        | [], some value =>
          move (index + 2) 0
          assignVariable "OPTARG" value
          assignVariable name [c]
        | value, _ =>
          move (index + 1) 0
          assignVariable "OPTARG" value
          assignVariable name [c]
        return 0
      else
        move next after
        dropValue
        assignVariable name [c]
        return 0
  | _ => mistake "getopts: Usage: getopts optstring var [arg...]"

/-! ## Signals -/

def deliver (n : Nat) : Running Unit := do
  if n = 0 then return
  match (← session).traps.lookup n, n = 9 || n = 19 with
  | some action, false =>
    if !action.isEmpty then modify fun m => { m with pending := m.pending ++ [n] }
  | _, _ =>
    match signalEffect n with
    | .ends => throw (.killed n)
    | .stops => throw .timedOut
    | .nothing => return

def send (n : Nat) (targets : List Bytes) : Running Nat := do
  let own := (← session).number
  let mut status := 0
  for t in targets do
    match natural? t with
    | none =>
      complain ("kill: Illegal number: " ++ textOf t)
      return 2
    | some p =>
      if p = own then deliver n
      else
        complain "kill: No such process\n"
        status := 1
  return status

def killBuiltin : Builtin := fun args => do
  let usage := "kill: Usage: kill [-s sigspec | -signum | -sigspec] [pid | job]... or\n"
    ++ "kill -l [exitstatus]"
  let targets (n : Nat) (rest : List Bytes) : Running Nat := do
    let rest := if rest.head? = some [45, 45] then rest.tail else rest
    if rest.isEmpty then mistake usage else send n rest
  match args.map textOf, args with
  | "-l" :: _, _ :: [] =>
    writeText 1 (String.join (("0" :: signals).map (· ++ "\n")))
    return 0
  | "-l" :: _, _ :: s :: _ =>
    match natural? s with
    | some n =>
      writeText 1 (signalName (n % 128) ++ "\n")
      return 0
    | none => mistake ("kill: invalid signal number or exit status: " ++ textOf s)
  | "-s" :: name :: _, _ :: _ :: rest =>
    match signalNumber? name with
    | some n => targets n rest
    | none => mistake ("kill: invalid signal number or name: " ++ name)
  | a :: _, _ :: rest =>
    match a.toList with
    | '-' :: cs =>
      if cs = ['-'] then targets 15 rest
      else
        match signalNumber? (String.ofList cs) with
        | some n => targets n rest
        | none => mistake ("kill: Illegal option -" ++ String.ofList (cs.take 1))
    | _ => targets 15 args
  | _, _ => mistake usage

def trapBuiltin : Builtin := fun args => do
  let args := if args.head? = some [45, 45] then args.tail else args
  match args with
  | [] =>
    for (n, action) in (← session).traps.mergeSort fun a b => a.1 ≤ b.1 do
      let _ ← write 1 (Text.utf8 "trap -- " ++ quotedValue action
        ++ Text.utf8 (" " ++ signalName n ++ "\n"))
    return 0
  | action :: names =>
    let reset := names.isEmpty || action = [45] || (natural? action).isSome
    let names := if names.isEmpty || (natural? action).isSome then args else names
    for a in names do
      match signalNumber? (textOf a) with
      | none =>
        writeText 2 ("trap: " ++ textOf a ++ ": bad trap\n")
        return 1
      | some n =>
        modifySession fun s =>
          { s with traps := if reset then unassign n s.traps else assign n action s.traps }
    return 0

/-! ## Names -/

def toolPath? (name : String) : Running (Option String) := do
  if name.toList.contains '/' then
    let s ← bareScene
    return if unaryTest s "-x" (Text.utf8 name) && !unaryTest s "-d" (Text.utf8 name) then some name
      else none
  else return if isTool name then some ("/usr/bin/" ++ name) else none

def typeBuiltin : Builtin := fun args => do
  let mut status := 0
  for a in args do
    let name := textOf a
    let say (s : String) : Running Unit := writeText 1 (name ++ s ++ "\n")
    if keywords.contains name then say " is a shell keyword"
    else if ((← session).functions.lookup name).isSome then say " is a shell function"
    else if specials.contains name && name ≠ "local" then say " is a special shell builtin"
    else if builtins.contains name then say " is a shell builtin"
    else
      match ← toolPath? name with
      | some path => say (" is " ++ path)
      | none =>
        say ": not found"
        status := 127
  return status

def resolve (name : String) : Running Nat := do
  if keywords.contains name || ((← session).functions.lookup name).isSome
      || builtins.contains name then
    writeText 1 (name ++ "\n")
    return 0
  else
    match ← toolPath? name with
    | some path =>
      writeText 1 (path ++ "\n")
      return 0
    | none => return 127

def waitBuiltin : Builtin := fun args => do
  let mut status := 0
  for a in args do
    match natural? a with
    | some n => status := ((← get).jobs.lookup n).getD 127
    | none =>
      complain ("wait: Illegal number: " ++ textOf a)
      return 2
  return status

/-! ## The table -/

/-- The command of a name, if it needs no other command. -/
def builtin? (name : String) : Option Builtin :=
  match name with
  | ":" | "true" => some fun _ => return 0
  | "false" => some fun _ => return 1
  | "echo" => some echoBuiltin
  | "printf" => some printfBuiltin
  | "test" => some (testBuiltin "test")
  | "[" => some (testBuiltin "[")
  | "pwd" => some pwdBuiltin
  | "cd" | "chdir" => some cdBuiltin
  | "exit" => some exitBuiltin
  | "return" => some returnBuiltin
  | "break" => some breakBuiltin
  | "continue" => some continueBuiltin
  | "shift" => some shiftBuiltin
  | "set" => some setBuiltin
  | "export" => some exportBuiltin
  | "readonly" => some readonlyBuiltin
  | "local" => some localBuiltin
  | "unset" => some unsetBuiltin
  | "read" => some readBuiltin
  | "getopts" => some getoptsBuiltin
  | "kill" => some killBuiltin
  | "trap" => some trapBuiltin
  | "type" => some typeBuiltin
  | "wait" => some waitBuiltin
  | "umask" => some fun args => do
    if args.isEmpty then writeText 1 "0022\n"
    return 0
  | "ulimit" => some fun _ => do
    writeText 1 "unlimited\n"
    return 0
  | "times" => some fun _ => do
    writeText 1 "0m0.00s 0m0.00s\n0m0.00s 0m0.00s\n"
    return 0
  | "hash" | "alias" | "unalias" | "jobs" | "fg" | "bg" => some fun _ => return 0
  | _ => none

end Deadwood.Shell
