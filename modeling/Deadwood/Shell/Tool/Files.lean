import Deadwood.Shell.Tool.Options

/-!
# Tools for files

Tools that make, remove, copy and list files and directories. What they change is part of their
reply.

## Main definitions

* `Shell.touch`, `Shell.mkdir`, `Shell.rm`, `Shell.rmdir`, `Shell.cp`, `Shell.mv`, `Shell.chmod`:
  changes.
* `Shell.ls`: what is there.
* `Shell.basename`, `Shell.dirname`: parts of paths.
-/

namespace Deadwood.Shell

/-- A change of the disk for each of some operands, one after the other. -/
def overOperands (s : Scene) (operands : List Bytes) (run : Scene → String → Reply) : Reply :=
  (operands.foldl (fun (r : Reply × Scene) f =>
    let now := run r.2 (textOf f)
    (r.1 ++ now, { r.2 with disk := now.disk.getD r.2.disk })) (({}, s) : Reply × Scene)).1

def missingOperand (name : String) : Reply :=
  Reply.refusal 1 (name ++ ": missing operand\nTry '" ++ name ++ " --help' for more information.")

def changed (disk : Except Fault Disk) (complaint : String) : Reply :=
  match disk with
  | .ok d => { disk := some d }
  | .error (.system _ _ e) => Reply.refusal 1 (complaint ++ ": " ++ reason e)
  | .error _ => Reply.refusal 1 complaint

def nodeAt? (s : Scene) (path : String) : Option DiskNode :=
  (s.disk.find (s.path path)).toOption.map (·.2)

def isDirectory (s : Scene) (path : String) : Bool :=
  nodeAt? s path = some .directory

def touch : Tool := fun args s =>
  withOptions "touch" "acm" "drt" [("no-create", 'c')] args fun o =>
    if o.operands.isEmpty then
      Reply.refusal 1 "touch: missing file operand\nTry 'touch --help' for more information."
    else
      overOperands s o.operands fun s p =>
        if (nodeAt? s p).isSome || o.has 'c' then {}
        else changed (s.disk.writeFile (s.path p) [] 0o644) ("touch: cannot touch '" ++ p ++ "'")

def mkdir : Tool := fun args s =>
  withOptions "mkdir" "pv" "m" [("parents", 'p')] args fun o =>
    if o.operands.isEmpty then missingOperand "mkdir"
    else
      overOperands s o.operands fun s p =>
        let complaint := "mkdir: cannot create directory '" ++ p ++ "'"
        if o.has 'p' then changed (s.disk.makeDirs (s.path p)) complaint
        else if (nodeAt? s p).isSome then Reply.refusal 1 (complaint ++ ": File exists")
        else changed (s.disk.makeDir (s.path p)) complaint

def rm : Tool := fun args s =>
  withOptions "rm" "rRfvid" "" [("recursive", 'r'), ("force", 'f')] args fun o =>
    if o.operands.isEmpty then (if o.has 'f' then {} else missingOperand "rm")
    else
      overOperands s o.operands fun s p =>
        let complaint := "rm: cannot remove '" ++ p ++ "': "
        match s.disk.find (s.path p) with
        | .error e => if o.has 'f' then {} else Reply.refusal 1 (complaint ++ reason e)
        | .ok (l, .file _ _) => { disk := some (s.disk.erase l) }
        | .ok (l, .directory) =>
          if o.has 'r' || o.has 'R' then { disk := some (s.disk.eraseTree l) }
          else Reply.refusal 1 (complaint ++ "Is a directory")

def rmdir : Tool := fun args s =>
  withOptions "rmdir" "pv" "" [] args fun o =>
    if o.operands.isEmpty then missingOperand "rmdir"
    else
      overOperands s o.operands fun s p =>
        let complaint := "rmdir: failed to remove '" ++ p ++ "': "
        match s.disk.find (s.path p) with
        | .error e => Reply.refusal 1 (complaint ++ reason e)
        | .ok (_, .file _ _) => Reply.refusal 1 (complaint ++ "Not a directory")
        | .ok (l, .directory) =>
          if (s.disk.children l).isEmpty then { disk := some (s.disk.erase l) }
          else Reply.refusal 1 (complaint ++ "Directory not empty")

def lastName (path : String) : String :=
  ((Text.segments '/' path).filter (· ≠ "")).getLast?.getD "/"

def copyTree (d : Disk) (source target : Location) : Disk :=
  (d.nodes.filter fun e => source.isPrefixOf e.1).foldl
    (fun d e => d.put (target ++ e.1.drop source.length) e.2) d

/-- Where something is put: into a directory that is there, or under a new name. -/
def destination (s : Scene) (source target : String) : String :=
  if isDirectory s target then target ++ "/" ++ lastName source else target

/-- The complaint about operands of which the last one is the target. -/
def targetProblem? (name : String) (s : Scene) (operands : List Bytes) : Option Reply :=
  let hint := "\nTry '" ++ name ++ " --help' for more information."
  match operands with
  | [] => some (Reply.refusal 1 (name ++ ": missing file operand" ++ hint))
  | [f] =>
    some (Reply.refusal 1
      (name ++ ": missing destination file operand after '" ++ textOf f ++ "'" ++ hint))
  | _ =>
    let target := textOf (operands.getLast?.getD [])
    if 2 < operands.length && !isDirectory s target then
      some (Reply.refusal 1 (name ++ ": target '" ++ target ++ "': No such file or directory"))
    else none

def cp : Tool := fun args s =>
  withOptions "cp" "rRfapvi" "" [("recursive", 'r'), ("force", 'f')] args fun o =>
    match targetProblem? "cp" s o.operands with
    | some r => r
    | none =>
      let target := textOf (o.operands.getLast?.getD [])
      overOperands s o.operands.dropLast fun s p =>
        let to_ := destination s p target
        match s.disk.find (s.path p) with
        | .error e => Reply.refusal 1 ("cp: cannot stat '" ++ p ++ "': " ++ reason e)
        | .ok (_, .file content mode) =>
          changed (s.disk.writeFile (s.path to_) content mode)
            ("cp: cannot create regular file '" ++ to_ ++ "'")
        | .ok (l, .directory) =>
          if o.has 'r' || o.has 'R' || o.has 'a' then
            match s.disk.locate (s.path to_) with
            | .ok t => { disk := some (copyTree s.disk l t) }
            | .error e =>
              Reply.refusal 1 ("cp: cannot create directory '" ++ to_ ++ "': " ++ reason e)
          else Reply.refusal 1 ("cp: -r not specified; omitting directory '" ++ p ++ "'")

def mv : Tool := fun args s =>
  withOptions "mv" "fvin" "" [("force", 'f')] args fun o =>
    match targetProblem? "mv" s o.operands with
    | some r => r
    | none =>
      let target := textOf (o.operands.getLast?.getD [])
      overOperands s o.operands.dropLast fun s p =>
        let to_ := destination s p target
        match s.disk.find (s.path p), s.disk.locate (s.path to_) with
        | .error e, _ => Reply.refusal 1 ("mv: cannot stat '" ++ p ++ "': " ++ reason e)
        | .ok _, .error e =>
          Reply.refusal 1 ("mv: cannot move '" ++ p ++ "' to '" ++ to_ ++ "': " ++ reason e)
        | .ok (l, _), .ok t =>
          if l = t then
            Reply.refusal 1 ("mv: '" ++ p ++ "' and '" ++ to_ ++ "' are the same file")
          else { disk := some ((copyTree s.disk l t).eraseTree l) }

/-- The mode that a text asks for: octal digits, or a change of the bits for running. -/
def modeOf? (text : String) (old : Nat) : Option Nat :=
  match text.toNat? with
  | some _ => (text.toList.foldlM (fun v c =>
      if '0' ≤ c && c ≤ '7' then some (8 * v + (c.toNat - 48)) else none) 0)
  | none =>
    let run := 0o111
    match text with
    | "+x" | "a+x" => some (old ||| run)
    | "u+x" => some (old ||| 0o100)
    | "-x" | "a-x" => some (old - (old &&& run))
    | "u-x" => some (old - (old &&& 0o100))
    | "+w" | "u+w" => some (old ||| 0o200)
    | "-w" | "a-w" => some (old - (old &&& 0o222))
    | "+r" | "a+r" => some (old ||| 0o444)
    | "-r" | "a-r" => some (old - (old &&& 0o444))
    | _ => none

def chmod : Tool := fun args s =>
  match args with
  | [] => missingOperand "chmod"
  | mode :: files =>
    overOperands s files fun s p =>
      match s.disk.find (s.path p) with
      | .error e => Reply.refusal 1 ("chmod: cannot access '" ++ p ++ "': " ++ reason e)
      | .ok (_, .directory) => {}
      | .ok (l, .file content old) =>
        match modeOf? (textOf mode) old with
        | some m => { disk := some (s.disk.put l (.file content m)) }
        | none => Reply.refusal 1 ("chmod: invalid mode: '" ++ textOf mode
            ++ "'\nTry 'chmod --help' for more information.")

/-! ## What is there -/

def ls : Tool := fun args s =>
  withOptions "ls" "1aAdRpF" "" [("all", 'a')] args fun o =>
    let names (p : String) : List String :=
      let inside := ((s.disk.list (s.path p)).toOption.getD []).map (·.1)
      (if o.has 'a' then [".", ".."] else [])
        ++ inside.filter fun n => o.has 'a' || o.has 'A' || !Text.startsWith "." n
    let lines (ns : List String) := String.join (ns.map (· ++ "\n"))
    let operands := if o.operands.isEmpty then ["."] else sortedTexts (o.operands.map textOf)
    let missing := operands.filterMap fun p =>
      match s.disk.find (s.path p) with
      | .error e => some (Reply.refusal 2 ("ls: cannot access '" ++ p ++ "': " ++ reason e))
      | .ok _ => none
    let there := operands.filter fun p => (nodeAt? s p).isSome
    let plain := there.filter fun p => !isDirectory s p || o.has 'd'
    let dirs := there.filter fun p => isDirectory s p && !o.has 'd'
    let titled := 1 < operands.length
    let sections := dirs.map fun p => (if titled then p ++ ":\n" else "") ++ lines (names p)
    let shown := (if plain.isEmpty then [] else [lines plain]) ++ sections
    Reply.all missing ++ Reply.outText (Text.join "\n" shown)

def basename : Tool := fun args _ =>
  match args with
  | [] => missingOperand "basename"
  | [p] => Reply.outText (lastName (textOf p) ++ "\n")
  | p :: e :: _ =>
    let name := lastName (textOf p)
    let short := Text.stripEnd (textOf e) name
    Reply.outText ((if short = "" then name else short) ++ "\n")

def dirname : Tool := fun args _ =>
  if args.isEmpty then missingOperand "dirname"
  else
    Reply.all (args.map fun a =>
      let path := textOf a
      let names := (Text.segments '/' path).filter (· ≠ "")
      let rest := Text.join "/" names.dropLast
      Reply.outText ((if Path.isAbsolute path then "/" ++ rest
        else if rest = "" then "." else rest) ++ "\n"))

end Deadwood.Shell
