import Deadwood.Shell.Runner

/-!
# Words and what they stand for

Parameters, the outputs of scripts and expressions in words are replaced by their values. Values
that stand without quotes are split into fields, and fields that are patterns become paths.

## Main definitions

* `Shell.expandPieces`, `Shell.expandParameter`: what the parts of words stand for.
* `Shell.expandText`, `Shell.expandMarked`, `Shell.expandFields`: words as texts, patterns and
  fields.
* `Shell.redirected`: redirections.
-/

namespace Deadwood.Shell

/-- The directory that a tilde at the start of a word stands for. -/
def withHome (home : Option Bytes) : Word → Word
  | .text false s :: w =>
    match s.toList, home with
    | '~' :: cs, some h =>
      if (cs.isEmpty && w.isEmpty) || cs.head? = some '/' then
        .text true (textOf h) :: .text false (String.ofList cs) :: w
      else .text false s :: w
    | _, _ => .text false s :: w
  | w => w

/-- All arguments as parts of a word. Quoted, they are one field each, or all of them are one. -/
def argumentAtoms (quoted joined : Bool) : Running (List Atom) := do
  let args := (← session).arguments
  if quoted && joined then
    let sep : Bytes := match ← value? "IFS" with
      | none => [32]
      | some ifs => ifs.take 1
    return atomsOf true (args.intersperse sep).flatten
  else return (args.map (atomsOf quoted)).intersperse [.cut] |>.flatten

def sumOf (text : String) : Running Int := do
  match Sum.parse text with
  | .error e => reject ("arithmetic expression: " ++ e ++ ": \"" ++ text ++ "\"")
  | .ok e =>
    let s ← session
    let text? (name : String) : Option String :=
      (s.bindings.lookup name).bind fun v => v.value.map textOf
    match (e.value text?).run [] with
    | .error (.expression what) =>
      reject ("arithmetic expression: " ++ what ++ ": \"" ++ text ++ "\"")
    | .error (.illegal t) => reject ("Illegal number: " ++ t)
    | .ok (i, given) =>
      for (name, j) in given.reverse do
        assignVariable name (Text.utf8 (Decimal.intText j))
      return i

/-- Paths for fields that are patterns, and the fields themselves otherwise. -/
def pathFields (fields : List (List Marked)) : Running (List Bytes) := do
  let literal ← isSetting 'f'
  let s ← bareScene
  return fields.flatMap fun f =>
    let plain := f.map (·.1)
    if literal || !isPattern f then [plain]
    else
      match pathsOf s f with
      | [] => [plain]
      | paths => paths.map Text.utf8

/-! ## Words -/

def expandText (r : Runner) (w : Word) : Running Bytes := do
  return plainOf (← r.expand false w)

def expandMarked (r : Runner) (w : Word) : Running (List Marked) := do
  return markedOf (← r.expand false (withHome (← value? "HOME") w))

def expandParameter (r : Runner) (quoted : Bool) (name : String) (change : Change) (word : Word) :
    Running (List Atom) := do
  let several := name = "@" || name = "*"
  let args := (← session).arguments
  let value : Option Bytes ← if several then
      pure (if args.isEmpty then none else some (args.intersperse [32]).flatten)
    else parameter? name
  let present (empty : Bool) : Bool :=
    match value with
    | none => false
    | some v => !(empty && v.isEmpty)
  let demanded : Running Unit := do
    if value.isNone && !several && (← isSetting 'u') then reject (name ++ ": parameter not set")
  let itself : Running (List Atom) := do
    if several then argumentAtoms quoted (name = "*")
    else return atomsOf quoted (value.getD [])
  let instead : Running (List Atom) := do
    let as ← r.expand (!quoted) word
    return if quoted then .quote :: as else as
  match change with
  | .bad => reject "Bad substitution"
  | .keep =>
    demanded
    itself
  | .length =>
    demanded
    return atomsOf quoted (Text.utf8 (Decimal.digitText (value.getD []).length))
  | .default_ empty => if present empty then itself else instead
  | .alternative empty =>
    if present empty then instead else return if quoted then [.quote] else []
  | .assign empty =>
    if present empty then itself
    else if !isName name then reject (name ++ ": bad variable name")
    else
      let v ← expandText r word
      assignVariable name v
      return atomsOf quoted v
  | .demand empty =>
    if present empty then itself
    else
      let message ← expandText r word
      reject (name ++ ": " ++ (if !word.isEmpty then textOf message
        else if empty then "parameter not set or null" else "parameter not set"))
  | .cutStart longest =>
    demanded
    let p ← expandMarked r word
    return atomsOf quoted ((Pattern.ofBytes p).cutStart longest (value.getD []))
  | .cutEnd longest =>
    demanded
    let p ← expandMarked r word
    return atomsOf quoted ((Pattern.ofBytes p).cutEnd longest (value.getD []))

/-- What a word stands for. `splits` says that text without quotes may be split, too. -/
def expandPieces (r : Runner) (splits : Bool) : Word → Running (List Atom)
  | [] => return []
  | p :: ps => do
    let now : List Atom ← match p with
      | .text quoted s =>
        pure ((if quoted then [.quote] else [])
          ++ (Text.utf8 s).map (.byte · quoted (splits && !quoted)))
      | .number quoted e =>
        let i ← sumOf (textOf (← expandText r e))
        pure (atomsOf quoted (Text.utf8 (Decimal.intText i)))
      | .output quoted body => pure (atomsOf quoted (← captured r body))
      | .parameter quoted name change word => expandParameter r quoted name change word
    return now ++ (← expandPieces r splits ps)

def expandFields (r : Runner) : List Word → Running (List Bytes)
  | [] => return []
  | w :: ws => do
    let as ← r.expand false (withHome (← value? "HOME") w)
    let fields ← pathFields (fieldsOf (← separators) as)
    return fields ++ (← expandFields r ws)

def assignAll (r : Runner) : List (String × Word) → Running (List (String × Bytes))
  | [] => return []
  | (name, word) :: rest => do
    let v ← expandText r (withHome (← value? "HOME") word)
    assignVariable name v
    return (name, v) :: (← assignAll r rest)

/-! ## Redirections -/

def openFile (path : String) (o : Opening) : Running (Except String Nat) := do
  let copy (c : Nat) : Running (Except String Nat) := do
    match ← channel? c with
    | some i => return .ok i
    | none => return .error ("cannot open " ++ path ++ ": No such file")
  match path with
  | "/dev/null" => return .ok (← addStream .nothing)
  | "/dev/zero" => return .ok (← addStream .zeros)
  | "/dev/stdin" => copy 0
  | "/dev/stdout" => copy 1
  | "/dev/stderr" => copy 2
  | _ =>
    let s ← bareScene
    let failed (creating : Bool) (e : SystemError) : Except String Nat :=
      let absent := e = .noEntry || e = .notDirectory
      .error ((if creating then "cannot create " else "cannot open ") ++ path ++ ": "
        ++ (if absent then (if creating then "Directory nonexistent" else "No such file")
          else reason e))
    match o with
    | .read =>
      match s.disk.find (s.path path) with
      | .ok (l, .file _ _) => return .ok (← addStream (.file l 0 false))
      | .ok (_, .directory) => return .ok (← addStream .nothing)
      | .error e => return failed false e
    | _ =>
      match s.disk.locate (s.path path) with
      | .error e => return failed true e
      | .ok l =>
        match s.disk.node? l with
        | some .directory => return failed true .isDirectory
        | some (.file content mode) =>
          if o = .write then
            modify fun m => { m with disk := m.disk.put l (.file [] mode) }
          let offset := if o = .append then content.length else 0
          return .ok (← addStream (.file l offset (o = .append)))
        | none =>
          modify fun m => { m with disk := m.disk.put l (.file [] 0o644) }
          return .ok (← addStream (.file l 0 (o = .append)))

/-- Follow redirections in order; `false` if one of them failed. -/
def redirected (r : Runner) : List Redirect → Running Bool
  | [] => return true
  | redirect :: rs => do
    match redirect with
    | .file stream opening path =>
      let path ← expandText r (withHome (← value? "HOME") path)
      match ← openFile (textOf path) opening with
      | .error e =>
        object e
        return false
      | .ok i =>
        setChannel stream i
        redirected r rs
    | .text stream number =>
      let word := ((← get).texts.lookup number).getD []
      let text ← expandText r word
      let i ← addStream (.pipe text.toArray 0)
      setChannel stream i
      redirected r rs
    | .copy stream target =>
      let target ← expandText r target
      match target with
      | [45] =>
        closeChannel stream
        redirected r rs
      | [b] =>
        if 48 ≤ b && b ≤ 57 then
          match ← channel? (b.toNat - 48) with
          | some i =>
            setChannel stream i
            redirected r rs
          | none =>
            object (textOf [b] ++ ": Bad file descriptor")
            return false
        else reject "Syntax error: Bad fd number"
      | _ => reject "Syntax error: Bad fd number"

end Deadwood.Shell
