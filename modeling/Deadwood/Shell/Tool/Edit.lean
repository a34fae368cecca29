import Deadwood.Shell.Regex
import Deadwood.Shell.Tool.Options

/-!
# Editing lines

A small script of commands runs on each line. A command is for all lines, for one, for those in
which an expression fits, or for those from one line to another.

## Main definitions

* `Shell.Edit`, `Shell.EditRule`: commands, and the lines they are for.
* `Shell.editRules`: reads a script.
* `Shell.sed`: changed lines.
-/

namespace Deadwood.Shell

inductive Address where
  | line (n : Nat)
  | last
  | fits (r : Regex) (loose : Bool)

inductive Edit where
  | substitute (r : Regex) (loose : Bool) (target : Bytes) (every shown : Bool) (which : Nat)
  | display
  | delete
  | quit
  | number
  | exchange (from_ to_ : Bytes)
  | next
  | append (text : Bytes)
  | insert (text : Bytes)
  | replace (text : Bytes)

structure EditRule where
  first : Option Address
  last : Option Address
  negated : Bool
  edit : Edit

/-- Bytes up to a separator without a backslash in front, and what follows. In an expression `\n`
is a line end. -/
def upTo (sep : UInt8) : (fuel : Nat) → Bytes → Option (Bytes × Bytes)
  | 0, _ => none
  | _, [] => none
  | fuel + 1, b :: bs =>
    if b = sep then some ([], bs)
    else if b = 92 then
      match bs with
      | [] => none
      | c :: rest =>
        (upTo sep fuel rest).map fun (p, r) =>
          (if c = sep then c :: p else if c = 110 then 10 :: p else 92 :: c :: p, r)
    else (upTo sep fuel bs).map fun (p, r) => (b :: p, r)

def takeNumber (bs : Bytes) : Option Nat × Bytes :=
  let ds := bs.takeWhile fun b => 48 ≤ b && b ≤ 57
  (if ds.isEmpty then none else some (ds.foldl (fun v d => 10 * v + (d.toNat - 48)) 0),
    bs.drop ds.length)

def skipBlanks (bs : Bytes) : Bytes :=
  bs.dropWhile (byteClass "blank")

def address? (extended : Bool) (bs : Bytes) : Except String (Option Address × Bytes) :=
  match bs with
  | 36 :: rest => .ok (some .last, rest)
  | 47 :: rest =>
    match upTo 47 (rest.length + 1) rest with
    | none => .error "unterminated address regex"
    | some (p, after) => do
      let r ← Regex.parse extended p
      match after with
      | 73 :: after => return (some (.fits r true), after)
      | _ => return (some (.fits r false), after)
  | _ =>
    match takeNumber bs with
    | (some n, rest) => .ok (some (.line n), rest)
    | (none, _) => .ok (none, bs)

def addedText (bs : Bytes) : Bytes :=
  match skipBlanks bs with
  | 92 :: 10 :: rest => rest
  | 92 :: rest => rest
  | rest => rest

/-- The commands of a script; they are separated by semicolons and line ends. -/
def editRules (extended : Bool) : (fuel : Nat) → Bytes → Except String (List EditRule)
  | 0, _ => .ok []
  | fuel + 1, bs =>
    let bs := bs.dropWhile fun b => b = 59 || byteClass "space" b
    if bs.isEmpty then .ok []
    else do
      let (first, bs) ← address? extended bs
      let (last, bs) ← match bs with
        | 44 :: rest => address? extended (skipBlanks rest)
        | _ => .ok (none, bs)
      let bs := skipBlanks bs
      let (negated, bs) := match bs with
        | 33 :: rest => (true, skipBlanks rest)
        | _ => (false, bs)
      let rule (e : Edit) (rest : Bytes) : Except String (List EditRule) := do
        let rest := skipBlanks rest
        if rest.isEmpty || rest.head? = some 59 || rest.head? = some 10
            || rest.head? = some 125 then
          return ⟨first, last, negated, e⟩ :: (← editRules extended fuel rest)
        else throw "extra characters after command"
      match bs with
      | [] => throw "missing command"
      | c :: rest =>
        -- A text may start in the next line.
        let head := if [92, 10].isPrefixOf (skipBlanks rest) then rest.takeWhile (· ≠ 10) ++ [10]
          else []
        let line := head ++ (rest.drop head.length).takeWhile (· ≠ 10)
        let after := rest.drop line.length
        match Char.ofNat c.toNat with
        | 'p' => rule .display rest
        | 'd' => rule .delete rest
        | 'q' => rule .quit rest
        | '=' => rule .number rest
        | 'n' => rule .next rest
        | 'a' => rule (.append (addedText line)) after
        | 'i' => rule (.insert (addedText line)) after
        | 'c' => rule (.replace (addedText line)) after
        | 'y' =>
          match rest with
          | [] => throw "unterminated \x60y' command"
          | sep :: rest =>
            match upTo sep (rest.length + 1) rest with
            | none => throw "unterminated \x60y' command"
            | some (a, rest) =>
              match upTo sep (rest.length + 1) rest with
              | none => throw "unterminated \x60y' command"
              | some (b, rest) =>
                if a.length = b.length then rule (.exchange a b) rest
                else throw "strings for \x60y' command are different lengths"
        | 's' =>
          match rest with
          | [] => throw "unterminated \x60s' command"
          | sep :: rest =>
            match upTo sep (rest.length + 1) rest with
            | none => throw "unterminated \x60s' command"
            | some (p, rest) =>
              match upTo sep (rest.length + 1) rest with
              | none => throw "unterminated \x60s' command"
              | some (target, rest) =>
                let flags := rest.takeWhile fun b =>
                  b = 103 || b = 112 || b = 105 || b = 73 || (48 ≤ b && b ≤ 57)
                let which := (takeNumber (flags.filter fun b => 48 ≤ b && b ≤ 57)).1.getD 1
                let r ← Regex.parse extended p
                rule (.substitute r (flags.contains 105 || flags.contains 73) target
                  (flags.contains 103) (flags.contains 112) which) (rest.drop flags.length)
        | _ => throw ("unknown command: \x60" ++ textOf [c] ++ "'")

def replacementText (m : Regex.Match) : Bytes → Bytes
  | 92 :: c :: rest =>
    if 48 ≤ c && c ≤ 57 then
      (if c = 48 then m.text else (m.groups.lookup (c.toNat - 48)).getD [])
        ++ replacementText m rest
    else c :: replacementText m rest
  | 38 :: rest => m.text ++ replacementText m rest
  | b :: rest => b :: replacementText m rest
  | [] => []

/-- Put a text in for matches from the `which`-th on, or for that one only. -/
def substitute (r : Regex) (loose : Bool) (target : Bytes) (every : Bool) (line : Bytes) :
    (fuel which index : Nat) → (bare : Bool) → Bytes × Bool
  | 0, _, index, _ => (line.drop index, false)
  | fuel + 1, which, index, bare =>
    match r.find? loose line index with
    | none => (line.drop index, false)
    | some m =>
      let skipped := (line.drop index).take (m.first - index)
      -- Right behind another match there is no empty one.
      let counts := !(m.text.isEmpty && bare && m.first = index)
      let now := counts && which ≤ 1
      let here := if now then replacementText m target else m.text
      let left := if counts then which - 1 else which
      if now && !every then (skipped ++ here ++ line.drop m.last, true)
      else if m.text.isEmpty then
        match line.drop m.last with
        | [] => (skipped ++ here, now)
        | b :: _ =>
          let (rest, changed) :=
            substitute r loose target every line fuel left (m.last + 1) false
          (skipped ++ here ++ b :: rest, now || changed)
      else
        let (rest, changed) := substitute r loose target every line fuel left m.last true
        (skipped ++ here ++ rest, now || changed)

structure EditState where
  line : Bytes
  number : Nat
  out : List Bytes := []
  /-- Lines to be shown behind it. -/
  later : List Bytes := []
  deleted : Bool := false
  ended : Bool := false
  /-- The rules whose range is open. -/
  open_ : List Nat := []
  rest : List Bytes

def Address.has (a : Address) (e : EditState) : Bool :=
  match a with
  | .line n => e.number = n
  | .last => e.rest.isEmpty
  | .fits r loose => (r.find? loose e.line 0).isSome

/-- Whether a rule is for the current line, and the state with the ranges that are open then. -/
def EditRule.applies (rule : EditRule) (index : Nat) (e : EditState) : Bool × EditState :=
  match rule.first, rule.last with
  | none, _ => (!rule.negated, e)
  | some a, none => (a.has e != rule.negated, e)
  | some a, some b =>
    if e.open_.contains index then
      let ends : Bool := match b with
        | .line n => n ≤ e.number
        | b => b.has e
      let past : Bool := match b with
        | .line n => n < e.number
        | _ => false
      ((!past) != rule.negated,
        if ends then { e with open_ := e.open_.filter (· ≠ index) } else e)
    else if a.has e then
      let opens : Bool := match b with
        | .line n => e.number < n
        | _ => true
      (!rule.negated, if opens then { e with open_ := index :: e.open_ } else e)
    else (rule.negated, e)

def runEdits (quiet : Bool) : List (EditRule × Nat) → EditState → EditState
  | [], e => e
  | (rule, index) :: rules, e =>
    let (wanted, e) := rule.applies index e
    if !wanted then runEdits quiet rules e
    else
      match rule.edit with
      | .substitute r loose target every shown which =>
        let (line, changed) :=
          substitute r loose target every e.line (2 * e.line.length + 4) which 0 false
        let e := { e with line }
        runEdits quiet rules (if changed && shown then { e with out := e.out ++ [line] } else e)
      | .display => runEdits quiet rules { e with out := e.out ++ [e.line] }
      | .delete => { e with deleted := true }
      | .quit => { e with ended := true }
      | .number =>
        let number := Text.utf8 (Decimal.digitText e.number)
        runEdits quiet rules { e with out := e.out ++ [number] }
      | .exchange a b =>
        let change (c : UInt8) := ((a.zip b).lookup c).getD c
        runEdits quiet rules { e with line := e.line.map change }
      | .next =>
        match e.rest with
        | [] => { e with ended := true }
        | l :: rest =>
          runEdits quiet rules { e with
            out := if quiet then e.out else e.out ++ [e.line]
            line := l
            number := e.number + 1
            rest }
      | .append text => runEdits quiet rules { e with later := e.later ++ [text] }
      | .insert text => runEdits quiet rules { e with out := e.out ++ [text] }
      | .replace text => { e with out := e.out ++ [text], deleted := true }

def editLines (quiet : Bool) (rules : List (EditRule × Nat)) :
    (fuel number : Nat) → (open_ : List Nat) → List Bytes → List Bytes
  | 0, _, _, _ => []
  | _, _, _, [] => []
  | fuel + 1, number, open_, line :: rest =>
    let e := runEdits quiet rules { line, number, open_, rest }
    let shown := e.out ++ (if quiet || e.deleted then [] else [e.line]) ++ e.later
    if e.ended then shown else shown ++ editLines quiet rules fuel (e.number + 1) e.open_ e.rest

def sed : Tool := fun args s =>
  withOptions "sed" "nErsuz" "ef" [("quiet", 'n'), ("expression", 'e'), ("regexp-extended", 'E')]
    args fun o =>
      let (script, files) := if o.has 'e' then (joinLines (o.values 'e'), o.operands)
        else ((o.operands.head?).getD [], o.operands.drop 1)
      match editRules (o.has 'E' || o.has 'r') (script.length + 1) script with
      | .error e => Reply.refusal 1 ("sed: -e expression #1, char "
          ++ Decimal.digitText script.length ++ ": " ++ e)
      | .ok rules =>
        let all := contents s endless files
        let complaints := all.filterMap fun (f, content) =>
          match content with
          | .error e =>
            some (Reply.refusal 2 (if e = reason .isDirectory then
              "sed: couldn't edit " ++ f ++ ": not a regular file"
              else "sed: can't read " ++ f ++ ": " ++ e))
          | .ok _ => none
        let bs := all.flatMap fun (_, content) => content.toOption.getD []
        let out := unlines
          (editLines (o.has 'n') rules.zipIdx ((linesOf bs).length + 1) 1 [] (linesOf bs))
        { Reply.all complaints ++ Reply.out (if endsLine bs then out else out.dropLast) with
          reads := readsInput files }
where
  /-- Scripts as lines of one. -/
  joinLines (ss : List Bytes) : Bytes := (ss.intersperse [10]).flatten

end Deadwood.Shell
