import Deadwood.Shell.Condition
import Deadwood.Shell.Sum
import Deadwood.Shell.Tool.Edit
import Deadwood.Shell.Tool.Files
import Deadwood.Shell.Tool.Filter
import Deadwood.Shell.Tool.Search

/-!
# All tools

The tools that a script can call by name, and those that fit nowhere else.

## Main definitions

* `Shell.seq`, `Shell.tee`, `Shell.expr`: numbers, copies and values.
* `Shell.tool?`: the tool of a name.
-/

namespace Deadwood.Shell

def numbersFrom (last step : Int) : (fuel : Nat) → Int → List Int
  | 0, _ => []
  | fuel + 1, i =>
    if (0 < step && last < i) || (step < 0 && i < last) then []
    else i :: numbersFrom last step fuel (i + step)

def seq : Tool := fun args _ =>
  -- Numbers may look like options.
  let flags := args.takeWhile fun a =>
    a.head? = some 45 && !((a[1]?).any fun b => (48 ≤ b && b ≤ 57) || b = 46)
  let (flags, operands) := match flags.getLast? with
    | some [45, 115] => (args.take (flags.length + 1), args.drop (flags.length + 1))
    | _ => (flags, args.drop flags.length)
  withOptions "seq" "w" "sf" [("separator", 's'), ("equal-width", 'w')] flags fun o =>
    let numbers := operands.map fun a => (a, (textOf a).toInt?)
    match numbers.find? fun n => n.2.isNone with
    | some (a, _) =>
      Reply.refusal 1 ("seq: invalid floating point argument: '" ++ textOf a
        ++ "'\nTry 'seq --help' for more information.")
    | none =>
      let is := numbers.filterMap (·.2)
      let range : Option (Int × Int × Int) := match is with
        | [last] => some (1, 1, last)
        | [first, last] => some (first, 1, last)
        | [first, step, last] => some (first, step, last)
        | _ => none
      match range with
      | none =>
        match operands with
        | _ :: _ :: _ :: extra :: _ =>
          Reply.refusal 1 ("seq: extra operand '" ++ textOf extra
            ++ "'\nTry 'seq --help' for more information.")
        | _ => missingOperand "seq"
      | some (first, step, last) =>
        if step = 0 then
          Reply.refusal 1 ("seq: invalid Zero increment value: '0'\n"
            ++ "Try 'seq --help' for more information.")
        else
          let count := min endless ((last - first).natAbs / step.natAbs + 2)
          let texts := (numbersFrom last step count first).map Decimal.intText
          let width := texts.foldl (fun n t => max n t.length) 0
          let texts := if o.has 'w' then
              texts.map fun t => Text.repeated (width - t.length) "0" ++ t
            else texts
          let sep := textOf ((o.value? 's').getD [10])
          Reply.outText (if texts.isEmpty then "" else Text.join sep texts ++ "\n")

def tee : Tool := fun args s =>
  withOptions "tee" "ai" "" [("append", 'a')] args fun o =>
    let files := overOperands s o.operands fun s p =>
      let old := if o.has 'a' then (s.read p endless).toOption.getD [] else []
      if p = "/dev/null" then {}
      else changed (s.disk.writeFile (s.path p) (old ++ s.input) 0o644) ("tee: " ++ p)
    { files ++ Reply.out s.input with reads := true }

/-! ## Values -/

/-- A value of an expression: a text, which may write a number. -/
abbrev Value := Bytes

def valueInt? (v : Value) : Option Int :=
  match v with
  | 45 :: ds => if ds.isEmpty then none
      else (Numeral.natOfDigits? 10 (textOf ds).toList).map fun n => -(n : Int)
  | ds => if ds.isEmpty then none
      else (Numeral.natOfDigits? 10 (textOf ds).toList).map fun n => (n : Int)

def isNull (v : Value) : Bool :=
  v.isEmpty || valueInt? v = some 0

def ofInt (i : Int) : Value :=
  Text.utf8 (Decimal.intText i)

/-- What an expression fits at the start of a text: its first group, or how long the match is. -/
def fitting (text pattern : Value) : Except String Value := do
  let r ← Regex.parse false pattern
  let grouped := Text.occursIn "\\(" (textOf pattern)
  match r.longestAt? false (Regex.spotAt text 0) with
  | some m => return if grouped then (m.groups.lookup 1).getD [] else ofInt m.last
  | none => return if grouped then [] else ofInt 0

def exprStrength (op : String) : Nat :=
  match op with
  | "|" => 1
  | "&" => 2
  | "<" | "<=" | "=" | "==" | "!=" | ">=" | ">" => 3
  | "+" | "-" => 4
  | "*" | "/" | "%" => 5
  | ":" => 6
  | _ => 0

def exprApply (op : String) (a b : Value) : Except String Value := do
  let truth (t : Bool) : Value := if t then [49] else [48]
  let numbers (f : Int → Int → Except String Int) : Except String Value :=
    match valueInt? a, valueInt? b with
    | some x, some y => (f x y).map ofInt
    | _, _ => .error "non-integer argument"
  let compare (f : Int → Int → Bool) (g : Value → Value → Bool) : Value :=
    match valueInt? a, valueInt? b with
    | some x, some y => truth (f x y)
    | _, _ => truth (g a b)
  match op with
  | "|" => return if !isNull a then a else if isNull b then [48] else b
  | "&" => return if isNull a || isNull b then [48] else a
  | "<" => return compare (fun x y => x < y) bytesLess
  | "<=" => return compare (fun x y => x ≤ y) fun x y => !bytesLess y x
  | "=" | "==" => return compare (fun x y => x = y) fun x y => x = y
  | "!=" => return compare (fun x y => x ≠ y) fun x y => x ≠ y
  | ">=" => return compare (fun x y => y ≤ x) fun x y => !bytesLess x y
  | ">" => return compare (fun x y => y < x) fun x y => bytesLess y x
  | "+" => numbers fun x y => .ok (x + y)
  | "-" => numbers fun x y => .ok (x - y)
  | "*" => numbers fun x y => .ok (x * y)
  | "/" => numbers fun x y => if y = 0 then .error "division by zero" else .ok (x.tdiv y)
  | "%" => numbers fun x y => if y = 0 then .error "division by zero" else .ok (x.tmod y)
  | _ => fitting a b

abbrev Worked := Except String (Value × List Bytes)

mutual

def exprPrimary : (fuel : Nat) → List Bytes → Worked
  | 0, _ => .error "syntax error"
  | fuel + 1, ws =>
    match ws.map textOf, ws with
    | "(" :: _, _ :: rest => do
      let (v, rest) ← exprFrom fuel 1 rest
      match rest with
      | [41] :: rest => return (v, rest)
      | w :: _ => throw ("syntax error: expecting ')' instead of '" ++ textOf w ++ "'")
      | [] => throw "syntax error: expecting ')' after '('"
    | "length" :: _, _ :: w :: rest => .ok (ofInt w.length, rest)
    | "match" :: _, _ :: a :: b :: rest => (fitting a b).map (·, rest)
    | "index" :: _, _ :: a :: b :: rest =>
      .ok (ofInt ((a.findIdx? b.contains).elim 0 fun i => (i : Int) + 1), rest)
    | "substr" :: _, _ :: a :: i :: n :: rest =>
      match valueInt? i, valueInt? n with
      | some i, some n =>
        .ok (if i < 1 || n < 1 then [] else (a.drop (i.toNat - 1)).take n.toNat, rest)
      | _, _ => .ok ([], rest)
    | "+" :: _, _ :: w :: rest => .ok (w, rest)
    | ")" :: _, _ => .error "syntax error: unexpected ')'"
    | _, w :: rest => .ok (w, rest)
    | _, [] => .error "syntax error"

/-- Operators that bind at least as strongly as `least`, behind a first value. -/
def exprMore : (fuel least : Nat) → Value → List Bytes → Worked
  | 0, _, v, ws => .ok (v, ws)
  | fuel + 1, least, v, ws =>
    match ws with
    | [] => .ok (v, [])
    | op :: rest =>
      let strength := exprStrength (textOf op)
      if strength = 0 || strength < least then .ok (v, ws)
      else if rest.isEmpty then
        .error ("syntax error: missing argument after '" ++ textOf op ++ "'")
      else do
        let (b, rest) ← exprFrom fuel (strength + 1) rest
        exprMore fuel least (← exprApply (textOf op) v b) rest

def exprFrom : (fuel least : Nat) → List Bytes → Worked
  | 0, _, _ => .error "syntax error"
  | fuel + 1, least, ws => do
    let (v, rest) ← exprPrimary fuel ws
    exprMore fuel least v rest

end

def expr : Tool := fun args _ =>
  if args.isEmpty then { missingOperand "expr" with status := 2 }
  else
    match exprFrom (4 * args.length + 4) 1 args with
    | .ok (v, []) => { Reply.out (v ++ [10]) with status := if isNull v then 1 else 0 }
    | .ok (_, w :: _) =>
      Reply.refusal 2 ("expr: syntax error: unexpected argument '" ++ textOf w ++ "'")
    | .error e => Reply.refusal 2 ("expr: " ++ e)

/-! ## The table -/

def tool? (name : String) : Option Tool :=
  match name with
  | "true" => some fun _ _ => {}
  | "false" => some fun _ _ => Reply.ofBool false
  | "cat" => some cat
  | "head" => some head
  | "tail" => some tail
  | "wc" => some wc
  | "tr" => some tr
  | "cut" => some cut
  | "rev" => some rev
  | "tac" => some tac
  | "nl" => some nl
  | "paste" => some paste
  | "sort" => some sort
  | "uniq" => some uniq
  | "grep" => some grep
  | "egrep" => some fun args => grep (Text.utf8 "-E" :: args)
  | "fgrep" => some fun args => grep (Text.utf8 "-F" :: args)
  | "sed" => some sed
  | "touch" => some touch
  | "mkdir" => some mkdir
  | "rm" => some rm
  | "rmdir" => some rmdir
  | "cp" => some cp
  | "mv" => some mv
  | "chmod" => some chmod
  | "ls" => some ls
  | "basename" => some basename
  | "dirname" => some dirname
  | "seq" => some seq
  | "tee" => some tee
  | "expr" => some expr
  | _ => none

end Deadwood.Shell
