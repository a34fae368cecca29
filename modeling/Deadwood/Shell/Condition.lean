import Deadwood.Numeral
import Deadwood.Shell.Reply

/-!
# Conditions

A condition is written in words: tests of texts, numbers and files, joined by words for "and", "or"
and "not", and brackets. A word that looks like a test is a plain text where no operand follows it.

## Main definitions

* `Shell.Operator`, `Shell.operator?`: the words with a meaning.
* `Shell.Judging`: judging words one after the other.
* `Shell.condition`: whether a condition holds.
-/

namespace Deadwood.Shell

inductive Operator where
  | unary | binary | negation | conjunction | disjunction | opening | closing
  deriving DecidableEq

def operator? (s : Bytes) : Option Operator :=
  let text := textOf s
  if ["-r", "-w", "-x", "-e", "-f", "-d", "-c", "-b", "-p", "-u", "-g", "-k", "-s", "-t", "-z",
    "-n", "-h", "-O", "-G", "-L", "-S"].contains text then some .unary
  else if ["=", "!=", "<", ">", "-eq", "-ne", "-ge", "-gt", "-le", "-lt", "-nt", "-ot",
    "-ef"].contains text then some .binary
  else
    match text with
    | "!" => some .negation
    | "-a" => some .conjunction
    | "-o" => some .disjunction
    | "(" => some .opening
    | ")" => some .closing
    | _ => none

/-! ## Single tests -/

def wholeNumber? (s : String) : Option Int :=
  let bare := Text.trimBy (fun c => c = ' ' || (9 ≤ c.toNat && c.toNat ≤ 13)) s
  let (negative, ds) := Numeral.unsigned bare.toList
  if ds.isEmpty then none
  else
    match Numeral.natOfDigits? 10 ds with
    | some n =>
      let i : Int := if negative then -(n : Int) else n
      if -Word.bound ≤ i && i < Word.bound then some i else none
    | none => none

def isDevice (path : String) : Bool :=
  ["/dev/null", "/dev/zero", "/dev/stdin", "/dev/stdout", "/dev/stderr", "/dev/tty"].contains path

def unaryTest (s : Scene) (op : String) (operand : Bytes) : Bool :=
  let path := textOf operand
  let node : Option DiskNode :=
    if isDevice path then none else (s.disk.find (s.path path)).toOption.map (·.2)
  let there := node.isSome || isDevice path
  let isFile := match node with
    | some (.file _ _) => true
    | _ => false
  match op with
  | "-n" => !operand.isEmpty
  | "-z" => operand.isEmpty
  | "-e" | "-r" | "-w" | "-O" | "-G" => there
  | "-f" => isFile
  | "-d" => node.isSome && !isFile
  | "-c" => isDevice path
  | "-s" =>
    match node with
    | some (.file content _) => !content.isEmpty
    | some .directory => true
    | none => false
  | "-x" =>
    match node with
    | some (.file _ mode) => mode / 64 % 2 = 1 || mode / 8 % 2 = 1 || mode % 2 = 1
    | some .directory => true
    | none => false
  | _ => false

abbrev Complaint := String

def number (s : Bytes) : Except Complaint Int :=
  match wholeNumber? (textOf s) with
  | some i => .ok i
  | none => .error ("Illegal number: " ++ textOf s)

def binaryTest (s : Scene) (a : Bytes) (op : String) (b : Bytes) : Except Complaint Bool := do
  let place (p : Bytes) := (s.disk.find (s.path (textOf p))).toOption.map (·.1)
  match op with
  | "=" => return a = b
  | "!=" => return a ≠ b
  | "<" => return bytesLess a b
  | ">" => return bytesLess b a
  | "-eq" => return (← number a) = (← number b)
  | "-ne" => return (← number a) ≠ (← number b)
  | "-lt" => return (← number a) < (← number b)
  | "-le" => return (← number a) ≤ (← number b)
  | "-gt" => return (← number b) < (← number a)
  | "-ge" => return (← number b) ≤ (← number a)
  | "-ef" => return (place a).isSome && place a = place b
  | "-nt" => return (place a).isSome && (place b).isNone
  | "-ot" => return (place a).isNone && (place b).isSome
  | _ => return false

/-! ## Joined tests -/

/-- Judging: the words from the last one that was used on. -/
abbrev Judging := StateT (List Bytes) (Except Complaint)

/-- What the first of some words means there: a test is one only if an operand follows, and not if a
test with two operands does. -/
def meaning : List Bytes → Option (Option Operator)
  | [] => none
  | w :: ws =>
    match operator? w with
    | none => some none
    | some .unary =>
      match ws with
      | [] => some none
      | [_] => some (some .unary)
      | op :: _ => some (if operator? op = some .binary then none else some .unary)
    | some .opening => some (if ws.isEmpty then none else some .opening)
    | some op => some (some op)

def step : Judging Unit :=
  modify List.tail

def refuse {α : Type} (word : Bytes) (what : String) : Judging α :=
  throw (if word.isEmpty then what else textOf word ++ ": " ++ what)

def here : Judging (Option (Option Operator)) := do
  return meaning (← get)

def ahead_ : Judging (Option (Option Operator)) := do
  return meaning (← get).tail

mutual

def anyOf (s : Scene) : (fuel : Nat) → Option (Option Operator) → Judging Bool
  | 0, _ => return false
  | fuel + 1, n => do
    let a ← allOf s fuel n
    if (← ahead_) = some (some .disjunction) then
      step; step
      let b ← anyOf s fuel (← here)
      return a || b
    else return a

def allOf (s : Scene) : (fuel : Nat) → Option (Option Operator) → Judging Bool
  | 0, _ => return false
  | fuel + 1, n => do
    let a ← negated s fuel n
    if (← ahead_) = some (some .conjunction) then
      step; step
      let b ← allOf s fuel (← here)
      return a && b
    else return a

def negated (s : Scene) : (fuel : Nat) → Option (Option Operator) → Judging Bool
  | 0, _ => return false
  | fuel + 1, n => do
    if n = some (some .negation) then
      let n ← ahead_
      if n.isSome then step
      return !(← negated s fuel n)
    else single s fuel n

def single (s : Scene) : (fuel : Nat) → Option (Option Operator) → Judging Bool
  | 0, _ => return false
  | fuel + 1, n => do
    let ws ← get
    match n with
    | none => return false
    | some (some .opening) =>
      step
      let n ← here
      if n = some (some .closing) then return false
      else
        let b ← anyOf s fuel n
        step
        if (← here) = some (some .closing) then return b else refuse [] "closing paren expected"
    | some (some .unary) =>
      step
      match ← get with
      | [] => refuse (ws.headD []) "argument expected"
      | operand :: _ => return unaryTest s (textOf (ws.headD [])) operand
    | _ =>
      match ws with
      | a :: op :: rest =>
        if operator? op = some .binary then
          step; step
          match rest with
          | [] => refuse op "argument expected"
          | b :: _ => (binaryTest s a (textOf op) b : Except Complaint Bool)
        else return !a.isEmpty
      | a :: _ => return !a.isEmpty
      | [] => return false

end

/-- Judge words as a whole, the first one with a given meaning. -/
def verdict (s : Scene) (first : Option (Option Operator)) (ws : List Bytes) :
    Except Complaint Bool := do
  let (b, rest) ← (anyOf s (4 * ws.length + 4) first).run ws
  match rest with
  | w :: _ :: _ => throw ((if w.isEmpty then "" else textOf w ++ ": ") ++ "unexpected operator")
  | _ => return b

/-- Whether a condition holds. Three and four words have rules of their own: a test with two
operands comes first, then brackets around the rest and a negation in front of it. -/
def condition (s : Scene) : List Bytes → Except Complaint Bool
  | [] => .ok false
  | w :: ws =>
    let all := w :: ws
    let wrapped : Except Complaint Bool :=
      if w = [40] && all.getLast? = some [41] then verdict s (meaning ws.dropLast) ws.dropLast
      else if w = [33] then (condition s ws).map (!·)
      else verdict s (meaning all) all
    match ws with
    | [op, _] => if operator? op = some .binary then verdict s (some none) all else wrapped
    | [_, _, _] => wrapped
    | _ => verdict s (meaning all) all

end Deadwood.Shell
