import Deadwood.Numeral
import Deadwood.Text.Segments

/-!
# Expressions with numbers

Numbers have 64 bits. An expression can use variables and give them values; of a choice, only one
side is worked out.

## Main definitions

* `Shell.Sum`: expressions.
* `Shell.Sum.parse`: reads an expression.
* `Shell.Sum.value`: its value, and the values given to variables.
-/

namespace Deadwood.Shell

inductive Sum where
  | number (i : Int)
  | variable_ (name : String)
  | unary (op : String) (a : Sum)
  | binary (op : String) (a b : Sum)
  | choice (test yes no : Sum)
  /-- Give a variable a value, worked out from its old one unless the operator is empty. -/
  | assign (name op : String) (a : Sum)

inductive SumProblem where
  /-- The expression is not well-formed, or divides by zero. -/
  | expression (what : String)
  /-- A variable holds no number. -/
  | illegal (text : String)

namespace Sum

inductive Token where
  | number (i : Int)
  | name (s : String)
  | op (s : String)

/-- Longer operators come first. -/
def operators : List String :=
  ["<<=", ">>=", "<<", ">>", "<=", ">=", "==", "!=", "&&", "||", "+=", "-=", "*=", "/=", "%=", "&=",
    "|=", "^=", "+", "-", "*", "/", "%", "<", ">", "&", "|", "^", "!", "~", "?", ":", "=", "(", ")"]

/-- The number that digits write, in base 8 or 16 if they start so. -/
def numeral? (s : String) : Option Int :=
  let cs := s.toList
  let value : Option Nat := match cs with
    | '0' :: 'x' :: ds => Numeral.natOfDigits? 16 ds
    | '0' :: 'X' :: ds => Numeral.natOfDigits? 16 ds
    | '0' :: [] => some 0
    | '0' :: ds => Numeral.natOfDigits? 8 ds
    | ds => Numeral.natOfDigits? 10 ds
  value.map fun n => if (n : Int) < Word.bound then (n : Int) else Word.bound - 1

/-- The tokens up to a character that starts none; this one is kept. -/
def tokens? : (fuel : Nat) → List Char → Option (List Token)
  | 0, _ => none
  | _, [] => some []
  | fuel + 1, c :: cs =>
    if c = ' ' || c = '\t' || c = '\n' then tokens? fuel cs
    else if c.isDigit then
      let word := (c :: cs).takeWhile fun d => d.isAlphanum
      let number := match word with
        | '0' :: 'x' :: ds | '0' :: 'X' :: ds =>
          let hex := ds.takeWhile fun d => (Numeral.digitValue? d).any (· < 16)
          if hex.isEmpty then ['0'] else '0' :: 'x' :: hex
        | ds => ds.takeWhile Char.isDigit
      match numeral? (String.ofList number) with
      | some i => (tokens? fuel ((c :: cs).drop number.length)).map (.number i :: ·)
      | none => none
    else if c.isAlpha || c = '_' then
      let word := (c :: cs).takeWhile fun d => d.isAlphanum || d = '_'
      (tokens? fuel ((c :: cs).drop word.length)).map (.name (String.ofList word) :: ·)
    else
      match operators.find? fun o => o.toList.isPrefixOf (c :: cs) with
      | some o => (tokens? fuel ((c :: cs).drop o.length)).map (.op o :: ·)
      | none => some [.op (String.singleton c)]

def strength (op : String) : Option Nat :=
  if op = "||" then some 1
  else if op = "&&" then some 2
  else if op = "|" then some 3
  else if op = "^" then some 4
  else if op = "&" then some 5
  else if op = "==" || op = "!=" then some 6
  else if ["<", "<=", ">", ">="].contains op then some 7
  else if op = "<<" || op = ">>" then some 8
  else if op = "+" || op = "-" then some 9
  else if op = "*" || op = "/" || op = "%" then some 10
  else none

def assignment? (op : String) : Option String :=
  if op = "=" then some ""
  else if ["<<=", ">>=", "+=", "-=", "*=", "/=", "%=", "&=", "|=", "^="].contains op then
    some (String.ofList op.toList.dropLast)
  else none

abbrev Parsed := Except String (Sum × List Token)

mutual

def primary : (fuel : Nat) → List Token → Parsed
  | 0, _ => .error "expecting primary"
  | fuel + 1, ts =>
    match ts with
    | .number i :: ts => .ok (.number i, ts)
    | .name n :: ts => .ok (.variable_ n, ts)
    | .op "(" :: ts => do
      let (e, ts) ← assignment fuel ts
      match ts with
      | .op ")" :: ts => return (e, ts)
      | _ => throw "expecting ')'"
    | .op o :: ts =>
      if o = "-" || o = "+" || o = "!" || o = "~" then do
        let (e, ts) ← primary fuel ts
        return (.unary o e, ts)
      else .error "expecting primary"
    | [] => .error "expecting primary"

/-- Operators that bind at least as strongly as `least`, behind their first operand. -/
def operands : (fuel : Nat) → (least : Nat) → Sum → List Token → Parsed
  | 0, _, e, ts => .ok (e, ts)
  | fuel + 1, least, e, ts =>
    match ts with
    | .op o :: rest =>
      match strength o with
      | some s =>
        if s < least then .ok (e, ts)
        else do
          let (b, rest) ← primary fuel rest
          let (b, rest) ← operands fuel (s + 1) b rest
          operands fuel least (.binary o e b) rest
      | none => .ok (e, ts)
    | _ => .ok (e, ts)

def choices : (fuel : Nat) → List Token → Parsed
  | 0, _ => .error "expecting primary"
  | fuel + 1, ts => do
    let (e, ts) ← primary fuel ts
    let (e, ts) ← operands fuel 1 e ts
    match ts with
    | .op "?" :: ts =>
      let (yes, ts) ← assignment fuel ts
      match ts with
      | .op ":" :: ts =>
        let (no, ts) ← choices fuel ts
        return (.choice e yes no, ts)
      | _ => throw "expecting ':'"
    | _ => return (e, ts)

def assignment : (fuel : Nat) → List Token → Parsed
  | 0, _ => .error "expecting primary"
  | fuel + 1, ts =>
    match ts with
    | .name n :: .op o :: rest =>
      match assignment? o with
      | some op => do
        let (e, rest) ← assignment fuel rest
        return (.assign n op e, rest)
      | none => choices fuel ts
    | _ => choices fuel ts

end

def parse (s : String) : Except String Sum :=
  match tokens? (s.length + 1) s.toList with
  | none => .error "expecting EOF"
  | some ts => do
    let (e, rest) ← assignment (4 * ts.length + 4) ts
    if rest.isEmpty then return e else throw "expecting EOF"

/-- The values of variables, as far as expressions gave them. -/
abbrev Given := List (String × Int)

abbrev Working := StateT Given (Except SumProblem)

def ofBool (b : Bool) : Int :=
  if b then 1 else 0

def bits (i : Int) : UInt64 :=
  UInt64.ofInt i

def ofBits (u : UInt64) : Int :=
  Word.wrap u.toNat

def apply (op : String) (a b : Int) : Except SumProblem Int :=
  let shift := (bits b).toNat % 64
  match op with
  | "+" => .ok (Word.wrap (a + b))
  | "-" => .ok (Word.wrap (a - b))
  | "*" => .ok (Word.wrap (a * b))
  | "/" => if b = 0 then .error (.expression "division by zero") else .ok (Word.wrap (a.tdiv b))
  | "%" => if b = 0 then .error (.expression "division by zero") else .ok (Word.wrap (a.tmod b))
  | "<<" => .ok (Word.wrap (a * Nat.pow 2 shift))
  | ">>" => .ok (a / Nat.pow 2 shift)
  | "&" => .ok (ofBits (bits a &&& bits b))
  | "|" => .ok (ofBits (bits a ||| bits b))
  | "^" => .ok (ofBits (bits a ^^^ bits b))
  | "==" => .ok (ofBool (a = b))
  | "!=" => .ok (ofBool (a ≠ b))
  | "<" => .ok (ofBool (a < b))
  | "<=" => .ok (ofBool (a ≤ b))
  | ">" => .ok (ofBool (b < a))
  | ">=" => .ok (ofBool (b ≤ a))
  | _ => .ok 0

/-- The value of a variable; one without a value is zero. -/
def valueOf (text? : String → Option String) (name : String) : Working Int := do
  match (← get).lookup name with
  | some i => return i
  | none =>
    match text? name with
    | none => return 0
    | some text =>
      let bare := Text.trimBy (fun c => c = ' ' || c = '\t' || c = '\n') text
      if bare = "" then return 0
      else
        let (negative, digits) := Numeral.unsigned bare.toList
        match numeral? (String.ofList digits) with
        | some i => return if negative then -i else i
        | none => throw (.illegal text)

def value (text? : String → Option String) : Sum → Working Int
  | .number i => return i
  | .variable_ name => valueOf text? name
  | .unary op a => do
    let i ← value text? a
    return if op = "-" then Word.wrap (-i) else if op = "!" then ofBool (i = 0)
      else if op = "~" then -i - 1 else i
  | .binary op a b => do
    let i ← value text? a
    if op = "&&" then
      if i = 0 then return 0 else return ofBool ((← value text? b) ≠ 0)
    else if op = "||" then
      if i ≠ 0 then return 1 else return ofBool ((← value text? b) ≠ 0)
    else
      let j ← value text? b
      (apply op i j : Except SumProblem Int)
  | .choice test yes no => do
    let i ← value text? test
    if i ≠ 0 then value text? yes else value text? no
  | .assign name op a => do
    let i ← value text? a
    let i ← if op = "" then pure i else do
      let old ← valueOf text? name
      (apply op old i : Except SumProblem Int)
    modify fun given => (name, i) :: given
    return i

end Sum

end Deadwood.Shell
