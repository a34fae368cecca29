import Deadwood.Shell.Reply

/-!
# Patterns of scripts

A pattern fits whole texts: a star any bytes, a question mark one byte, and a set in brackets one of
its bytes. Bytes that are quoted in a script stand for themselves.

## Main definitions

* `Shell.Pattern`, `Shell.Pattern.ofBytes`: patterns.
* `Shell.Pattern.fits`: whether a pattern fits a text.
* `Shell.Pattern.cutStart`, `Shell.Pattern.cutEnd`: a text without what a pattern fits.
* `Shell.pathsOf`: the paths that a pattern fits.
-/

namespace Deadwood.Shell

def byteClass (name : String) (b : UInt8) : Bool :=
  let c := Char.ofNat b.toNat
  match name with
  | "alpha" => c.isAlpha
  | "digit" => c.isDigit
  | "alnum" => c.isAlphanum
  | "upper" => c.isUpper
  | "lower" => c.isLower
  | "space" => b = 32 || (9 ≤ b && b ≤ 13)
  | "blank" => b = 32 || b = 9
  | "punct" => 33 ≤ b && b ≤ 126 && !c.isAlphanum
  | "print" => 32 ≤ b && b ≤ 126
  | "graph" => 33 ≤ b && b ≤ 126
  | "cntrl" => b < 32 || b = 127
  | "xdigit" => c.isDigit || (97 ≤ b && b ≤ 102) || (65 ≤ b && b ≤ 70)
  | _ => false

inductive Member where
  | range (low high : UInt8)
  | named (name : String)

def Member.has (b : UInt8) : Member → Bool
  | .range low high => low ≤ b && b ≤ high
  | .named name => byteClass name b

inductive PatternItem where
  | byte (b : UInt8)
  | any
  | star
  | set (negated : Bool) (members : List Member)

abbrev Pattern := List PatternItem

abbrev Marked := UInt8 × Bool

/-- The members of a set up to its closing bracket, and what follows; the first byte is a member
even if it is a bracket. -/
def members? : (fuel : Nat) → (first : Bool) → List Marked → Option (List Member × List Marked)
  | 0, _, _ => none
  | _, _, [] => none
  | fuel + 1, first, (b, q) :: bs =>
    if b = 93 && !q && !first then some ([], bs)
    else
      match b, q, bs with
      | 91, false, (58, false) :: rest =>
        let name := (rest.takeWhile fun (c, _) => c ≠ 58).map (·.1)
        match rest.drop name.length with
        | (58, _) :: (93, _) :: rest =>
          (members? fuel false rest).map fun (ms, r) =>
            (.named (String.ofList (name.map fun c => Char.ofNat c.toNat)) :: ms, r)
        | _ => (members? fuel false bs).map fun (ms, r) => (.range b b :: ms, r)
      | _, _, (45, false) :: (c, r) :: rest =>
        if c = 93 && !r then (members? fuel false bs).map fun (ms, s) => (.range b b :: ms, s)
        else (members? fuel false rest).map fun (ms, s) => (.range b c :: ms, s)
      | _, _, _ => (members? fuel false bs).map fun (ms, r) => (.range b b :: ms, r)

namespace Pattern

def read : (fuel : Nat) → List Marked → Pattern
  | 0, _ => []
  | _, [] => []
  | fuel + 1, (b, quoted) :: bs =>
    if quoted then .byte b :: read fuel bs
    else if b = 42 then .star :: read fuel bs
    else if b = 63 then .any :: read fuel bs
    else if b = 92 then
      match bs with
      | (c, _) :: rest => .byte c :: read fuel rest
      | [] => [.byte b]
    else if b = 91 then
      let (negated, inside) := match bs with
        | (33, false) :: rest => (true, rest)
        | (94, false) :: rest => (true, rest)
        | _ => (false, bs)
      match members? (inside.length + 1) true inside with
      | some (ms, rest) => .set negated ms :: read fuel rest
      | none => .byte b :: read fuel bs
    else .byte b :: read fuel bs

def ofBytes (bs : List Marked) : Pattern :=
  read (bs.length + 1) bs

def fits : Pattern → Bytes → Bool
  | [], bs => bs.isEmpty
  | .star :: ps, [] => fits ps []
  | .star :: ps, b :: bs => fits ps (b :: bs) || fits (.star :: ps) bs
  | _ :: _, [] => false
  | .byte c :: ps, b :: bs => b = c && fits ps bs
  | .any :: ps, _ :: bs => fits ps bs
  | .set negated ms :: ps, b :: bs => (ms.any (·.has b) != negated) && fits ps bs
  termination_by p bs => p.length + bs.length

/-- A text without the shortest or longest start that a pattern fits. -/
def cutStart (p : Pattern) (longest : Bool) (bs : Bytes) : Bytes :=
  let places := List.range (bs.length + 1)
  match (if longest then places.reverse else places).find? fun i => p.fits (bs.take i) with
  | some i => bs.drop i
  | none => bs

/-- A text without the shortest or longest end that a pattern fits. -/
def cutEnd (p : Pattern) (longest : Bool) (bs : Bytes) : Bytes :=
  let places := List.range (bs.length + 1)
  match (if longest then places else places.reverse).find? fun i => p.fits (bs.drop i) with
  | some i => bs.take i
  | none => bs

end Pattern

/-! ## Paths -/

/-- Whether bytes without quotes make a pattern of a text. -/
def isPattern (bs : List Marked) : Bool :=
  bs.any fun (b, quoted) => !quoted && (b = 42 || b = 63 || b = 91)

def splitMarked : List Marked → List (List Marked)
  | [] => [[]]
  | (47, _) :: bs => [] :: splitMarked bs
  | b :: bs =>
    match splitMarked bs with
    | part :: parts => (b :: part) :: parts
    | [] => [[b]]

def pathsBelow (s : Scene) : (start : String) → List (List Marked) → List String
  | start, [] => [start]
  | start, part :: parts =>
    if !isPattern part then
      let path := start ++ textOf (part.map (·.1))
      if parts.isEmpty then
        (if path = start || s.disk.exists_ (s.path path) then [path] else [])
      else pathsBelow s (path ++ "/") parts
    else
      let dir := if start = "" then "." else start
      let names := ((s.disk.list (s.path dir)).toOption.getD []).map (·.1)
      let fitting := names.filter fun n =>
        (Pattern.ofBytes part).fits (Text.utf8 n)
          && (!Text.startsWith "." n || part.head?.any fun (b, _) => b = 46)
      fitting.flatMap fun n =>
        if parts.isEmpty then [start ++ n]
        else if s.disk.exists_ (s.path (start ++ n ++ "/.")) then
          pathsBelow s (start ++ n ++ "/") parts
        else []

def pathsOf (s : Scene) (bs : List Marked) : List String :=
  pathsBelow s "" (splitMarked bs)

end Deadwood.Shell
