import Deadwood.Numeral
import Deadwood.Shell.Pattern

/-!
# Regular expressions

Expressions come in a basic and in an extended way of writing; they differ in which marks need a
backslash. Of all matches the leftmost counts, and of those the longest.

## Main definitions

* `Shell.Regex`, `Shell.Regex.parse`: expressions.
* `Shell.Spot`, `Shell.Regex.spots`: the places up to which an expression fits.
* `Shell.Regex.find?`: the match that counts.
-/

namespace Deadwood.Shell

inductive Regex where
  | empty
  | oneOf (negated : Bool) (members : List Member)
  | start
  | stop
  /-- The place is at the start or end of a word, as the flags say. -/
  | edge (before after : Bool)
  | inner
  | seq (a b : Regex)
  | alt (a b : Regex)
  | repeated (a : Regex) (least : Nat) (most : Option Nat)
  | group (number : Nat) (a : Regex)
  /-- The same text as that of a group. -/
  | back (number : Nat)

/-- A place in a line: what stands before and behind it, and the groups that were closed. -/
structure Spot where
  before : Option UInt8
  rest : Bytes
  index : Nat
  groups : List (Nat × Bytes) := []

/-- Spots at different places only; the first one of a place is kept. With `exact`, their groups may
make a difference, too. -/
def distinctSpots (exact : Bool) : List Spot → List Spot
  | [] => []
  | s :: ss =>
    s :: (distinctSpots exact ss).filter fun t =>
      t.index ≠ s.index || (exact && t.groups ≠ s.groups)

namespace Regex

def isWordByte (b : UInt8) : Bool :=
  byteClass "alnum" b || b = 95

def passByte (fits : UInt8 → Bool) (s : Spot) : List Spot :=
  match s.rest with
  | b :: rest =>
    if fits b then [{ s with before := some b, rest, index := s.index + 1 }] else []
  | [] => []

/-- Repeat a step from some spots on, until it leads to no new place. -/
def repeatFrom (exact : Bool) (step : Spot → List Spot) :
    (fuel least : Nat) → (most : Option Nat) → (seen frontier : List Spot) → List Spot
  | 0, _, _, seen, _ => seen
  | fuel + 1, least, most, seen, frontier =>
    let seen := if least = 0 then distinctSpots exact (seen ++ frontier) else seen
    if most = some 0 || frontier.isEmpty then seen
    else
      let reached := distinctSpots exact (frontier.flatMap step)
      let fresh := if least = 0 then
          reached.filter fun s =>
            !seen.any fun t => t.index = s.index && (!exact || t.groups = s.groups)
        else reached
      repeatFrom exact step fuel (least - 1) (most.map (· - 1)) seen fresh

def refers : Regex → Bool
  | .back _ => true
  | .seq a b | .alt a b => a.refers || b.refers
  | .repeated a _ _ | .group _ a => a.refers
  | _ => false

def folded (b : UInt8) : UInt8 :=
  if 65 ≤ b && b ≤ 90 then b + 32 else b

def raised (b : UInt8) : UInt8 :=
  if 97 ≤ b && b ≤ 122 then b - 32 else b

/-- The spots up to which an expression fits from a spot on. With `loose`, letters of both cases are
the same. -/
def spots (loose exact : Bool) : Regex → Spot → List Spot
  | .empty, s => [s]
  | .oneOf negated ms, s =>
    let has (b : UInt8) := ms.any (·.has b)
    passByte (fun b => (if loose then has (folded b) || has (raised b) else has b) != negated) s
  | .start, s => if s.index = 0 then [s] else []
  | .stop, s => if s.rest.isEmpty then [s] else []
  | .edge before after, s =>
    let l := s.before.any isWordByte
    let r := s.rest.head?.any isWordByte
    if (before && !l && r) || (after && l && !r) then [s] else []
  | .inner, s => if s.before.any isWordByte = s.rest.head?.any isWordByte then [s] else []
  | .seq a b, s => distinctSpots exact ((spots loose exact a s).flatMap (spots loose exact b))
  | .alt a b, s => distinctSpots exact (spots loose exact a s ++ spots loose exact b s)
  | .repeated a least most, s =>
    repeatFrom exact (spots loose exact a) (s.rest.length + least + 2) least most [] [s]
  | .group n a, s =>
    (spots loose exact a s).map fun t =>
      { t with groups := (n, s.rest.take (t.index - s.index)) :: t.groups.filter (·.1 ≠ n) }
  | .back n, s =>
    match s.groups.lookup n with
    | none => []
    | some text =>
      let same (a b : Bytes) := if loose then a.map folded = b.map folded else a = b
      if same text (s.rest.take text.length) && text.length ≤ s.rest.length then
        [{ s with
            before := text.getLast?.or s.before
            rest := s.rest.drop text.length
            index := s.index + text.length }]
      else []

structure Match where
  first : Nat
  last : Nat
  text : Bytes
  groups : List (Nat × Bytes)

def longestAt? (r : Regex) (loose : Bool) (s : Spot) : Option Match :=
  let ends := r.spots loose r.refers { s with groups := [] }
  match ends with
  | [] => none
  | e :: es =>
    let best := es.foldl (fun b t => if b.index < t.index then t else b) e
    some ⟨s.index, best.index, s.rest.take (best.index - s.index), best.groups⟩

def leftmost? (r : Regex) (loose : Bool) : (fuel : Nat) → Spot → Option Match
  | 0, _ => none
  | fuel + 1, s =>
    match r.longestAt? loose s with
    | some m => some m
    | none =>
      match s.rest with
      | [] => none
      | b :: rest => leftmost? r loose fuel { s with before := some b, rest, index := s.index + 1 }

def spotAt (bs : Bytes) (index : Nat) : Spot :=
  ⟨if index = 0 then none else bs[index - 1]?, bs.drop index, index, []⟩

/-- The leftmost and longest match in a line from an index on. -/
def find? (r : Regex) (loose : Bool) (line : Bytes) (index : Nat) : Option Match :=
  r.leftmost? loose (line.length + 1) (spotAt line index)

/-! ## Reading -/

structure Reader where
  rest : Bytes
  extended : Bool
  /-- How many groups were opened, and the numbers of those that are open. -/
  opened : Nat := 0
  closed : List Nat := []

abbrev Parse := StateT Reader (Except String)

def byte (b : UInt8) : Regex :=
  .oneOf false [.range b b]

def passed? (bs : Bytes) : Parse Bool := do
  let r ← get
  match bs.isPrefixOf? r.rest with
  | some rest => set { r with rest }; return true
  | none => return false

/-- Whether a mark comes next, which needs a backslash in basic expressions only. -/
def mark? (b : UInt8) : Parse Bool := do
  if (← get).extended then passed? [b] else passed? [92, b]

def atMark (r : Reader) (b : UInt8) : Bool :=
  (if r.extended then [b] else [92, b]).isPrefixOf r.rest

def count? : Parse (Option Nat) := do
  let r ← get
  let ds := r.rest.takeWhile fun b => 48 ≤ b && b ≤ 57
  set { r with rest := r.rest.drop ds.length }
  return if ds.isEmpty then none else some (ds.foldl (fun v d => 10 * v + (d.toNat - 48)) 0)

def repetitions : (fuel : Nat) → Regex → Parse Regex
  | 0, e => return e
  | fuel + 1, e => do
    if ← passed? [42] then repetitions fuel (.repeated e 0 none)
    else if ← mark? 43 then repetitions fuel (.repeated e 1 none)
    else if ← mark? 63 then repetitions fuel (.repeated e 0 (some 1))
    else
      let before ← get
      if ← mark? 123 then
        let low ← count?
        let most : Option Nat ← if ← passed? [44] then count? else pure low
        let open_ := (← get).rest
        if ← mark? 125 then
          if most.any (· < low.getD 0) then throw "Invalid content of \\\x7b\\\x7d"
          else repetitions fuel (.repeated e (low.getD 0) most)
        else if before.extended && !(open_.isEmpty && low.isSome) then
          -- Braces that hold no numbers are plain text.
          set { before with rest := before.rest.drop 1 }
          return .seq e (byte 123)
        else throw (if open_.isEmpty then "Unmatched \x7b or \\\x7b" else
          "Invalid content of \\\x7b\\\x7d")
      else return e

mutual

def alternatives : (fuel depth : Nat) → Parse Regex
  | 0, _ => return .empty
  | fuel + 1, depth => do
    let a ← sequence fuel depth true
    if ← mark? 124 then return .alt a (← alternatives fuel depth) else return a

/-- Expressions one behind the other; `first` says that none came before. -/
def sequence : (fuel depth : Nat) → (first : Bool) → Parse Regex
  | 0, _, _ => return .empty
  | fuel + 1, depth, first => do
    let r ← get
    if r.rest.isEmpty || atMark r 124 || (atMark r 41 && (0 < depth || !r.extended)) then
      return .empty
    else
      let a ← item fuel depth first
      return .seq a (← sequence fuel depth false)

def item : (fuel depth : Nat) → (first : Bool) → Parse Regex
  | 0, _, _ => return .empty
  | fuel + 1, depth, first => do
    let extended := (← get).extended
    if ← mark? 40 then
      let n := (← get).opened + 1
      modify fun r => { r with opened := n }
      let a ← alternatives fuel (depth + 1)
      if ← mark? 41 then
        modify fun r => { r with closed := n :: r.closed }
        repetitions fuel (.group n a)
      else throw "Unmatched ( or \\("
    else if atMark (← get) 41 then throw "Unmatched ) or \\)"
    else
      match (← get).rest with
      | [] => return .empty
      | b :: rest =>
        modify fun r => { r with rest }
        if b = 94 && (extended || first) then
          -- A star behind the start of a basic expression is plain text.
          if !extended && rest.head? = some 42 then
            modify fun r => { r with rest := rest.tail }
            return .seq .start (← repetitions fuel (byte 42))
          else return .start
        else if b = 36 && (extended || rest.isEmpty || [92, 41].isPrefixOf rest
            || [92, 124].isPrefixOf rest) then return .stop
        else if b = 42 && first then
          if extended then return .empty else repetitions fuel (byte 42)
        else if extended && first && (b = 43 || b = 63) then return .empty
        else if b = 46 then repetitions fuel (.oneOf true [])
        else if b = 91 then
          let (negated, inside) := match rest with
            | 94 :: rest => (true, rest)
            | _ => (false, rest)
          match members? (inside.length + 1) true (inside.map (·, false)) with
          | some (ms, after) =>
            modify fun r => { r with rest := after.map (·.1) }
            repetitions fuel (.oneOf negated ms)
          | none => throw "Unmatched [, [^, [:, [., or [="
        else if b = 92 then
          match rest with
          | [] => throw "Trailing backslash"
          | c :: after =>
            modify fun r => { r with rest := after }
            let word : List Member := [.named "alnum", .range 95 95]
            match Char.ofNat c.toNat with
            | 'w' => repetitions fuel (.oneOf false word)
            | 'W' => repetitions fuel (.oneOf true word)
            | 's' => repetitions fuel (.oneOf false [.named "space"])
            | 'S' => repetitions fuel (.oneOf true [.named "space"])
            | 'b' => repetitions fuel (.edge true true)
            | 'B' => repetitions fuel .inner
            | '<' => repetitions fuel (.edge true false)
            | '>' => repetitions fuel (.edge false true)
            | _ =>
              if 49 ≤ c && c ≤ 57 then
                let n := c.toNat - 48
                if (← get).closed.contains n then repetitions fuel (.back n)
                else throw "Invalid back reference"
              else repetitions fuel (byte c)
        else repetitions fuel (byte b)

end

def parse (extended : Bool) (bs : Bytes) : Except String Regex := do
  let (r, s) ← (alternatives (4 * bs.length + 8) 0).run { rest := bs, extended }
  if s.rest.isEmpty then return r else throw "Unmatched ) or \\)"

end Regex

end Deadwood.Shell
