import Deadwood.Sorted
import Deadwood.Datum
import Deadwood.Toml.Token

/-!
# TOML documents

Headings and keys with dots build up a tree of tables. A list of tables is entered through its last
table. A table may be built up in several steps, but outside of braces a key is given a value only
once, and a table that was written in braces is complete.

## Main definitions

* `Toml.Node`: the tree.
* `Toml.value?`: the value at the front of a list of tokens.
* `Toml.parse?`: the data of a document.
-/

namespace Deadwood.Toml

inductive Node where
  | value (d : Datum)
  /-- A table; one in braces is complete. -/
  | table (complete : Bool) (entries : List (String × Node))
  | tables (items : List Node)
  deriving Inhabited

namespace Node

def empty : Node := .table false []

/-- The entries of a table, or of the last table of a list. -/
def entries? : Node → Option (List (String × Node))
  | .value _ => none
  | .table _ es => some es
  | .tables items =>
    match items.getLast? with
    | some (.table _ es) => some es
    | _ => none

def withEntries (es : List (String × Node)) : Node → Node
  | .value d => .value d
  | .table complete _ => .table complete es
  | .tables items =>
    match items.getLast? with
    | some (.table complete _) => .tables (items.dropLast ++ [.table complete es])
    | _ => .tables items

def isComplete : Node → Bool
  | .table complete _ => complete
  | .tables items =>
    match items.getLast? with
    | some (.table complete _) => complete
    | _ => false
  | .value _ => false

def find? : List String → Node → Option Node
  | [], n => some n
  | k :: ks, n => do
    let es ← n.entries?
    let child ← es.lookup k
    find? ks child

/-- Change the node that a path leads to, making missing tables on the way. It fails where the path
leads through a value. -/
def alter? (f : Node → Option Node) : List String → Node → Option Node
  | [], n => f n
  | k :: ks, n => do
    let es ← n.entries?
    let child ← alter? f ks ((es.lookup k).getD (.table n.isComplete []))
    return n.withEntries (assign k child es)

/-- Give the entry at the end of a path a node, making missing tables on the way. A value on the way
is passed over: the path goes on in the table that holds it. -/
def setPath (child : Node) : List String → List (String × Node) → List (String × Node)
  | [], es => es
  | [k], es => assign k child es
  | k :: ks, es =>
    match es.lookup k with
    | none => assign k (.table false (setPath child ks [])) es
    | some n =>
      match n.entries? with
      | none => setPath child ks es
      | some inner => assign k (n.withEntries (setPath child ks inner)) es

def set (n : Node) (path : List String) (child : Node) : Node :=
  match n.entries? with
  | some es => n.withEntries (setPath child path es)
  | none => n

mutual

def toDatum : Node → Datum
  | .value d => d
  | .table _ es => .table (toDatumEntries es)
  | .tables items => .list (toDatumItems items)

def toDatumItems : List Node → List Datum
  | [] => []
  | n :: ns => toDatum n :: toDatumItems ns

def toDatumEntries : List (String × Node) → List (String × Datum)
  | [] => []
  | (k, n) :: es => (k, toDatum n) :: toDatumEntries es

end

end Node

/-! ## Values -/

/-- Whether every underscore follows a digit and none is last. -/
def underscoresOk (isDigit : Char → Bool) : (before : Bool) → List Char → Bool
  | _, [] => true
  | before, c :: cs =>
    (c ≠ '_' || (before && !cs.isEmpty)) && underscoresOk isDigit (isDigit c) cs

/-- An integer. Those of three and more characters start with a zero only in front of the mark of a
base. -/
def integer? (written : String) : Option Datum := do
  let cs := written.toList.filter (· ≠ '_')
  let inRange (i : Int) : Option Datum :=
    if -Word.bound ≤ i ∧ i < Word.count then some (.int i) else none
  let isHex := fun c => (Numeral.digitValue? c).any (· < 16)
  match cs with
  | '0' :: c :: d :: ds =>
    let base ← match c with
      | 'x' => some 16
      | 'o' => some 8
      | 'b' => some 2
      | _ => none
    if !underscoresOk (if c = 'x' then isHex else Char.isDigit) false written.toList then none
    else (Numeral.natOfDigits? base (d :: ds)).bind fun n => inRange n
  | _ =>
    if !underscoresOk Char.isDigit false written.toList then none
    else
      let (negative, ds) := Numeral.unsigned cs
      if ds.isEmpty then none
      else
        (Numeral.natOfDigits? 10 ds).bind fun n =>
          -- A plus sign is accepted up to the largest signed integer only.
          if cs.head? = some '+' ∧ Word.bound ≤ n then none
          else inRange (if negative then -(n : Int) else n)

def float? (written : String) : Option Datum :=
  if !underscoresOk Char.isDigit false written.toList then none
  else
    ((Numeral.float (String.ofList (written.toList.filter (· ≠ '_')))).toOption).map .float

def daysIn (year month : Nat) : Nat :=
  if month = 2 then
    if year % 4 = 0 ∧ (year % 100 ≠ 0 ∨ year % 400 = 0) then 29 else 28
  else if [4, 6, 9, 11].contains month then 30
  else 31

def isDay (year month day : Nat) : Bool :=
  1 ≤ month && month ≤ 12 && 1 ≤ day && day ≤ daysIn year month

def isTimeOfDay (hour minute second : Nat) : Bool :=
  hour ≤ 23 && minute ≤ 59 && second ≤ 59

def isZone (off : Option (Nat × Nat)) : Bool :=
  off.all fun (hours, minutes) => hours ≤ 24 && minutes ≤ 60

/-- Whether the date or time at the front exists, and what follows it. A time behind a date belongs
to it, and so does a zone behind that. -/
def moment : List Token → Bool × List Token
  | .date y m d :: .time h n s :: .zone z :: ts =>
    (isDay y m d && isTimeOfDay h n s && isZone z, ts)
  | .date y m d :: .time h n s :: ts => (isDay y m d && isTimeOfDay h n s, ts)
  | .date y m d :: ts => (isDay y m d, ts)
  | .time h n s :: ts => (isTimeOfDay h n s, ts)
  | ts => (false, ts)

mutual

def value? : (fuel : Nat) → List Token → Option (Node × List Token)
  | 0, _ => none
  | _, [] => none
  | fuel + 1, t :: ts =>
    match t with
    | .text s => some (.value (.text s), ts)
    | .bool b => some (.value (.bool b), ts)
    | .integer written => (integer? written).map fun d => (.value d, ts)
    | .float written => (float? written).map fun d => (.value d, ts)
    | .infinity negative => some (.value (.float (if negative then -1.0 / 0.0 else 1.0 / 0.0)), ts)
    | .notNumber => some (.value (.float (0.0 / 0.0)), ts)
    | .date .. | .time .. =>
      match moment (t :: ts) with
      | (true, rest) => some (.value .moment, rest)
      | (false, _) => none
    | .openList => do
      let (ns, rest) ← listItems? fuel ts
      let isTable : Node → Bool := fun n => match n with | .table _ _ => true | _ => false
      if !ns.isEmpty && ns.all isTable then some (.tables ns, rest)
      else some (.value (.list (ns.map Node.toDatum)), rest)
    | .openTable => (tableEntries? fuel none (.table false []) ts).map fun (n, rest) =>
        match n with
        | .table _ es => (.table true es, rest)
        | other => (other, rest)
    | _ => none

/-- Items up to the closing bracket; a comma may follow the last one. -/
def listItems? : (fuel : Nat) → List Token → Option (List Node × List Token)
  | 0, _ => none
  | _, .closeList :: ts => some ([], ts)
  | fuel + 1, ts => do
    let (n, rest) ← value? fuel ts
    match rest with
    | .comma :: rest => (listItems? fuel rest).map fun (ns, r) => (n :: ns, r)
    | .closeList :: rest => some ([n], rest)
    | _ => none

/-- Entries up to the closing brace, put into a table; between two entries stands one comma, and
none follows the last one. The flag says whether a comma or an entry came before. -/
def tableEntries? : (fuel : Nat) → (comma : Option Bool) → Node → List Token →
    Option (Node × List Token)
  | 0, _, _, _ => none
  | fuel + 1, comma, n, t :: ts =>
    match t with
    | .closeTable => if comma = some true then none else some (n, ts)
    | .comma => if comma = some false then tableEntries? fuel (some true) n ts else none
    | .key written =>
      if comma = some false then none
      else
        match ts with
        | .equal :: ts => do
          let parts ← keyParts? written
          let (v, rest) ← value? fuel ts
          tableEntries? fuel (some false) (n.set parts v) rest
        | _ => none
    | _ => none
  | _, _, _, [] => none

end

/-! ## Documents -/

structure Draft where
  root : Node := .empty
  /-- The path of the last heading. -/
  current : List String := []
  /-- The headings so far, as they were written. -/
  seen : List String := []

namespace Draft

def openTable? (d : Draft) (written : String) : Option Draft := do
  if d.seen.contains written then none
  let path ← keyParts? written
  let root ← d.root.alter? (fun n => n.entries?.map fun _ => n) path
  match root.find? path with
  | some (.table true _) => none
  | _ => some { root, current := path, seen := d.seen ++ [written] }

/-- Open one more table of a list of tables. Headings below the list may be used again. -/
def openListed? (d : Draft) (written : String) : Option Draft := do
  let path ← keyParts? written
  let root := (d.root.alter? (fun n => n.entries?.map fun _ => n) path.dropLast).getD d.root
  let items ← match root.find? path with
    | none => some []
    | some (.tables items) => some items
    | some _ => none
  let root := root.set path (.tables (items ++ [.empty]))
  let seen := d.seen.filter (!Text.startsWith (written ++ ".") ·)
  some { root, current := path, seen := if seen.contains written then seen else seen ++ [written] }

def define? (d : Draft) (written : String) (v : Node) : Option Draft := do
  let parts ← keyParts? written
  let last ← parts.getLast?
  let path := d.current ++ parts.dropLast
  let root ← d.root.alter? (fun n => n.entries?.map fun _ => n) path
  let target ← root.find? path
  let es ← target.entries?
  if target.isComplete ∨ (es.lookup last).isSome then none
  some { d with root := root.set (path ++ [last]) v }

end Draft

def lines? : (fuel : Nat) → Draft → List Token → Option Draft
  | _, d, [] => some d
  | 0, _, _ => none
  | fuel + 1, d, t :: ts =>
    match t with
    | .heading false written => (d.openTable? written).bind (lines? fuel · ts)
    | .heading true written => (d.openListed? written).bind (lines? fuel · ts)
    | .key written =>
      match ts with
      | .equal :: ts => do
        let (v, rest) ← value? (ts.length + 1) ts
        let d ← d.define? written v
        lines? fuel d rest
      | _ => none
    | _ => none

def parse? (s : String) : Option Datum := do
  let ts ← tokens? s
  let d ← lines? (ts.length + 1) {} ts
  return d.root.toDatum

end Deadwood.Toml
