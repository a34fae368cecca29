import Deadwood.Shell.Regex
import Deadwood.Shell.Tool.Options

/-!
# Lines that fit

The lines in which an expression fits, or what fits in them.

## Main definitions

* `Shell.Needle`, `Shell.firstMatch?`: what is looked for, and where it is found.
* `Shell.grep`: lines that fit.
-/

namespace Deadwood.Shell

inductive Needle where
  | expression (r : Regex)
  | text (t : Bytes)

/-- The first place from an index on where a text stands. -/
def textAt? (loose : Bool) (t : Bytes) : (index : Nat) → Bytes → Option Regex.Match
  | index, bs =>
    let same := if loose then
        (bs.take t.length).map Regex.folded = t.map Regex.folded else bs.take t.length = t
    if same then some ⟨index, index + t.length, bs.take t.length, []⟩
    else
      match bs with
      | [] => none
      | _ :: rest => textAt? loose t (index + 1) rest
  termination_by _ bs => bs.length

def Needle.find? (n : Needle) (loose : Bool) (line : Bytes) (index : Nat) : Option Regex.Match :=
  match n with
  | .expression r => r.find? loose line index
  | .text t => textAt? loose t index (line.drop index)

def isWhole (bs : Bytes) (m : Regex.Match) : Bool :=
  !((0 < m.first && (bs[m.first - 1]?).any Regex.isWordByte)
    || (bs[m.last]?).any Regex.isWordByte)

/-- The first match from an index on that fulfils a condition. -/
def Needle.findWhere? (n : Needle) (loose : Bool) (line : Bytes) (fine : Regex.Match → Bool) :
    (fuel index : Nat) → Option Regex.Match
  | 0, _ => none
  | fuel + 1, index =>
    match n.find? loose line index with
    | none => none
    | some m => if fine m then some m else findWhere? n loose line fine fuel (m.first + 1)

def firstMatch? (ns : List Needle) (loose word whole : Bool) (line : Bytes) (index : Nat) :
    Option Regex.Match :=
  let fine (m : Regex.Match) : Bool :=
    (!word || isWhole line m) && (!whole || (m.first = 0 && m.last = line.length))
  let found := ns.filterMap fun n => n.findWhere? loose line fine (line.length + 2) index
  found.foldl (fun best m =>
    match best with
    | none => some m
    | some b =>
      if m.first < b.first || (m.first = b.first && b.last < m.last) then some m else best) none

def allMatches (find : Nat → Option Regex.Match) : (fuel index : Nat) → List Bytes
  | 0, _ => []
  | fuel + 1, index =>
    match find index with
    | none => []
    | some m =>
      if m.text.isEmpty then allMatches find fuel (m.last + 1)
      else m.text :: allMatches find fuel m.last

def needles (o : Options) (patterns : List Bytes) : Except String (List Needle) :=
  let lines := patterns.flatMap fun p => if p.isEmpty then [[]] else linesOf p
  if o.has 'F' then .ok (lines.map .text)
  else lines.mapM fun l => (Regex.parse (o.has 'E') l).map .expression

def filesBelow (s : Scene) (path : Bytes) : List Bytes :=
  let start := textOf path
  match s.disk.find (s.path start) with
  | .ok (l, .directory) =>
    sortedTexts (s.disk.nodes.filterMap fun (m, n) =>
      match n, l.isPrefixOf m with
      | .file _ _, true =>
        let name := Text.join "/" (m.drop l.length)
        some (if start = "." then name else Text.stripEnd "/" start ++ "/" ++ name)
      | _, _ => none) |>.map Text.utf8
  | _ => [path]

def grep : Tool := fun args s =>
  let usage := "Usage: grep [OPTION]... PATTERNS [FILE]...\nTry 'grep --help' for more information."
  let long := [("quiet", 'q'), ("silent", 'q'), ("count", 'c'), ("invert-match", 'v'),
    ("ignore-case", 'i'), ("line-number", 'n'), ("only-matching", 'o'), ("extended-regexp", 'E'),
    ("fixed-strings", 'F'), ("line-regexp", 'x'), ("word-regexp", 'w'), ("regexp", 'e'),
    ("no-messages", 's'), ("max-count", 'm'), ("files-with-matches", 'l'), ("no-filename", 'h'),
    ("with-filename", 'H'), ("files-without-match", 'L')]
  match Options.read "EFGvciqnoxwlLhHsayzrR" "emABC" long none args with
  | .error e => Reply.refusal 2 ("grep: " ++ e ++ "\n" ++ usage)
  | .ok o =>
    let (patterns, files) := if o.has 'e' then (o.values 'e', o.operands)
      else (o.operands.take 1, o.operands.drop 1)
    let deep := o.has 'r' || o.has 'R'
    let files := if deep then (if files.isEmpty then [[46]] else files).flatMap (filesBelow s)
      else files
    if patterns.isEmpty then Reply.refusal 2 usage
    else
      match needles o patterns with
      | .error e => Reply.refusal 2 ("grep: " ++ e)
      | .ok ns =>
        let find (l : Bytes) := firstMatch? ns (o.has 'i' || o.has 'y') (o.has 'w') (o.has 'x') l
        let titled := (deep || 1 < files.length || o.has 'H') && !o.has 'h'
        let most := ((o.value? 'm').bind fun v => (textOf v).toNat?)
        let one (f : String × Except String Bytes) : Reply × Bool :=
          let name := if f.1 = "-" then "(standard input)" else f.1
          match f.2 with
          | .error e =>
            (if o.has 's' then { status := 2 } else Reply.refusal 2 ("grep: " ++ f.1 ++ ": " ++ e),
              false)
          | .ok bs =>
            let hits := (linesOf bs).zipIdx.filter fun (l, _) => (find l 0).isSome != o.has 'v'
            let hits := match most with
              | some n => hits.take n
              | none => hits
            let title := if titled then Text.utf8 (name ++ ":") else []
            let numbered (i : Nat) (l : Bytes) : Bytes :=
              title ++ (if o.has 'n' then Text.utf8 (Decimal.digitText (i + 1) ++ ":") else []) ++ l
            let shown : Reply :=
              if o.has 'q' then {}
              else if o.has 'L' then (if hits.isEmpty then Reply.outText (name ++ "\n") else {})
              else if o.has 'l' then (if hits.isEmpty then {} else Reply.outText (name ++ "\n"))
              else if o.has 'c' then
                Reply.out (title ++ Text.utf8 (Decimal.digitText hits.length ++ "\n"))
              else if bs.contains 0 && !o.has 'a' then
                (if hits.isEmpty then {}
                  else Reply.outText ("grep: " ++ name ++ ": binary file matches\n"))
              else if o.has 'o' then
                Reply.out (if o.has 'v' then [] else unlines (hits.flatMap fun (l, i) =>
                  (allMatches (find l) (l.length + 2) 0).map (numbered i)))
              else Reply.out (unlines (hits.map fun (l, i) => numbered i l))
            (shown, !hits.isEmpty != o.has 'L')
        let all := if deep && files.isEmpty then [] else contents s endless files
        let results := all.map one
        let all := Reply.all (results.map (·.1))
        let any := results.any (·.2)
        -- What goes to the second stream is seen first.
        { all with
          writes := all.writes.filter (·.1 = 2) ++ all.writes.filter (·.1 = 1)
          status := if any && (o.has 'q' || all.status = 0) then 0
            else if 0 < all.status then 2 else 1
          reads := readsInput files }

end Deadwood.Shell
