import Deadwood.Numeral
import Deadwood.Shell.Format
import Deadwood.Shell.Pattern
import Deadwood.Shell.Tool.Options

/-!
# Filters

Tools that read files or their input and write something made of it: parts of it, its lines in
another order, or numbers about it.

## Main definitions

* `Shell.cat`, `Shell.head`, `Shell.tail`, `Shell.wc`: parts and sizes.
* `Shell.tr`, `Shell.cut`, `Shell.rev`, `Shell.tac`, `Shell.nl`: changed text.
* `Shell.sort`, `Shell.uniq`: lines in order.
-/

namespace Deadwood.Shell

/-! ## Parts -/

def numbered (blank : Bool) : (n : Nat) → List Bytes → List Bytes
  | _, [] => []
  | n, l :: ls =>
    if l.isEmpty && !blank then l :: numbered blank n ls
    else
      let text := Decimal.digitText n
      (Text.utf8 (Text.repeated (6 - text.length) " " ++ text ++ "\t") ++ l)
        :: numbered blank (n + 1) ls

/-- Change lines, and keep a missing end of the last one. -/
def changeLines (f : List Bytes → List Bytes) (bs : Bytes) : Bytes :=
  let out := unlines (f (linesOf bs))
  if endsLine bs then out else out.dropLast

/-- Lines of which no two in a row are empty. -/
def squeezeBlank : List Bytes → List Bytes
  | [] :: [] :: ls => squeezeBlank ([] :: ls)
  | l :: ls => l :: squeezeBlank ls
  | [] => []

def cat : Tool := fun args s =>
  withOptions "cat" "nbsETAetuv" "" [("number", 'n')] args fun o =>
    let change (bs : Bytes) : Bytes :=
      let bs := if o.has 's' then changeLines squeezeBlank bs else bs
      let bs := if o.has 'b' then changeLines (numbered false 1) bs
        else if o.has 'n' then changeLines (numbered true 1) bs else bs
      if o.has 'E' || o.has 'A' || o.has 'e' then
        bs.flatMap fun b => if b = 10 then [36, 10] else [b]
      else bs
    { Reply.all ((contents s endless o.operands).map fun (f, content) =>
        match content with
        | .ok bs => Reply.out (change bs)
        | .error e => Reply.refusal 1 ("cat: " ++ nameText f ++ ": " ++ e)) with
      reads := readsInput o.operands }

def firstLines : Nat → Bytes → Bytes
  | 0, _ => []
  | _, [] => []
  | n + 1, b :: bs => b :: firstLines (if b = 10 then n else n + 1) bs

def laterLines : Nat → Bytes → Bytes
  | 0, bs => bs
  | _, [] => []
  | n + 1, b :: bs => laterLines (if b = 10 then n else n + 1) bs

def lineCount (bs : Bytes) : Nat :=
  (linesOf bs).length

def sized? (s : String) : Option Nat :=
  let ds := s.toList.takeWhile Char.isDigit
  match Numeral.natOfDigits? 10 ds, String.ofList (s.toList.drop ds.length) with
  | some n, unit =>
    if ds.isEmpty then none
    else
      match unit with
      | "" => some n
      | "b" => some (n * 512)
      | "K" | "k" | "KiB" => some (n * 1024)
      | "kB" | "KB" => some (n * 1000)
      | "M" | "MiB" => some (n * 1048576)
      | _ => none
  | none, _ => none

def signedCount? (s : String) : Option (Option Char × Nat) :=
  match s.toList with
  | '-' :: cs => (sized? (String.ofList cs)).map (some '-', ·)
  | '+' :: cs => (sized? (String.ofList cs)).map (some '+', ·)
  | _ => (sized? s).map (none, ·)

/-- Parts of files, with their names in front if there are several. -/
def partsOf (name : String) (s : Scene) (o : Options) (limit : Nat) (part : Bytes → Bytes) :
    Reply :=
  let titled := !o.has 'q' && (1 < o.operands.length || o.has 'v')
  let title (first : Bool) (f : String) : Reply :=
    if titled then
      Reply.outText ((if first then "" else "\n") ++ "==> "
        ++ (if f = "-" then "standard input" else f) ++ " <==\n")
    else {}
  let step (r : Reply × Bool) (f : String × Except String Bytes) : Reply × Bool :=
    match f.2 with
    | .ok bs => (r.1 ++ title r.2 f.1 ++ Reply.out (part bs), false)
    | .error e =>
      if e = reason .isDirectory then
        (r.1 ++ title r.2 f.1
          ++ Reply.refusal 1 (name ++ ": error reading '" ++ f.1 ++ "': " ++ e), false)
      else
        (r.1 ++ Reply.refusal 1 (name ++ ": cannot open '" ++ f.1 ++ "' for reading: " ++ e), r.2)
  let (r, _) := (contents s limit o.operands).foldl step ({}, true)
  -- What goes to the second stream is seen first.
  { r with
    writes := r.writes.filter (·.1 = 2) ++ r.writes.filter (·.1 = 1)
    reads := readsInput o.operands }

/-- A count as the first argument stands for the option with this count. -/
def oldCount (args : List Bytes) : List Bytes :=
  match args with
  | a :: rest =>
    match (textOf a).toList with
    | '-' :: d :: cs =>
      if d.isDigit then Text.utf8 "-n" :: Text.utf8 (String.ofList (d :: cs)) :: rest else args
    | _ => args
  | [] => []

def head : Tool := fun args s =>
  withOptions "head" "qvz" "nc" [("lines", 'n'), ("bytes", 'c'), ("quiet", 'q')] (oldCount args)
    fun o =>
      match o.given.reverse.find? fun g => g.1 = 'n' || g.1 = 'c' with
      | none => partsOf "head" s o endless (firstLines 10)
      | some (c, v) =>
        let kind := if c = 'n' then "lines" else "bytes"
        match signedCount? (textOf v) with
        | none =>
          Reply.refusal 1 ("head: invalid number of " ++ kind ++ ": '" ++ textOf v ++ "'")
        | some (some '-', n) =>
          partsOf "head" s o endless fun bs =>
            if c = 'n' then firstLines (lineCount bs - n) bs else bs.take (bs.length - n)
        | some (_, n) =>
          partsOf "head" s o (if c = 'n' then endless else n) fun bs =>
            if c = 'n' then firstLines n bs else bs.take n

def tail : Tool := fun args s =>
  withOptions "tail" "qvz" "nc" [("lines", 'n'), ("bytes", 'c'), ("quiet", 'q')] (oldCount args)
    fun o =>
      let last (n : Nat) (bs : Bytes) := laterLines (lineCount bs - n) bs
      match o.given.reverse.find? fun g => g.1 = 'n' || g.1 = 'c' with
      | none => partsOf "tail" s o endless (last 10)
      | some (c, v) =>
        let kind := if c = 'n' then "lines" else "bytes"
        match signedCount? (textOf v) with
        | none =>
          Reply.refusal 1 ("tail: invalid number of " ++ kind ++ ": '" ++ textOf v ++ "'")
        | some (some '+', n) =>
          partsOf "tail" s o endless fun bs =>
            if c = 'n' then laterLines (n - 1) bs else bs.drop (n - 1)
        | some (_, n) =>
          partsOf "tail" s o endless fun bs =>
            if c = 'n' then last n bs else bs.drop (bs.length - n)

/-! ## Sizes -/

def wordCount (bs : Bytes) : Nat :=
  (bs.foldl (fun (n, inside) b =>
    if byteClass "space" b then (n, false) else (if inside then n else n + 1, true))
    ((0, false) : Nat × Bool)).1

def longestLine (bs : Bytes) : Nat :=
  (linesOf bs).foldl (fun n l => max n l.length) 0

def wc : Tool := fun args s =>
  withOptions "wc" "lwcmL" "" [("lines", 'l'), ("words", 'w'), ("bytes", 'c'), ("chars", 'm')] args
    fun o =>
      let o := if o.given.isEmpty then { o with given := [('l', []), ('w', []), ('c', [])] } else o
      let sizes (bs : Bytes) : List Nat :=
        (if o.has 'l' then [bs.count 10] else []) ++ (if o.has 'w' then [wordCount bs] else [])
          ++ (if o.has 'm' then [bs.length] else []) ++ (if o.has 'c' then [bs.length] else [])
          ++ (if o.has 'L' then [longestLine bs] else [])
      let all := contents s endless o.operands
      let regular (f : String) := if f = "-" then s.inputIsFile
        else !f.toList.isEmpty && (s.read f endless).toOption.isSome
      let size := all.foldl (fun n f => n + (f.2.toOption.getD []).length) 0
      let width := if all.length = 1 && (sizes []).length = 1 then 1
        else max (if all.all fun f => regular f.1 || f.2.toOption.isNone then 1 else 7)
          (Decimal.digitText size).length
      let row (ns : List Nat) (name : String) : Reply :=
        let cells := ns.map fun n =>
          let t := Decimal.digitText n
          Text.repeated (width - t.length) " " ++ t
        Reply.outText (Text.join " " cells ++ name ++ "\n")
      let rows := all.map fun (f, content) =>
        match content with
        | .ok bs => row (sizes bs) (if o.operands.isEmpty then "" else " " ++ f)
        | .error e =>
          let r := Reply.refusal 1 ("wc: " ++ nameText f ++ ": " ++ e)
          if e = reason .isDirectory then r ++ row (sizes []) (" " ++ f) else r
      let totals := all.foldl (fun t f =>
        List.zipWith (· + ·) t (sizes (f.2.toOption.getD []))) (sizes [])
      { Reply.all rows ++ (if 1 < all.length then row totals " total" else {}) with
        reads := readsInput o.operands }

/-! ## Bytes -/

/-- A set of bytes with its ranges, classes and escapes written out. -/
def byteSet : (fuel : Nat) → Bytes → Bytes
  | 0, _ => []
  | _, [] => []
  | fuel + 1, 91 :: 58 :: rest =>
    let name := rest.takeWhile (· ≠ 58)
    match rest.drop name.length with
    | 58 :: 93 :: after =>
      (((List.range 256).map UInt8.ofNat).filter (byteClass (textOf name))) ++ byteSet fuel after
    | _ => 91 :: byteSet fuel (58 :: rest)
  | fuel + 1, b :: rest =>
    let single (bs : Bytes) : UInt8 × Bytes :=
      match bs with
      | 92 :: c :: after =>
        match escapeByte (c :: after) with
        | (e, left) => if left.length = after.length + 1 then (c, after) else (e, left)
      | c :: after => (c, after)
      | [] => (0, [])
    let (low, after) := single (b :: rest)
    match after with
    | 45 :: c :: more =>
      let (high, left) := single (c :: more)
      (List.range (high.toNat + 1 - low.toNat)).map (fun i => UInt8.ofNat (low.toNat + i))
        ++ byteSet fuel left
    | _ => low :: byteSet fuel after

def squeezed (has : UInt8 → Bool) : Bytes → Bytes
  | a :: b :: bs =>
    if a = b && has a then squeezed has (b :: bs) else a :: squeezed has (b :: bs)
  | bs => bs

/-- Exchange the bytes of one set for those of another, whose last byte stands for all further ones;
or drop them, or keep one of several in a row. -/
def tr : Tool := fun args s =>
  -- A set may look like an option, so options end at the first operand.
  let flags := args.takeWhile fun a => a.head? = some 45 && 1 < a.length && a ≠ [45, 45]
  let sets := (args.drop flags.length).filter (· ≠ [45, 45])
  withOptions "tr" "cCdst" "" [("delete", 'd'), ("squeeze-repeats", 's'), ("complement", 'c')] flags
    fun o =>
      let set (i : Nat) := let b := (sets[i]?).getD []; byteSet (b.length + 1) b
      let complement := o.has 'c' || o.has 'C'
      let has (b : UInt8) : Bool := (set 0).contains b != complement
      let source := if complement then
          ((List.range 256).map UInt8.ofNat).filter fun b => !(set 0).contains b
        else set 0
      let change (b : UInt8) : UInt8 :=
        match source.idxOf? b with
        | some i => (((set 1)[i]?).or (set 1).getLast?).getD b
        | none => b
      let hint := "\nTry 'tr --help' for more information."
      let result (bs : Bytes) : Reply := { Reply.out bs with reads := true }
      match sets with
      | [] => Reply.refusal 1 ("tr: missing operand" ++ hint)
      | [a] =>
        if o.has 'd' && !o.has 's' then result (s.input.filter fun b => !has b)
        else if o.has 's' && !o.has 'd' then result (squeezed has s.input)
        else Reply.refusal 1 ("tr: missing operand after '" ++ textOf a ++ "'\nTwo strings must be "
          ++ "given when translating." ++ hint)
      | [_, b] =>
        if o.has 'd' && o.has 's' then
          result (squeezed (set 1).contains (s.input.filter fun b => !has b))
        else if o.has 'd' then
          Reply.refusal 1 ("tr: extra operand '" ++ textOf b ++ "'\nOnly one string may be given "
            ++ "when deleting without squeezing repeats." ++ hint)
        else if o.has 's' then result (squeezed (set 1).contains (s.input.map change))
        else result (s.input.map change)
      | _ :: _ :: c :: _ => Reply.refusal 1 ("tr: extra operand '" ++ textOf c ++ "'" ++ hint)

/-! ## Lines -/

def splitBytes (sep : UInt8) : Bytes → List Bytes
  | [] => [[]]
  | b :: bs =>
    if b = sep then [] :: splitBytes sep bs
    else
      match splitBytes sep bs with
      | part :: parts => (b :: part) :: parts
      | [] => [[b]]

def joinBytes (sep : Bytes) (parts : List Bytes) : Bytes :=
  (parts.intersperse sep).flatten

/-- Ranges of numbers such as `2,4-6`; the first problem if there is one. -/
def ranges? (fields : Bool) (s : String) : Except String (List (Nat × Option Nat)) :=
  let number (t : String) : Option Nat :=
    if t ≠ "" && t.toList.all Char.isDigit then t.toNat? else none
  let wrong (t : String) : Except String (Nat × Option Nat) :=
    .error ((if fields then "invalid field value '" else "invalid byte/character position '")
      ++ t ++ "'")
  let counted (r : Nat × Option Nat) : Except String (Nat × Option Nat) :=
    if r.1 = 0 then
      .error ((if fields then "fields" else "byte/character positions") ++ " are numbered from 1")
    else if r.2.any (· < r.1) then .error "invalid decreasing range"
    else .ok r
  (Text.segments ',' s).mapM fun part =>
    match Text.segments '-' part with
    | ["", ""] => .error "invalid range with no endpoint: -"
    | [t] =>
      match number t with
      | some n => counted (n, some n)
      | none => wrong t
    | ["", t] =>
      match number t with
      | some n => counted (1, some n)
      | none => wrong t
    | [t, ""] =>
      match number t with
      | some n => counted (n, none)
      | none => wrong t
    | [t, u] =>
      match number t, number u with
      | some n, some m => counted (n, some m)
      | none, _ => wrong part
      | _, none => wrong u
    | _ => .error ("invalid " ++ (if fields then "field" else "byte or character") ++ " range")

def cut : Tool := fun args s =>
  withOptions "cut" "sn" "dfcb" [("delimiter", 'd'), ("fields", 'f'), ("only-delimited", 's')] args
    fun o =>
      let refuse (what : String) : Reply :=
        Reply.refusal 1 ("cut: " ++ what ++ "\nTry 'cut --help' for more information.")
      if (o.value? 'd').any (1 < ·.length) then refuse "the delimiter must be a single character"
      else
        match o.given.find? fun g => g.1 = 'f' || g.1 = 'c' || g.1 = 'b' with
        | none => refuse "you must specify a list of bytes, characters, or fields"
        | some (kind, list) =>
          match ranges? (kind = 'f') (textOf list) with
          | .error e => refuse e
          | .ok rs =>
            let chosen {α : Type} (as : List α) : List α :=
              (as.zipIdx.filter fun (_, i) =>
                rs.any fun (low, high) => low ≤ i + 1 && high.all (i + 1 ≤ ·)).map (·.1)
            let sep := ((o.value? 'd').getD [9]).headD 9
            overFiles "cut" s o.operands fun bs =>
              unlines ((linesOf bs).filterMap fun l =>
                if kind ≠ 'f' then some (chosen l)
                else if !l.contains sep then (if o.has 's' then none else some l)
                else some (joinBytes [sep] (chosen (splitBytes sep l))))

def overReadable (s : Scene) (files : List Bytes) (complaint : String → String → String)
    (run : Bytes → Bytes) : Reply :=
  { Reply.all ((contents s endless files).map fun (f, content) =>
      match content with
      | .ok bs => Reply.out (run bs)
      | .error e => Reply.refusal 1 (complaint f e)) with
    reads := readsInput files }

def rev : Tool := fun args s =>
  overReadable s args (fun f e => "rev: cannot open " ++ f ++ ": " ++ e)
    (changeLines (·.map List.reverse))

def tac : Tool := fun args s =>
  overReadable s args (fun f e => "tac: failed to open '" ++ f ++ "' for reading: " ++ e)
    fun bs => unlines (linesOf bs).reverse

def nl : Tool := fun args s =>
  withOptions "nl" "" "b" [] args fun o =>
    overFiles "nl" s o.operands fun bs =>
      unlines ((numbered (o.value? 'b' = some [97]) 1 (linesOf bs)).map fun l =>
        if l.isEmpty then List.replicate 7 32 else l)

/-- Lines in columns; the input is dealt out to those columns that are to be filled from it. -/
def paste : Tool := fun args s =>
  withOptions "paste" "s" "d" [("serial", 's'), ("delimiters", 'd')] args fun o =>
    let sep := ((o.value? 'd').getD [9]).take 1
    let files := if o.operands.isEmpty then [[45]] else o.operands
    let dealt := (files.filter (· = [45])).length
    let column (f : Bytes) (before : Nat) : List Bytes :=
      let lines := linesOf ((s.read (textOf f) endless).toOption.getD [])
      if f ≠ [45] || o.has 's' then lines
      else (lines.zipIdx.filter fun (_, i) => i % dealt = before).map (·.1)
    let all := files.zipIdx.map fun (f, i) => column f ((files.take i).filter (· = [45])).length
    let rows := all.foldl (fun n ls => max n ls.length) 0
    let out := if o.has 's' then all.map (joinBytes sep)
      else (List.range rows).map fun i => joinBytes sep (all.map fun ls => (ls[i]?).getD [])
    { Reply.out (unlines out) with reads := readsInput o.operands }

/-! ## Order -/

/-- The number at the start of a line, in units of its places. -/
def leadingNumber (l : Bytes) : Int × Nat :=
  let cs := (textOf l).toList.dropWhile fun c => c = ' ' || c = '\t'
  let (negative, cs) := match cs with
    | '-' :: cs => (true, cs)
    | cs => (false, cs)
  let whole := cs.takeWhile Char.isDigit
  let places := match cs.drop whole.length with
    | '.' :: ds => ds.takeWhile Char.isDigit
    | _ => []
  let n := (Numeral.natOfDigits? 10 (whole ++ places)).getD 0
  (if negative then -(n : Int) else n, places.length)

def numberLess (a b : Bytes) : Bool :=
  let (x, p) := leadingNumber a
  let (y, q) := leadingNumber b
  x * Nat.pow 10 q < y * Nat.pow 10 p

structure LineOrder where
  numeric : Bool
  reversed : Bool
  folded : Bool
  /-- The fields that count: the first one and the last one. -/
  fields : Option (Nat × Option Nat)
  sep : Option UInt8

/-- Fields between blanks; the blanks belong to the field behind them. -/
def blankFields : (fuel : Nat) → Bytes → List Bytes
  | 0, _ => []
  | _, [] => []
  | fuel + 1, l =>
    let blanks := l.takeWhile (byteClass "blank")
    let word := (l.drop blanks.length).takeWhile fun b => !byteClass "blank" b
    let taken := blanks.length + word.length
    l.take taken :: blankFields fuel (l.drop taken)

def LineOrder.key (o : LineOrder) (l : Bytes) : Bytes :=
  let l := match o.fields with
    | none => l
    | some (first, last) =>
      let fields := match o.sep with
        | some c => splitBytes c l
        | none => blankFields (l.length + 1) l
      let chosen := (fields.drop (first - 1)).take (match last with
        | some n => n + 1 - first
        | none => fields.length)
      joinBytes (match o.sep with
        | some c => [c]
        | none => []) chosen
  if o.folded then l.map fun b => if 97 ≤ b && b ≤ 122 then b - 32 else b else l

/-- Whether one line comes strictly before another, in what counts. -/
def LineOrder.less (o : LineOrder) (a b : Bytes) : Bool :=
  if o.numeric then numberLess (o.key a) (o.key b) else bytesLess (o.key a) (o.key b)

/-- The field numbers at the start and end of a key, and its letters. -/
def sortKey? (s : String) : Option (Nat × Option Nat × List Char) :=
  let number (t : String) := Numeral.natOfDigits? 10 (t.toList.takeWhile Char.isDigit)
  let letters := s.toList.filter Char.isAlpha
  match Text.segments ',' s with
  | [a] => (number a).map fun n => (n, none, letters)
  | [a, b] =>
    match number a, number b with
    | some n, some m => some (n, some m, letters)
    | _, _ => none
  | _ => none

def sort : Tool := fun args s =>
  withOptions "sort" "nrufbdgszi" "kto" [("numeric-sort", 'n'), ("reverse", 'r'), ("unique", 'u')]
    args fun o =>
      let key := (o.value? 'k').bind fun k => sortKey? (textOf k)
      let letter (c : Char) := o.has c || key.any (·.2.2.contains c)
      let order : LineOrder := {
        numeric := letter 'n' || letter 'g'
        reversed := letter 'r'
        folded := letter 'f'
        fields := key.map fun k => (k.1, k.2.1)
        sep := (o.value? 't').bind List.head? }
      let before (a b : Bytes) : Bool :=
        let (a, b) := if order.reversed then (b, a) else (a, b)
        if order.less a b then true
        else if order.less b a then false
        else o.has 'u' || o.has 's' || !bytesLess b a
      let distinct : List Bytes → List Bytes := fun ls =>
        (ls.foldl (fun kept l =>
          match kept with
          | k :: _ => if !order.less k l && !order.less l k then kept else l :: kept
          | [] => [l]) []).reverse
      let result (bs : Bytes) : Bytes :=
        let sorted := (linesOf bs).mergeSort before
        unlines (if o.has 'u' then distinct sorted else sorted)
      match (contents s endless o.operands).find? fun f => f.2.toOption.isNone with
      | some (f, .error e) => Reply.refusal 2 ("sort: cannot read: " ++ nameText f ++ ": " ++ e)
      | _ => overFiles "sort" s o.operands result

/-- Runs of lines that are equal in what counts, with their first line and length. -/
def runs (key : Bytes → Bytes) : List Bytes → List (Nat × Bytes)
  | [] => []
  | l :: ls =>
    match runs key ls with
    | (n, k) :: rest => if key k = key l then (n + 1, l) :: rest else (1, l) :: (n, k) :: rest
    | [] => [(1, l)]

def uniq : Tool := fun args s =>
  withOptions "uniq" "cdui" "" [("count", 'c'), ("repeated", 'd'), ("unique", 'u')] args fun o =>
    let key (l : Bytes) := if o.has 'i' then l.map fun b => if 65 ≤ b && b ≤ 90 then b + 32 else b
      else l
    overFiles "uniq" s (o.operands.take 1) fun bs =>
      let kept := (runs key (linesOf bs)).filter fun (n, _) =>
        (!o.has 'd' || 1 < n) && (!o.has 'u' || n = 1)
      unlines (kept.map fun (n, l) =>
        if o.has 'c' then
          let t := Decimal.digitText n
          Text.utf8 (Text.repeated (7 - t.length) " " ++ t ++ " ") ++ l
        else l)

end Deadwood.Shell
