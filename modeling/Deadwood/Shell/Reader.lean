import Deadwood.Shell.Script
import Deadwood.Text.Segments

/-!
# Reading scripts

A script is read line by line: a line with all that it opens is read before it runs. Words that are
written without quotes where a command may start can be keywords.

## Main definitions

* `Shell.Source`, `Shell.Reading`: the text that is left, and reading from it.
* `Shell.Token`, `Shell.token`: the tokens.
* `Shell.nextLine`: the next line of a script.
-/

namespace Deadwood.Shell

/-- A text in the script that starts behind the current line. -/
structure Awaited where
  number : Nat
  /-- The line behind it. -/
  stop : String
  /-- Whether it is taken as it is. -/
  literal : Bool
  /-- Whether tabs at the start of its lines are dropped. -/
  stripped : Bool

structure Source where
  rest : List Char
  line : Nat := 1
  awaited : List Awaited := []
  texts : Texts := []
  count : Nat := 0

structure Mistake where
  line : Nat
  message : String

abbrev Reading := StateT Source (Except Mistake)

def mistaken {α : Type} (message : String) : Reading α := do
  throw ⟨(← get).line, message⟩

def peek : Reading (Option Char) := do
  return (← get).rest.head?

/-- Pass `n` characters, none of which ends a line. -/
def pass (n : Nat) : Reading Unit :=
  modify fun s => { s with rest := s.rest.drop n }

def passed? (start : String) : Reading Bool := do
  let s ← get
  match start.toList.isPrefixOf? s.rest with
  | some rest => set { s with rest }; return true
  | none => return false

def next : Reading (Option Char) := do
  let s ← get
  match s.rest with
  | [] => return none
  | c :: rest =>
    set { s with rest, line := if c = '\n' then s.line + 1 else s.line }
    return some c

def passWhile (p : Char → Bool) : Reading String := do
  let s ← get
  let taken := s.rest.takeWhile p
  set { s with
    rest := s.rest.drop taken.length
    line := s.line + (taken.filter (· = '\n')).length }
  return String.ofList taken

def isNameStart (c : Char) : Bool :=
  c.isAlpha || c = '_'

def isNameChar (c : Char) : Bool :=
  c.isAlphanum || c = '_'

def isName (s : String) : Bool :=
  match s.toList with
  | [] => false
  | c :: cs => isNameStart c && cs.all isNameChar

/-! ## Tokens -/

inductive Token where
  | ended
  | newline
  /-- A mark between commands. -/
  | mark (s : String)
  /-- A mark that redirects a stream. -/
  | redirect (stream : Option Nat) (s : String)
  | word (w : Word)
  | keyword (s : String)

def Token.name : Token → String
  | .ended => "end of file"
  | .newline => "newline"
  | .mark s => "\"" ++ s ++ "\""
  | .redirect _ _ => "redirection"
  | .word _ => "word"
  | .keyword s => "\"" ++ s ++ "\""

def unexpected {α : Type} (t : Token) : Reading α :=
  mistaken (t.name ++ " unexpected")

def expected {α : Type} (t : Token) (wanted : String) : Reading α :=
  mistaken (t.name ++ " unexpected (expecting \"" ++ wanted ++ "\")")

def keywords : List String :=
  ["!", "case", "do", "done", "elif", "else", "esac", "fi", "for", "if", "in", "then", "until",
    "while", "\x7b", "\x7d"]

/-- The marks between commands, longer ones first. -/
def marks : List String :=
  ["&&", "||", ";;", ";", "&", "|", "(", ")"]

def redirectMarks : List String :=
  ["<<-", "<<", "<&", "<>", "<", ">>", ">&", ">|", ">"]

def endsWord (c : Char) : Bool :=
  " \t\n;&|<>()".toList.contains c

def addPiece (p : Piece) : Word → Word
  | .text q s :: w =>
    match p with
    | .text r t => if q = r then .text q (t ++ s) :: w else p :: .text q s :: w
    | _ => p :: .text q s :: w
  | w => p :: w

def plainText? : Word → Option String
  | [.text false s] => some s
  | _ => none

/-- The text of a word that is no more than text, and whether any of it is quoted. -/
def literalText : Word → String × Bool
  | [] => ("", false)
  | .text q s :: w =>
    let (t, r) := literalText w
    (s ++ t, q || r)
  | .parameter q name .keep _ :: w =>
    let (t, r) := literalText w
    ("$" ++ name ++ t, q || r)
  | _ :: w => literalText w

inductive Limit where
  /-- At a blank or a mark. -/
  | word
  | doubleQuote
  | brace
  /-- At two closing brackets. -/
  | brackets
  /-- At the end of the text, in which quotes stand for themselves. -/
  | text
  deriving DecidableEq

def linesUntil (stop : String) (stripped : Bool) : (fuel : Nat) → List Char → List Char × List Char
  | 0, cs => ([], cs)
  | _, [] => ([], [])
  | fuel + 1, cs =>
    let line := cs.takeWhile (· ≠ '\n')
    let ended := cs.drop line.length
    let line := if stripped then line.dropWhile (· = '\t') else line
    if line = stop.toList then ([], ended.drop 1)
    else
      let (more, rest) := linesUntil stop stripped fuel (ended.drop 1)
      (line ++ ended.take 1 ++ more, rest)

/-- The text between backquotes and what follows it. A backslash protects a backslash, a dollar sign
and a backquote, and between double quotes also a double quote. -/
def backquoted (quoted : Bool) : List Char → Option (List Char × List Char)
  | [] => none
  | '\x60' :: cs => some ([], cs)
  | '\\' :: c :: cs =>
    let protected_ := c = '\\' || c = '$' || c = '\x60' || (quoted && c = '"')
    (backquoted quoted cs).map fun (ds, rest) =>
      (if protected_ then c :: ds else '\\' :: c :: ds, rest)
  | c :: cs => (backquoted quoted cs).map fun (ds, rest) => (c :: ds, rest)

def change : Reading Change := do
  if ← passed? ":-" then return .default_ true
  if ← passed? ":=" then return .assign true
  if ← passed? ":?" then return .demand true
  if ← passed? ":+" then return .alternative true
  if ← passed? ":" then
    -- Whatever comes next counts as the mark, even a brace.
    pass 1
    return .bad
  if ← passed? "-" then return .default_ false
  if ← passed? "=" then return .assign false
  if ← passed? "?" then return .demand false
  if ← passed? "+" then return .alternative false
  if ← passed? "##" then return .cutStart true
  if ← passed? "#" then return .cutStart false
  if ← passed? "%%" then return .cutEnd true
  if ← passed? "%" then return .cutEnd false
  return .bad

def isSpecial (c : Char) : Bool :=
  "?$!#*@-".toList.contains c

def parameterName : Reading String := do
  match ← peek with
  | some c =>
    if isNameStart c then passWhile isNameChar
    else if c.isDigit then passWhile Char.isDigit
    else if isSpecial c then pass 1; return String.singleton c
    else return ""
  | none => return ""

def passBlanks : (fuel : Nat) → Reading Unit
  | 0 => return
  | fuel + 1 => do
    let _ ← passWhile fun c => c = ' ' || c = '\t'
    let s ← get
    match s.rest with
    | '\\' :: '\n' :: rest =>
      set { s with rest, line := s.line + 1 }
      passBlanks fuel
    | '#' :: rest => set { s with rest := rest.dropWhile (· ≠ '\n') }
    | _ => return

def aside (s : Script) : Step :=
  .mk .always false [.compound (.background s) []]

/-! ## Words and commands -/

mutual

/-- The pieces of a word, or of what stands in quotes or braces. -/
def pieces : (fuel : Nat) → (quoted : Bool) → Limit → (depth : Nat) → Reading Word
  | 0, _, _, _ => mistaken "too long"
  | fuel + 1, quoted, limit, depth => do
    let more (p : Piece) (depth : Nat) : Reading Word := do
      return addPiece p (← pieces fuel quoted limit depth)
    let char (c : Char) (depth : Nat) := more (.text quoted (String.singleton c)) depth
    match ← peek with
    | none =>
      match limit with
      | .word | .text => return []
      | .doubleQuote => mistaken "Unterminated quoted string"
      | .brace => mistaken (if quoted then "Unterminated quoted string" else "Missing '\x7d'")
      | .brackets => mistaken "Missing '))'"
    | some c =>
      if limit = .word && endsWord c then return []
      else if limit = .doubleQuote && c = '"' then return []
      else if limit = .brace && c = '\x7d' then return []
      else if limit = .brackets && depth = 0 && (← passed? "))") then return []
      else
        let _ ← next
        if c = '\\' then
          match ← next with
          | none => more (.text quoted "\\") depth
          | some '\n' => pieces fuel quoted limit depth
          | some d =>
            let kept := d = '\\' || d = '$' || d = '\x60' || (d = '"' && limit ≠ .text)
              || (limit = .brace && d = '\x7d')
            if quoted && !kept then more (.text true (String.ofList ['\\', d])) depth
            else more (.text true (String.singleton d)) depth
        else if c = '\x27' && !quoted && limit ≠ .brackets then
          let s ← passWhile (· ≠ '\x27')
          match ← next with
          | none => mistaken "Unterminated quoted string"
          | some _ => more (.text true s) depth
        else if c = '"' && limit ≠ .text && limit ≠ .brackets then
          if quoted && limit = .brace then
            -- A quote inside of quoted braces ends and starts the quotes again.
            pieces fuel quoted limit depth
          else
            let w ← pieces fuel true .doubleQuote 0
            let _ ← next
            let rest ← pieces fuel quoted limit depth
            -- All arguments between quotes are no empty field if there are none.
            match w with
            | [.parameter _ "@" .keep _] => return w ++ rest
            | _ => return w.foldr addPiece (addPiece (.text true "") rest)
        else if c = '\x60' then
          let s ← get
          match backquoted quoted s.rest with
          | none =>
            let _ ← passWhile fun _ => true
            mistaken "EOF in backquote substitution"
          | some (text, rest) =>
            set { s with rest := text }
            let body ← lines fuel
            modify fun t => { t with rest, line := s.line }
            more (.output quoted body) depth
        else if c = '$' then more (← dollar fuel quoted) depth
        else if limit = .brackets && c = '(' then char c (depth + 1)
        else if limit = .brackets && c = ')' then char c (depth - 1)
        else char c depth

def dollar : (fuel : Nat) → (quoted : Bool) → Reading Piece
  | 0, _ => mistaken "too long"
  | fuel + 1, quoted => do
    if ← passed? "((" then return .number quoted (← pieces fuel true .brackets 0)
    else if ← passed? "(" then
      let body ← steps fuel true
      match ← token fuel true true with
      | .mark ")" => return .output quoted body
      | t => expected t ")"
    else if ← passed? "\x7b" then
      let s ← get
      match s.rest with
      | '#' :: c :: _ =>
        if isNameStart c || c.isDigit || (isSpecial c && s.rest[2]? = some '\x7d') then
          pass 1
          let name ← parameterName
          if ← passed? "\x7d" then return .parameter quoted name .length []
          else return .parameter quoted name .bad (← closing fuel quoted)
        else parameter fuel quoted
      | _ => parameter fuel quoted
    else
      match ← peek with
      | some c =>
        if isNameStart c then return .parameter quoted (← passWhile isNameChar) .keep []
        else if c.isDigit || isSpecial c then
          pass 1
          return .parameter quoted (String.singleton c) .keep []
        else return .text quoted "$"
      | none => return .text quoted "$"

def parameter : (fuel : Nat) → (quoted : Bool) → Reading Piece
  | 0, _ => mistaken "too long"
  | fuel + 1, quoted => do
    let name ← parameterName
    if name = "" then return .parameter quoted "" .bad (← closing fuel quoted)
    else if ← passed? "\x7d" then return .parameter quoted name .keep []
    else
      match ← change with
      | .cutStart longest =>
        return .parameter quoted name (.cutStart longest) (← closing fuel false)
      | .cutEnd longest => return .parameter quoted name (.cutEnd longest) (← closing fuel false)
      | c => return .parameter quoted name c (← closing fuel quoted)

def closing : (fuel : Nat) → (quoted : Bool) → Reading Word
  | 0, _ => mistaken "too long"
  | fuel + 1, quoted => do
    let w ← pieces fuel quoted .brace 0
    let _ ← next
    return w

/-- Read the texts that start behind the line that was just ended. -/
def awaitedTexts : (fuel : Nat) → List Awaited → Reading Unit
  | 0, _ => return
  | _, [] => return
  | fuel + 1, a :: rest => do
    let s ← get
    let (body, after) := linesUntil a.stop a.stripped (s.rest.length + 1) s.rest
    let w ←
      if a.literal then pure [.text true (String.ofList body)]
      else do
        set { s with rest := body }
        pieces fuel true .text 0
    modify fun t => { t with
      rest := after
      line := s.line + ((s.rest.take (s.rest.length - after.length)).filter (· = '\n')).length
      texts := (a.number, w) :: t.texts }
    awaitedTexts fuel rest

/-- The next token. Keywords are known where a command may start; there, line ends may be
skipped. -/
def token : (fuel : Nat) → (keyed skipping : Bool) → Reading Token
  | 0, _, _ => mistaken "too long"
  | fuel + 1, keyed, skipping => do
    passBlanks fuel
    let s ← get
    match s.rest with
    | [] => return .ended
    | '\n' :: _ =>
      let _ ← next
      let awaited := s.awaited.reverse
      modify fun t => { t with awaited := [] }
      awaitedTexts fuel awaited
      if skipping then token fuel keyed skipping else return .newline
    | c :: cs =>
      let stream : Option Nat :=
        if c.isDigit && cs.head?.any (fun d => d = '<' || d = '>') then some (c.toNat - 48)
        else none
      let ahead := if stream.isSome then cs else c :: cs
      match redirectMarks.find? fun m => m.toList.isPrefixOf ahead with
      | some m =>
        set { s with rest := ahead.drop m.length }
        return .redirect stream m
      | none =>
        match marks.find? fun m => m.toList.isPrefixOf (c :: cs) with
        | some m =>
          pass m.length
          return .mark m
        | none =>
          let w ← pieces fuel false .word 0
          match plainText? w with
          | some t => return if keyed && keywords.contains t then .keyword t else .word w
          | none => return .word w

def ahead : (fuel : Nat) → (keyed skipping : Bool) → Reading Token
  | 0, _, _ => mistaken "too long"
  | fuel + 1, keyed, skipping => do
    let s ← get
    let t ← token fuel keyed skipping
    set s
    return t

def target : (fuel : Nat) → (stream : Option Nat) → (m : String) → Reading Redirect
  | 0, _, _ => mistaken "too long"
  | fuel + 1, stream, m => do
    match ← token fuel false false with
    | .word w =>
      match m with
      | "<" => return .file (stream.getD 0) .read w
      | "<>" => return .file (stream.getD 0) .readWrite w
      | ">>" => return .file (stream.getD 1) .append w
      | ">&" => return .copy (stream.getD 1) w
      | "<&" => return .copy (stream.getD 0) w
      | "<<" | "<<-" =>
        let (stop, literal) := literalText w
        let s ← get
        set { s with
          count := s.count + 1
          awaited := ⟨s.count, stop, literal, m = "<<-"⟩ :: s.awaited }
        return .text (stream.getD 0) s.count
      | _ => return .file (stream.getD 1) .write w
    | t => unexpected t

def redirects : (fuel : Nat) → Reading (List Redirect)
  | 0 => return []
  | fuel + 1 => do
    match ← ahead fuel true false with
    | .redirect stream m =>
      let _ ← token fuel true false
      let r ← target fuel stream m
      return r :: (← redirects fuel)
    | _ => return []

/-- A command of words. In front of the first one, variables may be given values. -/
def simple : (fuel : Nat) → (line : Nat) → List (String × Word) → List Word → List Redirect →
    Reading Command
  | 0, _, _, _, _ => mistaken "too long"
  | fuel + 1, line, assigned, words, rs => do
    let finish : Command := .simple line assigned.reverse words.reverse rs.reverse
    match ← ahead fuel false false with
    | .word w =>
      let _ ← token fuel false false
      let given : Option (String × Word) :=
        match w with
        | .text false s :: rest =>
          let name := String.ofList (s.toList.takeWhile (· ≠ '='))
          match s.toList.dropWhile (· ≠ '=') with
          | _ :: value =>
            if isName name then
              some (name, if value.isEmpty then rest else .text false (String.ofList value) :: rest)
            else none
          | [] => none
        | _ => none
      match given, words with
      | some a, [] => simple fuel line (a :: assigned) words rs
      | _, _ => simple fuel line assigned (w :: words) rs
    | .redirect stream m =>
      let _ ← token fuel false false
      let r ← target fuel stream m
      simple fuel line assigned words (r :: rs)
    | .mark "(" =>
      match words, assigned, rs with
      | [w], [], [] =>
        let _ ← token fuel false false
        match ← token fuel false false with
        | .mark ")" =>
          let name := (plainText? w).getD ""
          let special := [".", ":", "break", "continue", "eval", "exec", "exit", "export",
            "readonly", "return", "set", "shift", "times", "trap", "unset"]
          if !isName name || special.contains name then mistaken "Bad function name"
          let _ ← ahead fuel true true
          return .define name (← command fuel true)
        | t => expected t ")"
      | _, _, _ => return finish
    | _ => return finish

def demandWord : (fuel : Nat) → (wanted : String) → Reading Unit
  | 0, _ => mistaken "too long"
  | fuel + 1, wanted => do
    match ← token fuel true true with
    | .keyword k => if k = wanted then return else expected (.keyword k) wanted
    | t => expected t wanted

def choice : (fuel : Nat) → Reading Compound
  | 0 => mistaken "too long"
  | fuel + 1 => do
    let test ← steps fuel false
    demandWord fuel "then"
    let yes ← steps fuel false
    match ← token fuel true true with
    | .keyword "elif" =>
      let inner ← choice fuel
      return .choice test yes [.mk .always false [.compound inner []]]
    | .keyword "else" =>
      let no ← steps fuel false
      demandWord fuel "fi"
      return .choice test yes no
    | .keyword "fi" => return .choice test yes []
    | t => expected t "fi"

def loopWords : (fuel : Nat) → Reading (List Word)
  | 0 => mistaken "too long"
  | fuel + 1 => do
    match ← token fuel false false with
    | .word w => return w :: (← loopWords fuel)
    | .newline | .mark ";" => return []
    | t => unexpected t

def patterns : (fuel : Nat) → Token → Reading (List Word)
  | 0, _ => mistaken "too long"
  | fuel + 1, first => do
    let w : Word := match first with
      | .word w => w
      | .keyword k => [.text false k]
      | _ => []
    match ← token fuel false false with
    | .mark "|" => return w :: (← patterns fuel (← token fuel false false))
    | .mark ")" => return [w]
    | t => expected t ")"

def arms : (fuel : Nat) → Reading (List (List Word × Script))
  | 0 => mistaken "too long"
  | fuel + 1 => do
    match ← token fuel true true with
    | .keyword "esac" => return []
    | t =>
      let first ← match t with
        | .mark "(" => token fuel false false
        | t => pure t
      let ws ← patterns fuel first
      let body ← steps fuel true
      match ← token fuel true true with
      | .mark ";;" => return (ws, body) :: (← arms fuel)
      | .keyword "esac" => return [(ws, body)]
      | t => expected t ";;"

def command : (fuel : Nat) → (skipping : Bool) → Reading Command
  | 0, _ => mistaken "too long"
  | fuel + 1, skipping => do
    let before ← get
    let t ← token fuel true skipping
    let line := (← get).line
    let compound (c : Compound) : Reading Command := do
      return .compound c (← redirects fuel)
    match t with
    | .keyword "if" => compound (← choice fuel)
    | .keyword "while" => compound (← loop fuel true)
    | .keyword "until" => compound (← loop fuel false)
    | .keyword "for" =>
      let name ← match ← token fuel false false with
        | .word w =>
          match plainText? w with
          | some s => if isName s then pure s else mistaken "Bad for loop variable"
          | none => mistaken "Bad for loop variable"
        | _ => mistaken "Bad for loop variable"
      match ← ahead fuel true true with
      | .keyword "in" =>
        let _ ← token fuel true true
        let words ← loopWords fuel
        demandWord fuel "do"
        let body ← steps fuel false
        demandWord fuel "done"
        compound (.each name (some words) body)
      | t =>
        match t with
        | .mark ";" => let _ ← token fuel true true
        | _ => pure ()
        demandWord fuel "do"
        let body ← steps fuel false
        demandWord fuel "done"
        compound (.each name none body)
    | .keyword "case" =>
      let subject ← match ← token fuel false false with
        | .word w => pure w
        | t => mistaken (t.name ++ " unexpected (expecting word)")
      demandWord fuel "in"
      compound (.select subject (← arms fuel))
    | .keyword "\x7b" =>
      let body ← steps fuel false
      demandWord fuel "\x7d"
      compound (.group body)
    | .mark "(" =>
      let body ← steps fuel false
      match ← token fuel true true with
      | .mark ")" => compound (.enclosed body)
      | t => expected t ")"
    | .word _ | .redirect _ _ =>
      set before
      if skipping then
        -- The lines in front of the command are passed again.
        skipLines fuel
      simple fuel line [] [] []
    | t => unexpected t

def loop : (fuel : Nat) → (wanted : Bool) → Reading Compound
  | 0, _ => mistaken "too long"
  | fuel + 1, wanted => do
    let test ← steps fuel false
    demandWord fuel "do"
    let body ← steps fuel false
    demandWord fuel "done"
    return .loop wanted test body

def skipLines : (fuel : Nat) → Reading Unit
  | 0 => return
  | fuel + 1 => do
    match ← ahead fuel false false with
    | .newline =>
      let _ ← token fuel false false
      skipLines fuel
    | _ => return

def piped : (fuel : Nat) → Reading (List Command)
  | 0 => return []
  | fuel + 1 => do
    match ← ahead fuel true false with
    | .mark "|" =>
      let _ ← token fuel false false
      let c ← command fuel true
      return c :: (← piped fuel)
    | _ => return []

def pipeline : (fuel : Nat) → Joint → (skipping : Bool) → Reading Step
  | 0, _, _ => mistaken "too long"
  | fuel + 1, joint, skipping => do
    match ← ahead fuel true skipping with
    | .keyword "!" =>
      let _ ← token fuel true skipping
      let c ← command fuel false
      return .mk joint true (c :: (← piped fuel))
    | _ =>
      let c ← command fuel skipping
      return .mk joint false (c :: (← piped fuel))

def joined : (fuel : Nat) → Joint → (skipping : Bool) → Reading Script
  | 0, _, _ => mistaken "too long"
  | fuel + 1, joint, skipping => do
    let p ← pipeline fuel joint skipping
    match ← ahead fuel true false with
    | .mark "&&" =>
      let _ ← token fuel false false
      return p :: (← joined fuel .onSuccess true)
    | .mark "||" =>
      let _ ← token fuel false false
      return p :: (← joined fuel .onFailure true)
    | _ => return [p]

/-- Steps up to a keyword or mark that ends them. Unless they may be `empty`, there is one at
least. -/
def steps : (fuel : Nat) → (empty : Bool) → Reading Script
  | 0, _ => mistaken "too long"
  | fuel + 1, empty => do
    let t ← ahead fuel true true
    let ends : Bool := match t with
      | .keyword k => ["do", "done", "elif", "else", "esac", "fi", "then", "\x7d"].contains k
      | .mark m => m = ")" || m = ";;"
      | _ => false
    match t with
    | .ended => return []
    | _ =>
      if ends && empty then return []
      else
        let s ← joined fuel .always true
        match ← ahead fuel true false with
        | .newline | .mark ";" =>
          let _ ← token fuel false false
          return s ++ (← steps fuel true)
        | .mark "&" =>
          let _ ← token fuel false false
          return aside s :: (← steps fuel true)
        | _ => return s

def lines : (fuel : Nat) → Reading Script
  | 0 => mistaken "too long"
  | fuel + 1 => do
    match ← ahead fuel true true with
    | .ended => return []
    | _ =>
      let s ← steps fuel true
      match ← ahead fuel true true with
      | .ended => return s
      | t => unexpected t

end

/-- The steps of one line; `none` at the end of the text. -/
def lineSteps : (fuel : Nat) → (first : Bool) → Reading (Option Script)
  | 0, _ => mistaken "too long"
  | fuel + 1, first => do
    match ← ahead fuel true false with
    | .ended => return if first then none else some []
    | .newline =>
      let _ ← token fuel true false
      return some []
    | _ =>
      let s ← joined fuel .always false
      match ← ahead fuel true false with
      | .mark ";" =>
        let _ ← token fuel false false
        return (← lineSteps fuel false).map (s ++ ·)
      | .mark "&" =>
        let _ ← token fuel false false
        return (← lineSteps fuel false).map (aside s :: ·)
      | .newline =>
        let _ ← token fuel false false
        return some s
      | .ended => return some s
      | t => unexpected t

/-- The next line of a script, and the text behind it; `none` at its end. -/
def nextLine (s : Source) : Except Mistake (Option (Script × Source)) := do
  let (r, s) ← (lineSteps (8 * s.rest.length + 64) true).run s
  return r.map (·, s)

end Deadwood.Shell
