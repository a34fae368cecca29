import Deadwood.Text.Case
import Deadwood.Text.Quoted

/-!
# Log lines

A log line has a level, a message and named values. A logger writes the lines from its own level
upwards, as text or as one JSON record a line.

## Main definitions

* `LogLevel`: how urgent a line is.
* `LogLine.text`, `LogLine.json`: the two forms of a line.
* `logged`: what a logger writes.
-/

namespace Deadwood

/-- How urgent a line is; higher is more urgent. -/
structure LogLevel where
  rank : Int
  deriving DecidableEq

namespace LogLevel

def debug : LogLevel := ⟨-4⟩
def info : LogLevel := ⟨0⟩
def warn : LogLevel := ⟨4⟩
def error : LogLevel := ⟨8⟩

def silent : LogLevel := ⟨100⟩

/-- The level of this name, in any case of letters and between any blanks; otherwise `info`. -/
def ofName (s : String) : LogLevel :=
  match Text.lower (Text.trim s) with
  | "debug" => debug
  | "warn" | "warning" => warn
  | "error" => error
  | _ => info

/-- The level that was asked for by saying "more" a number of times, or by asking for silence. -/
def ofVerbosity (more : Int) (quiet : Bool) : LogLevel :=
  if quiet then silent
  else if more ≤ 0 then warn
  else if more = 1 then info
  else debug

def name (l : LogLevel) : String :=
  if l = debug then "DEBUG"
  else if l = warn then "WARN"
  else if l = error then "ERROR"
  else "INFO"

end LogLevel

structure LogLine where
  level : LogLevel
  message : String
  values : List (String × String)

namespace LogLine

/-- Whether a character keeps a text from standing without quotes. -/
def needsQuotes (c : Char) : Bool :=
  let n := c.toNat
  if n < 0x80 then n ≤ 0x20 || c == '"' || c == '='
  else n == 0xFFFD || !Text.isPrinting c

def word (s : String) : String :=
  if s == "" || s.toList.any needsQuotes then Text.quoted s else s

def text (l : LogLine) : String :=
  " ".intercalate
    (("level=" ++ l.level.name) :: ("msg=" ++ word l.message) ::
      l.values.map (fun (k, v) => word k ++ "=" ++ word v))

def recordChar (c : Char) : String :=
  match c with
  | '"' => "\\\""
  | '\\' => "\\\\"
  | '\n' => "\\n"
  | '\r' => "\\r"
  | '\t' => "\\t"
  | c =>
    let n := c.toNat
    if n < 0x20 || n == 0x2028 || n == 0x2029 then "\\u" ++ Text.hexDigits 4 n
    else String.singleton c

def recordText (s : String) : String :=
  "\"" ++ String.join (s.toList.map recordChar) ++ "\""

def json (l : LogLine) : String :=
  let fields := ("level", l.level.name) :: ("msg", l.message) :: l.values
  "\x7b" ++ ",".intercalate (fields.map (fun (k, v) => recordText k ++ ":" ++ recordText v)) ++
    "\x7d"

end LogLine

def logged (level : LogLevel) (asJson : Bool) (lines : List LogLine) : List String :=
  (lines.filter (fun l => level.rank ≤ l.level.rank)).map
    (fun l => if asJson then l.json else l.text)

end Deadwood
