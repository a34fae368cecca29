import Deadwood.Text.Case
import Deadwood.Text.Template

/-!
# Colours and messages

Titles, messages and severity labels are coloured by codes around the text. Where codes are off,
the text stands alone. A message is one line. Without colour it stands in the report behind the
label of its tone; in colour it goes to the console, where the colour takes the place of the label.

## Main definitions

* `Colour`: the colours in use.
* `Palette`: whether codes are written.
* `Palette.severity`: a text in the colour of an importance, impact or status.
* `Tone.plainMessage`, `Tone.colouredMessage`: the two forms of a message.
-/

namespace Deadwood

inductive Colour where
  | red | green | yellow | cyan
  deriving DecidableEq

def Colour.code : Colour → String
  | .red => "31"
  | .green => "32"
  | .yellow => "33"
  | .cyan => "36"

/-- The colour of an importance, impact or status, if it has one. -/
def Colour.ofSeverity? (severity : String) : Option Colour :=
  match Text.lower severity with
  | "critical" | "high" | "fail" | "rolled_back" => some .red
  | "medium" | "skipped" => some .yellow
  | "low" | "pass" | "committed" => some .green
  | _ => none

structure Palette where
  codes : Bool

namespace Palette

def between (p : Palette) (start stop s : String) : String :=
  if p.codes then "\x1b[" ++ start ++ "m" ++ s ++ "\x1b[" ++ stop ++ "m" else s

def coloured (p : Palette) (c : Colour) (s : String) : String :=
  p.between c.code "0" s

def bold (p : Palette) (s : String) : String :=
  p.between "1" "22" s

def banner (p : Palette) (s : String) : String :=
  p.between "1;36" "22;0" s

def severity (p : Palette) (severity s : String) : String :=
  match Colour.ofSeverity? severity with
  | some c => p.coloured c s
  | none => s

def none : Palette := ⟨false⟩

end Palette

inductive Tone where
  | success | warning | error | info
  deriving DecidableEq

namespace Tone

def colour : Tone → Colour
  | .success => .green
  | .warning => .yellow
  | .error => .red
  | .info => .cyan

def label : Tone → String
  | .warning => "WARNING: "
  | .error => "ERROR: "
  | _ => ""

/-- The tone of this name; `info` if there is none. -/
def ofName (s : String) : Tone :=
  match s with
  | "success" => .success
  | "warning" => .warning
  | "error" => .error
  | _ => .info

def plainMessage (t : Tone) (template : String) (arguments : List String) : String :=
  Template.message (t.label ++ template ++ "\n") arguments

/-- A message in its colour. The template may bring its own end of line. -/
def colouredMessage (t : Tone) (p : Palette) (template : String) (arguments : List String) :
    String :=
  let ended := if Text.endsWith "\n" template then template else template ++ "\n"
  p.coloured t.colour (Template.message ended arguments)

end Tone

end Deadwood
