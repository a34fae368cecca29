import Deadwood.Text.Utf8
import Deadwood.Yaml.Token

/-!
# Tags and directives

A tag is written in full between angle brackets, or as a handle and a suffix. What a handle stands
for can be declared in front of a document, as can the version of the format.

## Main definitions

* `Yaml.uri?`: the characters of a tag, some of them written by their code.
* `Yaml.tag?`: the handle and the suffix of a tag.
* `Yaml.directive?`: a line in front of a document.
* `Yaml.tagName?`: the name of a tag in its short form.
-/

namespace Deadwood.Yaml

def isTagChar (c : Char) : Bool :=
  isNameChar c || ";/?:@&=+$,.!~*'()[]%".toList.contains c

def octet? : List Char → Option (UInt8 × List Char)
  | '%' :: a :: b :: cs => (Numeral.natOfDigits? 16 [a, b]).map fun n => (UInt8.ofNat n, cs)
  | _ => none

def trailing? : (count : Nat) → List Char → Option (Bytes × List Char)
  | 0, cs => some ([], cs)
  | count + 1, cs => do
    let (b, cs) ← octet? cs
    if b < 0x80 || 0xC0 ≤ b then none
    let (bs, cs) ← trailing? count cs
    return (b :: bs, cs)

/-- How many bytes go on with a character that starts with a byte. -/
def trailingCount? (b : UInt8) : Option Nat :=
  if b < 0x80 then some 0
  else if b < 0xC0 then none
  else if b < 0xE0 then some 1
  else if b < 0xF0 then some 2
  else if b < 0xF8 then some 3
  else none

/-- The characters of a tag, of which some may be written by their code, and what follows. -/
def uriBytes? : (fuel : Nat) → List Char → Option (Bytes × List Char)
  | 0, cs => some ([], cs)
  | _, [] => some ([], [])
  | fuel + 1, c :: cs =>
    if c = '%' then do
      let (b, cs) ← octet? (c :: cs)
      let (bs, cs) ← trailing? (← trailingCount? b) cs
      let (more, cs) ← uriBytes? fuel cs
      return (b :: bs ++ more, cs)
    else if isTagChar c then do
      let (more, cs) ← uriBytes? fuel cs
      return (Text.utf8 (String.singleton c) ++ more, cs)
    else some ([], c :: cs)

def uri? (cs : List Char) : Option (String × List Char) :=
  (uriBytes? cs.length cs).map fun (bs, rest) => (Text.ofUtf8Lossy bs, rest)

def someUri? (cs : List Char) : Option (String × List Char) :=
  match cs with
  | c :: _ => if isTagChar c then uri? cs else none
  | [] => none

/-- A name behind the mark of a tag, whether the mark stands behind it too, and what follows. -/
def handleName (cs : List Char) : String × Bool × List Char :=
  let name := String.ofList (cs.takeWhile isNameChar)
  match cs.dropWhile isNameChar with
  | '!' :: rest => (name, true, rest)
  | rest => (name, false, rest)

/-- A tag behind its first mark: its handle, its suffix and what follows. -/
def tag? (cs : List Char) : Option (String × String × List Char) := do
  let (handle, suffix, rest) ←
    match cs with
    | '<' :: cs => do
      let (uri, rest) ← someUri? cs
      let rest ← ['>'].isPrefixOf? rest
      some ("", uri, rest)
    | cs => do
      let (name, closed, rest) := handleName cs
      if closed then
        let (suffix, rest) ← someUri? rest
        some ("!" ++ name ++ "!", suffix, rest)
      else
        let (more, rest) ← uri? rest
        if name ++ more = "" then some ("", "!", rest) else some ("!", name ++ more, rest)
  if endsWord rest then some (handle, suffix, rest) else none

/-! ## Directives -/

def versionNumber? (cs : List Char) : Option (Nat × List Char) := do
  let digits := cs.takeWhile Char.isDigit
  if digits.isEmpty || 2 < digits.length then none
  let n ← Numeral.natOfDigits? 10 digits
  return (n, cs.drop digits.length)

def version? (cs : List Char) : Option (Token × List Char) := do
  let (major, cs) ← versionNumber? cs
  let cs ← ['.'].isPrefixOf? cs
  let (minor, cs) ← versionNumber? cs
  return (.version major minor, cs)

/-- The handle of a tag and what it stands for, behind their name. -/
def tagHandle? (cs : List Char) : Option (Token × List Char) := do
  let cs ← ['!'].isPrefixOf? cs
  let (name, closed, cs) := handleName cs
  if !closed && name ≠ "" then none
  if !cs.head?.any isBlank then none
  let (uri, cs) ← someUri? (cs.dropWhile isBlank)
  if !endsWord cs then none
  return (.tagHandle ("!" ++ name ++ (if closed then "!" else "")) uri, cs)

def directive? (cs : List Char) : Option (Token × List Char) := do
  let name := cs.takeWhile isNameChar
  let rest := cs.drop name.length
  if !endsWord rest then none
  let rest := rest.dropWhile isBlank
  let (t, rest) ←
    if name = "YAML".toList then version? rest
    else if name = "TAG".toList then tagHandle? rest
    else none
  let rest := rest.dropWhile isBlank
  let rest := if rest.head? = some '#' then rest.dropWhile (!isBreak ·) else rest
  if rest.head?.all isBreak then some (t, rest) else none

/-! ## Names -/

/-- What handles stand for if nothing else is declared. -/
def usualHandles : List (String × String) :=
  [("!", "!"), ("!!", "tag:yaml.org,2002:")]

def shortTag (name : String) : String :=
  match Text.stripStart? "tag:yaml.org,2002:" name with
  | some rest => "!!" ++ rest
  | none => name

/-- The name of a tag in its short form, unless its handle is not known; `some none` is the tag that
says nothing. -/
def tagName? (handles : List (String × String)) (handle suffix : String) : Option (Option String) :=
  let named (name : String) : Option String := if name = "!" then none else some (shortTag name)
  if handle = "" then some (named suffix)
  else (handles.lookup handle).map fun start => named (start ++ suffix)

end Deadwood.Yaml
