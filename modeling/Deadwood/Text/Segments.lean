/-!
# Cutting and joining texts

Texts are cut, stripped and joined as lists of characters, so that every operation here is a
short expression over core's list functions.

## Main definitions

* `segments`, `join`: cut a text at a character, and put the parts together again.
* `stripStart?`, `stripEnd?`: remove a known beginning or end.
* `occursIn`: whether one text occurs inside another.
-/

namespace Deadwood.Text

/-- The parts of `s` between the occurrences of `sep`. The empty text has one empty part. -/
def segments (sep : Char) (s : String) : List String :=
  (s.toList.splitOn sep).map String.ofList

/-- The parts in order with `sep` between neighbours. -/
def join (sep : String) (parts : List String) : String :=
  String.ofList (List.intercalate sep.toList (parts.map String.toList))

def startsWith (start s : String) : Bool :=
  start.toList.isPrefixOf s.toList

def endsWith (stop s : String) : Bool :=
  stop.toList.isSuffixOf s.toList

/-- What follows `start` in `s`, when `s` begins with `start`. -/
def stripStart? (start s : String) : Option String :=
  (start.toList.isPrefixOf? s.toList).map String.ofList

/-- What precedes `stop` in `s`, when `s` ends with `stop`. -/
def stripEnd? (stop s : String) : Option String :=
  (stop.toList.isSuffixOf? s.toList).map String.ofList

def stripStart (start s : String) : String :=
  (stripStart? start s).getD s

def stripEnd (stop s : String) : String :=
  (stripEnd? stop s).getD s

/-- Whether the characters of `needle` occur next to each other in the list. -/
def isInfix (needle : List Char) : List Char → Bool
  | [] => needle.isEmpty
  | c :: cs => needle.isPrefixOf (c :: cs) || isInfix needle cs

def occursIn (needle s : String) : Bool :=
  isInfix needle.toList s.toList

def repeated (n : Nat) (s : String) : String :=
  String.ofList (List.replicate n s.toList).flatten

/-- Drop the characters that satisfy `p` at both ends. -/
def trimBy (p : Char → Bool) (s : String) : String :=
  String.ofList ((((s.toList.dropWhile p).reverse).dropWhile p).reverse)

end Deadwood.Text
