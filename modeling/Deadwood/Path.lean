import Deadwood.Text.Segments

/-!
# Slash-separated paths

Paths are texts whose parts are separated by `/`. Cleaning removes empty parts and `.`, and lets
`..` take away the part before it; everything else is defined through the parts. A path is Unicode
text, as an id is: names of other bytes, and what a reader of JSON makes of such bytes, are not
modelled.

## Main definitions

* `clean`: the shortest equivalent path.
* `join`: one path below another, cleaned.
* `dir`, `base`, `extension`: the parts of a path.
-/

namespace Deadwood.Path

open Text

def isAbsolute (p : String) : Bool :=
  startsWith "/" p

/-- Put one more part behind the parts read so far, which are kept last first. Above the root of
an absolute path there is nothing, so `..` is lost there. -/
def push (rooted : Bool) (kept : List String) (part : String) : List String :=
  if part = "" ∨ part = "." then kept
  else if part = ".." then
    match kept with
    | [] => if rooted then [] else [part]
    | last :: rest => if last = ".." then part :: kept else rest
  else part :: kept

/-- The parts of a path once `.` and `..` are resolved. -/
def parts (p : String) : List String :=
  ((segments '/' p).foldl (push (isAbsolute p)) []).reverse

/-- The shortest path equivalent to `p`. The empty path is the current directory. -/
def clean (p : String) : String :=
  let body := Text.join "/" (parts p)
  if isAbsolute p then "/" ++ body
  else if body = "" then "." else body

/-- The path `q` below `p`. An empty first path is left out. -/
def join (p q : String) : String :=
  if p = "" then (if q = "" then "" else clean q) else clean (p ++ "/" ++ q)

def dir (p : String) : String :=
  match (segments '/' p).dropLast with
  | [] => "."
  | above => clean (Text.join "/" above ++ "/")

/-- The last part of `p`, not counting slashes at its end. -/
def base (p : String) : String :=
  if p = "" then "."
  else
    match ((segments '/' p).reverse.dropWhile (· = "")).head? with
    | some last => last
    | none => "/"

/-- The last part of `p` from its last dot on, or nothing if it has no dot. -/
def extension (p : String) : String :=
  let last := ((segments '/' p).getLast?.getD "").toList.reverse
  if last.contains '.' then
    String.ofList ('.' :: (last.takeWhile (· ≠ '.')).reverse)
  else ""

end Deadwood.Path
