import Deadwood.Glob
import Deadwood.Text.Segments

/-!
# Patterns for paths

A pattern for files is a wildcard pattern, or such a pattern for a directory followed by `/**`,
which stands for everything below the directory.

## Main definitions

* `PathPattern.isWellFormed`: whether a pattern can be read.
* `PathPattern.covers`: whether a pattern fits a path or a tail of it.
* `PathPattern.coversFromRoot`: whether a pattern fits a path as a whole.
-/

namespace Deadwood.PathPattern

open Text

/-- The directory of a pattern that ends in `/**`. -/
def directory? (pattern : String) : Option String :=
  stripEnd? "/**" pattern

/-- Whether the part of a pattern that is matched can be read. -/
def isWellFormed (pattern : String) : Bool :=
  (Glob.match? (stripEnd "/**" pattern) "").isSome

def tails : List String → List (List String)
  | [] => []
  | [_] => []
  | _ :: s :: rest => (s :: rest) :: tails (s :: rest)

/-- The runs of `n` parts that something follows. -/
def runsBefore (n : Nat) : List String → List (List String)
  | [] => []
  | s :: rest =>
    (if n < (s :: rest).length then [(s :: rest).take n] else []) ++ runsBefore n rest

/-- Whether a pattern fits a path. A plain pattern fits the whole path or a tail of it that starts
at a part; `dir/**` fits if some run of parts that fits `dir` lies above the file. -/
def covers (pattern path : String) : Bool :=
  match directory? pattern with
  | some dir =>
    (runsBefore (segments '/' dir).length (segments '/' path)).any
      fun run => Glob.fits dir (join "/" run)
  | none =>
    Glob.fits pattern path
      || (tails (segments '/' path)).any fun tail => Glob.fits pattern (join "/" tail)

/-- Whether a pattern fits a path from its beginning. A plain pattern fits the whole path; `dir/**`
fits if the first parts of the path fit `dir` and something follows them. -/
def coversFromRoot (pattern path : String) : Bool :=
  match directory? pattern with
  | some dir =>
    let n := (segments '/' dir).length
    let parts := segments '/' path
    n < parts.length && Glob.fits dir (join "/" (parts.take n))
  | none => Glob.fits pattern path

end Deadwood.PathPattern
