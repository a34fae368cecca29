import Deadwood.Sorted
import Deadwood.Json.Printer
import Deadwood.Report.Grid
import Deadwood.Report.Style
import Deadwood.Report.Toon

/-!
# Reports

A report is a title over tables and sections. It is written for a reader, as text for a terminal or
as Markdown, or for a program, as the data behind it: JSON or a compact listing.

## Main definitions

* `Table`, `Section`, `Block`: the parts of a report.
* `Block.text`, `Block.markdown`: for a reader.
* `Block.json`, `Block.toon`: for a program.
* `Format`, `Block.write`: the choice between them.
-/

namespace Deadwood

structure Table where
  title : String := ""
  headers : List String
  rows : List (List Bytes)
  footer : List String := []
  /-- The data that the table shows; without it the data are the cells by their headers. -/
  data : Option Json := none
  /-- The data as they are listed, where that differs from the JSON. -/
  listing : Option Toon := none

/-- A titled text with further sections below it. -/
inductive Section where
  | mk (title content : String) (sections : List Section) (data : Option Json)

inductive Block where
  | table (t : Table)
  | prose (s : Section)
  | report (title : String) (parts : List Block) (data : Option Json)
  /-- Data without any form for a reader. -/
  | raw (data : Json)

def line (s : String) : Bytes :=
  Text.utf8 (s ++ "\n")

def underline (mark title : String) : Bytes :=
  line (Text.repeated (Text.byteLength title) mark)

def Json.document (v : Json) : Bytes :=
  line v.pretty

/-! ## Tables -/

namespace Table

/-- One row as a record of its cells, by header in ascending order. Of equal headers the last one
counts. -/
def record (headers : List String) (row : List Bytes) : Json :=
  let cells := (headers.zip row).foldl (fun fs (h, c) => assign h c fs) []
  .object ((sortedTexts (cells.map (·.1))).map
    (fun h => (h, .text (Text.ofUtf8Lossy ((cells.lookup h).getD [])))))

def json (t : Table) : Json :=
  t.data.getD (.list (t.rows.map (record t.headers)))

def toon (shape : Toon.Shape) (t : Table) : Toon :=
  t.listing.getD (Toon.ofJson shape t.json)

def text (p : Palette) (t : Table) : Bytes :=
  let title :=
    if t.title = "" then []
    else line (p.bold t.title) ++ underline "=" t.title ++ line ""
  title ++ (Grid.mk t.headers t.rows t.footer).print ++ line ""

def bars (cells : List Bytes) : Bytes :=
  Text.utf8 "| " ++ List.intercalate (Text.utf8 " | ") cells ++ line " |"

def markdown (t : Table) : Bytes :=
  let title := if t.title = "" then [] else line ("## " ++ t.title) ++ line ""
  title ++ bars (t.headers.map Text.utf8) ++ bars (t.headers.map (fun _ => Text.utf8 "---")) ++
    (t.rows.map bars).flatten ++
    (if t.footer.isEmpty then [] else bars (t.footer.map Text.utf8)) ++ line ""

end Table

/-! ## Sections -/

namespace Section

mutual

/-- The section as a record; what is empty is left out. -/
def record : Section → Json
  | .mk title content sections data =>
    .object (Json.textUnlessEmpty "title" title ++ Json.textUnlessEmpty "content" content ++
      (if sections.isEmpty then [] else [("sections", .list (records sections))]) ++
      (data.map (fun v => ("data", v))).toList)

def records : List Section → List Json
  | [] => []
  | s :: ss => record s :: records ss

end

def json : Section → Json
  | .mk _ _ _ (some data) => data
  | s => s.record

mutual

/-- The section as a record in a listing; nothing is left out. -/
def listing (shape : Toon.Shape) : Section → Toon
  | .mk title content sections data =>
    .object [("Title", .text title), ("Content", .text content),
      ("Sections", .list (listings shape sections)),
      ("Data", (data.map (Toon.ofJson shape)).getD .null)]

def listings (shape : Toon.Shape) : List Section → List Toon
  | [] => []
  | s :: ss => listing shape s :: listings shape ss

end

def toon (shape : Toon.Shape) : Section → Toon
  | .mk _ _ _ (some data) => Toon.ofJson shape data
  | s => s.listing shape

mutual

/-- The section as text, its title underlined with `mark`. -/
def text (p : Palette) (mark : String) : Section → Bytes
  | .mk title content sections _ =>
    (if title = "" then [] else line (p.bold title) ++ underline mark title) ++
      (if content = "" then [] else line content) ++ texts p sections

def texts (p : Palette) : List Section → Bytes
  | [] => []
  | s :: ss => line "" ++ text p "-" s ++ texts p ss

end

mutual

/-- The section as Markdown, its title on heading level `level`. -/
def markdown (level : Nat) : Section → Bytes
  | .mk title content sections _ =>
    (if title = "" then [] else line (Text.repeated level "#" ++ " " ++ title) ++ line "") ++
      (if content = "" then [] else line content ++ line "") ++ markdowns (level + 1) sections

def markdowns (level : Nat) : List Section → Bytes
  | [] => []
  | s :: ss => markdown level s ++ markdowns level ss

end

end Section

/-! ## Reports -/

namespace Block

mutual

def json : Block → Json
  | .table t => t.json
  | .prose s => s.json
  | .report _ _ (some data) => data
  | .report title parts none => .object [("sections", .list (jsons parts)), ("title", .text title)]
  | .raw data => data

def jsons : List Block → List Json
  | [] => []
  | b :: bs => json b :: jsons bs

end

mutual

def toon (shape : Toon.Shape) : Block → Toon
  | .table t => t.toon shape
  | .prose s => s.toon shape
  | .report _ _ (some data) => Toon.ofJson shape data
  | .report title parts none =>
    .object [("sections", .list (toons shape parts)), ("title", .text title)]
  | .raw data => Toon.ofJson shape data

def toons (shape : Toon.Shape) : List Block → List Toon
  | [] => []
  | b :: bs => toon shape b :: toons shape bs

end

mutual

/-- A block for a terminal. A blank line stands between the parts of a report. -/
def text (p : Palette) : Block → Bytes
  | .table t => t.text p
  | .prose s => s.text p "="
  | .report title parts _ =>
    (if title = "" then [] else line (p.banner title) ++ underline "=" title ++ line "") ++
      texts p parts
  | .raw data => data.document

def texts (p : Palette) : List Block → Bytes
  | [] => []
  | [b] => text p b
  | b :: c :: bs => text p b ++ line "" ++ texts p (c :: bs)

end

mutual

def markdown : Block → Bytes
  | .table t => t.markdown
  | .prose s => s.markdown 2
  | .report title parts _ =>
    (if title = "" then [] else line ("# " ++ title) ++ line "") ++ markdowns parts
  | .raw data => line "\x60\x60\x60json" ++ data.document ++ line "\x60\x60\x60"

def markdowns : List Block → Bytes
  | [] => []
  | b :: bs => markdown b ++ markdowns bs

end

end Block

/-! ## Formats -/

inductive Format where
  | text | json | markdown | toon
  deriving DecidableEq

namespace Format

def name : Format → String
  | .text => "text"
  | .json => "json"
  | .markdown => "markdown"
  | .toon => "toon"

/-- The format of this name, in any case of letters. Any other name stands for text. -/
def ofName (s : String) : Format :=
  match Text.lower s with
  | "json" => .json
  | "markdown" | "md" => .markdown
  | "toon" => .toon
  | _ => .text

end Format

def Block.write (format : Format) (p : Palette) (shape : Toon.Shape) (b : Block) :
    Except String Bytes :=
  match format with
  | .json => .ok b.json.document
  | .toon =>
    match (b.toon shape).encode with
    | .ok s => .ok (line s)
    | .error problem => .error ("failed to encode toon: " ++ problem)
  | .markdown => .ok b.markdown
  | .text => .ok (b.text p)

end Deadwood
