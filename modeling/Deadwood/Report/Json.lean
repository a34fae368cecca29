import Deadwood.Json.Access
import Deadwood.Json.Canonical
import Deadwood.Report.Basic

/-!
# Reports from JSON

A report can be described by a JSON document: a `kind` (`table`, `section`, `report` or `raw`), a
title, and what belongs to the kind. Nesting is read `depth` levels deep.

## Main definitions

* `Block.ofJson`: the report that a document describes.
-/

namespace Deadwood

def Json.dataAt (v : Json) : Option Json :=
  if v.has "data" then some (v.get "data").canonical else none

def Table.ofJson (v : Json) : Table where
  title := v.textAt "title"
  headers := v.textsAt "headers"
  rows := (v.itemsAt "rows").map (fun r => r.asItems.map (fun c => Text.utf8 c.asText))
  footer := v.textsAt "footer"
  data := v.dataAt

def Section.ofJson : Nat → Json → Section
  | 0, _ => .mk "" "" [] none
  | depth + 1, v =>
    .mk (v.textAt "title") (v.textAt "content") ((v.itemsAt "sections").map (ofJson depth)) v.dataAt

def Block.ofJson : Nat → Json → Block
  | 0, _ => .raw .null
  | depth + 1, v =>
    match v.textAt "kind" with
    | "table" => .table (.ofJson v)
    | "section" => .prose (.ofJson depth v)
    | "report" => .report (v.textAt "title") ((v.itemsAt "sections").map (ofJson depth)) v.dataAt
    | _ => .raw (v.get "data").canonical

end Deadwood
