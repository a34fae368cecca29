import Deadwood.Disk.Basic
import Deadwood.Json.Reader
import Deadwood.Settings.Field
import Deadwood.Toml.Document
import Deadwood.Yaml.Data

/-!
# Finding and reading settings

Settings are read from a given file, or from the first one that is found in the usual places; the
ending of its name tells the format. Without a file the usual settings hold.

## Main definitions

* `Settings.Format`, `Settings.Format.ofPath`: the formats.
* `Settings.find`: the file in the usual places.
* `Settings.read`, `Settings.load`: the settings of a file.
-/

namespace Deadwood.Settings

inductive Format where
  | toml
  | yaml
  | json
  deriving Repr, DecidableEq

def Format.ofPath (path : String) : Format :=
  match Text.lower (Path.extension path) with
  | ".yaml" => .yaml
  | ".yml" => .yaml
  | ".json" => .json
  | _ => .toml

def Format.datum? (f : Format) (bytes : Bytes) : Option Datum := do
  let d ← match f with
    | .toml =>
      Toml.parse? (Text.stripStart (String.singleton (Char.ofNat 0xFEFF)) (Text.ofUtf8Lossy bytes))
    | .yaml => (Text.ofUtf8? bytes).bind Yaml.parse?
    | .json => (Json.parse? (Text.ofUtf8Lossy bytes)).bind Datum.ofJson?
  match d with
  | .null => some d
  | .table _ => some d
  | _ => none

def places : List String :=
  [".", ".funcqc"].flatMap fun dir =>
    ["funcqc.toml", "funcqc.yaml", "funcqc.yml", "funcqc.json",
      ".funcqc.toml", ".funcqc.yaml", ".funcqc.yml", ".funcqc.json"].map (Path.join dir)

def find? (d : Disk) : Option String :=
  places.find? d.exists_

inductive Problem where
  /-- The file could not be opened. -/
  | file (f : Fault)
  /-- It is not written in its format, or is no table. -/
  | format
  /-- A value is of the wrong kind. -/
  | kind
  /-- Some values are not allowed. -/
  | values (path : String) (f : Fault)

def Problem.fault : Problem → Fault
  | .file f => f
  | .format => .malformed "malformed settings"
  | .kind => .malformed "settings of a wrong kind"
  | .values path f => .context path f

def read (path : String) (d : Disk) : Except Problem Settings :=
  match d.readFile path with
  | .error f => .error (.file f)
  | .ok bytes =>
    match (Format.ofPath path).datum? bytes with
    | none => .error .format
    | some datum =>
      match ofDatum? datum with
      | none => .error .kind
      | some s =>
        match s.fault? with
        | some f => .error (.values path f)
        | none => .ok s

/-- The settings of the file in the usual places, or the usual ones if it cannot be read. -/
def readOrUsual (d : Disk) : Settings :=
  match find? d with
  | none => {}
  | some path => (read path d).toOption.getD {}

/-- The settings of the given file, or of the one in the usual places, and the path of the file;
without a file, the usual ones. -/
def load (given : String) (d : Disk) : Except Problem (Settings × String) :=
  match if given = "" then find? d else some given with
  | none => .ok ({}, "")
  | some path => (read path d).map (·, path)

end Deadwood.Settings
