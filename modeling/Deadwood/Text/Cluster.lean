import Deadwood.Text.Class
import Deadwood.Text.Utf8

/-!
# Character clusters

Characters that are read as one: a letter with its marks, a syllable of its parts, an emoji with
what is joined to it, a pair of letters that names a flag. A text is cut between two characters
unless a rule joins them.

## Main definitions

* `Sign`, `signs`: the characters of a byte list, and the bytes that are none.
* `Role`: what a character does to its neighbours.
* `Context.joins`: whether the next character belongs to the cluster in front of it.
* `clusters`: the clusters of a list of signs.
-/

namespace Deadwood.Text

/-! ## Signs -/

/-- A character, bytes that cannot belong to a character, or the bytes at the end of a text that
ends inside a character. -/
inductive Sign where
  | char (code : Nat)
  | stray (size : Nat)
  | cut
  deriving DecidableEq

/-- The number of bytes that a leading byte announces; nothing for a byte that leads nothing. -/
def announced (b : UInt8) : Option Nat :=
  if b < 0x80 then some 1
  else if b < 0xC2 then none
  else if b < 0xE0 then some 2
  else if b < 0xF0 then some 3
  else if b < 0xF8 then some 4
  else none

/-- The sign at the front of a byte list and the number of its bytes. -/
def nextSign (bs : Bytes) : Sign × Nat :=
  match bs.head?.bind announced with
  | none => (.stray 1, 1)
  | some n =>
    if bs.length < n then (.cut, bs.length)
    else
      let following := ((bs.take n).drop 1).takeWhile isContinuation
      if following.length + 1 < n then (.stray (following.length + 1), following.length + 1)
      else if n = 1 then (.char ((bs.head?.map UInt8.toNat).getD 0), 1)
      else (.char (nextChar bs).1, n)

/-- The signs of a byte list, `fuel` at most. -/
def signsUpTo : Nat → Bytes → List Sign
  | 0, _ => []
  | _, [] => []
  | fuel + 1, bs =>
    let (sign, size) := nextSign bs
    sign :: signsUpTo fuel (bs.drop (max size 1))

def signs (bs : Bytes) : List Sign :=
  signsUpTo bs.length bs

/-! ## Roles -/

/-- What a character does to its neighbours. -/
inductive Role where
  | other
  /-- Stands alone. -/
  | control
  | carriageReturn
  | lineFeed
  /-- Joins what is in front of it. -/
  | extending
  /-- Joins what is in front of it, and an emoji in front with an emoji behind. -/
  | joiner
  /-- Joins what is in front of it. -/
  | spacing
  /-- Joins what is behind it. -/
  | leading
  /-- The parts of a syllable block, and blocks without and with a final part. -/
  | initialPart | vowelPart | finalPart | openBlock | closedBlock
  /-- A letter of a flag. -/
  | regional
  | pictograph
  deriving DecidableEq

def controlRuns : List Run :=
  runsOf
    "EyBgnbCBmbGUrbDAqbccyhBxqDGHjbJgmTUaqBZQueHWxiBTKZlBgDsEyJgFIm"
    ""

/-- Marks that join the character in front of them. -/
def extendingRuns : List Run :=
  runsOf
    "BDoEiKphKdBtbbbcbcbbCulBwvqbDxhcgccbeBjbBeBbDnlCgjjbyebjbdbfBrdCiiBqybBgCdbbbeiebdhkcBdbCgbbb
     ceibjbkcBabccCfbececcddbBecdblcCfbefbcebucwgbbCgbbcbeibhdkcBebChbbbmbjbBobdbCdbbdfdbehclcBdb
     CgbcbcbdbfchclcBccCfcbbceibjbkcBdbCubebcdbbibDdbchmiDubcjlhCvcBbbbbbbCdobfbcflbBkjbDyebgbcccz
     cedqenbccgbpbBBbdBKkdBdcBecBecCmcbhibcljbBtdbbEncBibEodecjbgdIlccbCgbbhbbbbcigkcbBwBfBxeBwhbb
     fbBojmcBgeccbdCebbcdbbdCgiccFwdbnbhebgbdcHqCmUebHnBhEOcdFlbDsBgVigEbcBSQeebkBgcDccKmbdbebzcfb
     FvcBasnbBmizlBudBwbceccBnbCpgccccmbibBvbBzbbdccfcbbBqcibJebcbebBDZsbBCjqqqOccXhbIsbFtfCMgdbcf
     eBodebGjcWbeOxcDcdCslBxeEtbCcpBpbcckdBxecchbCjdBkfbiCkbmcCajkecbDrdcbbcgbcbGbbdivcCfcbbbbwboh
     dfHnicdbbxbDdbcgbbcbbcbcJbbcegcbcBbcDhicbbcEcbbbcgbbDxdcebfJzjbcJlbkcbbebFoeccebBgkBogceibjgc
     dBunbcPqhbgbbDewchbcbcEsgdbbcbhbbCucdbbbNjclcCaffbbbHYrbgpURqfChhBOibCleDdbBDBkcGYzBucxUwbbde
     fiichBeeFsdCYdCdeByibobwfbpCAihbrchbcbfDwbGehOlbCjeToeBMehEfhEBgfBSXYuDsEyJg"
    ""

/-- Marks with a place of their own that join the character in front of them. -/
def spacingRuns : List Run :=
  runsOf
    "DKtbCdbcdiebcBycChcgcccCcbCgdCobCgdibbcCbcCibgcccEkbbcddbdCadCjeCjcCgbbcbcccbcBnbocChcfdbdCbc
     CycghtcClbExbFicClbGvbjczcBsbCMqbBebEzbhibcNiecdecbgIqcCgbbbvgFpbCcbbfbcCjbBebeccbCibcdbbdcBw
     iicGpbvbCAShccbDkcByqFmcBvbBwceccdEgcccybGbbccfbJdcbcbcbbBLXjbbbExbBtdecElbycChbBwdjcnbDpddcb
     bGodBfcChbbecccducIbdicdbEdcgbbcbbcbJecgecbEjdicbbEfbbcgbEhbKbdjbJofbcebcbbbFmdieebDgbBdcCkb
     PrbobEcbhbcbIffecbbNmcmbBwcicbbBEIhCdEacBKXobgb"
    ""

/-- Characters that join the one behind them. -/
def leadingRuns : List Run :=
  runsOf
    "CHcgIhbBxbOucDcbBRnbDUGkbpbJkcCVrbbbJobCvgBAybRbb"
    ""

/-- Pictures that a joiner can bind to another one. -/
def pictographRuns : List Run :=
  runsOf
    "GnbebLYrbmbIibwbDmgpcOdcmbDrbCsbzledHrbIxckbjbCgebgbmbEkkEoclbbbbgbdbgbkcpbcbebbbedbblfBtdjbo
     bobOicRvdtcBzbebBVubmbXdbbbGMRmJwndBfbCigmcobcksCfBbpkbubcjbejQsfMgiKgBwEyEmmDhBrmeCeikgBoiBe
     DemBvbkbQzJwBNi"
    ""

def inRuns (runs : List Run) (n : Nat) : Bool :=
  runs.any (·.contains n)

def within (first last n : Nat) : Bool :=
  first ≤ n && n ≤ last

/-- The role of a code point below `0x80`. -/
def asciiRole (n : Nat) : Role :=
  if n = 0x0D then .carriageReturn
  else if n = 0x0A then .lineFeed
  else if n < 0x20 || n == 0x7F then .control
  else .other

def roleOf (n : Nat) : Role :=
  if n < 0x80 then asciiRole n
  else if inRuns controlRuns n then .control
  else if n = 0x200D then .joiner
  else if inRuns extendingRuns n then .extending
  else if inRuns spacingRuns n then .spacing
  else if inRuns leadingRuns n then .leading
  else if within 0x1100 0x115F n || within 0xA960 0xA97C n then .initialPart
  else if within 0x1160 0x11A7 n || within 0xD7B0 0xD7C6 n then .vowelPart
  else if within 0x11A8 0x11FF n || within 0xD7CB 0xD7FB n then .finalPart
  else if within 0xAC00 0xD7A3 n then (if (n - 0xAC00) % 28 == 0 then .openBlock else .closedBlock)
  else if within 0x1F1E6 0x1F1FF n then .regional
  else if inRuns pictographRuns n then .pictograph
  else .other

def Sign.role : Sign → Role
  | .char n => roleOf n
  | .stray _ | .cut => .other

/-- Whether a role ends the cluster in front and starts none that goes on. -/
def Role.isControl : Role → Bool
  | .control | .carriageReturn | .lineFeed => true
  | _ => false

/-! ## Clusters -/

structure Context where
  /-- The last character. -/
  last : Role
  /-- The last character that is no mark, before `last`. -/
  base : Role := .other
  /-- The one before `base`. -/
  before : Role := .other
  /-- How often a flag letter has followed another. -/
  regionals : Nat := 0

/-- Look past the last character. -/
def Context.shift (k : Context) : Context :=
  if k.last = .extending then k else { k with base := k.last, before := k.base }

/-- Whether a character of role `r` belongs to the cluster. -/
def Context.joins (k : Context) (r : Role) : Bool :=
  if k.last == .carriageReturn && r == .lineFeed then true
  else if k.last.isControl || r.isControl then false
  else
    match k.last, r with
    | .initialPart, .initialPart | .initialPart, .vowelPart | .initialPart, .openBlock
    | .initialPart, .closedBlock | .openBlock, .vowelPart | .openBlock, .finalPart
    | .vowelPart, .vowelPart | .vowelPart, .finalPart | .closedBlock, .finalPart
    | .finalPart, .finalPart => true
    | _, .extending | _, .joiner | _, .spacing | .leading, _ => true
    | .joiner, .pictograph => k.before == .pictograph
    | .regional, .regional => k.regionals % 2 == 0
    | _, _ => false

/-- The context after a character of role `r` that belongs to the cluster. -/
def Context.add (k : Context) (r : Role) : Context :=
  let regionals := if k.last == .regional && r == .regional then k.regionals + 1 else k.regionals
  { k with last := r, regionals := regionals }

/-- Collect the signs that follow into the current cluster and further ones. A text that ends
inside a character leaves these bytes with the cluster in front of them. -/
def gather (k : Context) (current : List Sign) : List Sign → List (List Sign)
  | [] => [current.reverse]
  | s :: rest =>
    let k := k.shift
    if s = .cut || k.joins s.role then gather (k.add s.role) (s :: current) rest
    else current.reverse :: gather { last := s.role } [s] rest

def clusters : List Sign → List (List Sign)
  | [] => []
  | s :: rest => gather { last := s.role } [s] rest

end Deadwood.Text
