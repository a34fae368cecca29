import Deadwood.Text.Cluster

/-!
# Display width

How many columns a text takes on a terminal. A cluster takes the columns of its first character:
two for a wide one, none for a control or a mark. Escape sequences for colours and links take none.

## Main definitions

* `clusterWidth`: the columns of a cluster.
* `withoutEscapes`: a text less its escape sequences.
* `width`: the columns of a text.
* `cutToWidth`: the part of a text that fits into a number of columns.
-/

namespace Deadwood.Text

def wideRuns : List Run :=
  runsOf
    "GLkDsGSocncHiedbcbUbcvcBaiqmBrbkgdbnbicrcfcibfbvbhcbbebcbhbecBcbBjbbbedbbCjdybobBHbcBzbebBFe
     BabDlmIgBaCggpcDieDxfBrbDqbDijBwbBoiBRGvdCdBThBdYtQNsMQmTsBEekwBjbtbeFtDsExhBQKneBcJCaiBVqBpk
     NFrebhbcbLfpbBddcboeiPgMDgDjjxKVdbHubHibckDxdnBsejhcogFyBhmjbCsbwmBrefmrdbdCtbbbHfcClnebysbBa
     cnbDiDhBwCsgbddcdeelchjItmebKxBvbkbHdEindkfCehpclgjBXnDSYocDSYo"
    ""

/-- Controls, marks, format characters and separators of lines, which take no column. -/
def emptyRuns : List Run :=
  runsOf
    "EyBgnbWwEiKphKdBtbbbcbcbbCegklbbBuvqbDxibgccbeBhbbbBeBbDnlCgjjbyebjbdbfBrdCacfjBqCgCcdbsbhkc
     BddCebbhcccdjbkcBabcdCebbfeccddbBecdbldCebbibdbducwgbdCebbhcccdhdkcBebChfddbejbBofCdbbhbdbehc
     lcBddCebbhbdbehclcpbmeCdcbhbdbejbkcBddCsbegbbbiscCjbchmiDubcjlhCvcBbbbbbbecBxubcflbBkjbDwuxee
     dbdchdenmbbkeBBbdBKkeBcdBdcBecCmBgjbBtfEncBibEomemIlfCfkbBdcbBwBucmufBvrBmjmdBenCeoBwuFwdbveb
     gbcdHqCmUdfyhBxfbkDsBhEOcdFlbDsBgVigEbcBSQeebkBgcDccKmbdbebxfebDfcBysBasnbBmiznBseBvoBkbCpomb
     icBtdBybbdccfcbbBpffcJcibcBDZsbBCjqqqHzbJpdTtbIsbFtfCMgdbcfeBodebGjcWbeCnfMfcCzgCslBxeEsdCbp
     BpbcckeBtlcbebkbBydBkoqcBsbmdBwoiebcDomgbcbGbmveCdcbhcccdjbkcchdfCpjbbcbbebfbbocDesxbDduJbhcj
     BbcDerEcnDxpJwpJlgbccebbbcFlhchdbBckBohbeibjlBuqHqiHribiDewboEsgdbbcbhbbCofbcbfNjejcbbBwhdfxb
     HXdrgpQYysDSafChhBOibbCdheDdblcBDAxcbeGYuBucxUwfdwchBeeFsdCYdCdeByibobwfbpCAihbrchbcbfDwbGeh
     OlbCjeToeJucJjbcbhcfbSghEfhBTBZabBeDsEyJg"
    ""

def codeWidth (n : Nat) : Nat :=
  if n < 0x80 then (if n < 0x20 || n == 0x7F then 0 else 1)
  else if inRuns emptyRuns n then 0
  else if inRuns wideRuns n then 2
  else 1

def pictureSelector : Nat := 0xFE0F

/-- Whether what follows the first sign makes a cluster two columns wide: the selector of coloured
pictures, or the second letter of a flag. -/
def isWidened (first : Sign) : List Sign → Bool
  | .char n :: _ =>
    n == pictureSelector || (first.role == .regional && roleOf n == .regional)
  | _ => false

def clusterWidth : List Sign → Nat
  | [] => 0
  | s :: rest =>
    if isWidened s rest then 2
    else
      match s with
      | .char n => codeWidth n
      | .stray _ | .cut => 1

/-! ## Escape sequences -/

def escapeByte : UInt8 := 0x1B

/-- What follows the parameters of a control sequence: further bytes and the final one. -/
def afterControl? (bs : Bytes) : Option Bytes :=
  let rest := (bs.dropWhile (fun b => 0x30 ≤ b && b ≤ 0x3F)).dropWhile
    (fun b => 0x20 ≤ b && b ≤ 0x2F)
  match rest with
  | b :: rest => if 0x40 ≤ b && b ≤ 0x7E then some rest else none
  | [] => none

/-- What follows the first end of a command: a bell, or an escape and a backslash. The command stays
on one line. -/
def afterCommand? : Bytes → Option Bytes
  | [] => none
  | b :: rest =>
    if b == 0x07 then some rest
    else if b == escapeByte && rest.head? == some 0x5C then some (rest.drop 1)
    else if b == 0x0A then none
    else afterCommand? rest

def afterEscape? : Bytes → Option Bytes
  | a :: b :: rest =>
    if a == escapeByte && b == 0x5B then afterControl? rest
    else if a == escapeByte && b == 0x5D then afterCommand? rest
    else none
  | _ => none

/-- A text less its escape sequences, after `fuel` steps at most. -/
def dropEscapes : Nat → Bytes → Bytes
  | 0, bs => bs
  | _, [] => []
  | fuel + 1, b :: rest =>
    match afterEscape? (b :: rest) with
    | some more => dropEscapes fuel more
    | none => b :: dropEscapes fuel rest

def withoutEscapes (bs : Bytes) : Bytes :=
  dropEscapes bs.length bs

def width (bs : Bytes) : Nat :=
  (clusters (signs (withoutEscapes bs))).foldl (fun n c => n + clusterWidth c) 0

/-! ## Cutting -/

def resetCode : List Char :=
  Char.ofNat 0x1B :: "[0m".toList

/-- Whether `c` ends the escape sequence `seen`, written from its end. -/
def endsEscape (seen : List Char) (c : Char) : Bool :=
  match seen.reverse with
  | _ :: kind :: _ =>
    if kind = '[' then 0x40 ≤ c.toNat && c.toNat ≤ 0x7E
    else if kind = ']' then
      c.toNat == 0x07 || (c = '\\' && seen.head?.map Char.toNat == some 0x1B)
    else false
  | _ => false

/-- Keep the characters that fit into `room` columns, each counted alone, and the escape sequences
between them. `escape` is the sequence that is being read, written from its end. -/
def keepFitting (room : Nat) : List Char → List Char → List Char
  | _, [] => []
  | [], c :: cs =>
    if c.toNat = 0x1B then keepFitting room [c] cs
    else if codeWidth c.toNat ≤ room then c :: keepFitting (room - codeWidth c.toNat) [] cs
    else []
  | e :: escape, c :: cs =>
    if endsEscape (e :: escape) c then
      (c :: e :: escape).reverse ++ keepFitting room [] cs
    else keepFitting room (c :: e :: escape) cs

/-- The part of a text that fits into `room` columns. A cut text that has style codes ends them. -/
def cutToWidth (room : Nat) (bs : Bytes) : Bytes :=
  if width bs ≤ room then bs
  else if room = 0 then []
  else
    let kept := keepFitting room [] (ofUtf8Lossy bs).toList
    let styled := kept.any (fun c => c.toNat = 0x1B) && !resetCode.isSuffixOf kept
    utf8 (String.ofList (if styled then kept ++ resetCode else kept))

end Deadwood.Text
