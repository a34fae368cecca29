/-!
# Character classes

Letters by case, digits and printing characters beyond ASCII, as runs of code points. ASCII is
decided by core's tests; the tables start at `0x80`.

## Main definitions

* `Run`, `runsOf`: equally spaced code points, read from a table.
* `isLower`, `isUpper`, `isDigit`: the classes that divide a heading into words.
* `isLetter`: letters of any kind.
* `isPrinting`: characters that are shown as they are in quoted text.
* `isBlank`: white space.
-/

namespace Deadwood.Text

/-- The code points `first`, `first + step`, …, `last`. -/
structure Run where
  first : Nat
  last : Nat
  step : Nat

def Run.contains (r : Run) (n : Nat) : Bool :=
  r.first ≤ n && n ≤ r.last && (n - r.first) % r.step == 0

/-- The numbers that a table is written in, letter by letter in base 26: the last digit of a number
is a small letter, those before it are capitals, whose value so far is `high`. Line breaks and
blanks do not count. -/
def numbersFrom (high : Nat) : List Char → List Nat
  | [] => []
  | c :: cs =>
    if c.isUpper then numbersFrom (26 * high + (c.toNat - 'A'.toNat)) cs
    else if c.isLower then (26 * high + (c.toNat - 'a'.toNat)) :: numbersFrom 0 cs
    else numbersFrom high cs

def tableNumbers (table : String) : List Nat :=
  numbersFrom 0 table.toList

/-- Runs of one step from `start` on. Each is given by two numbers: how many code points lie between
it and the run before, and how many it has. -/
def runsFrom (step : Nat) : Nat → List Nat → List Run
  | start, gap :: count :: rest =>
    let first := start + gap
    let last := first + step * (count - 1)
    ⟨first, last, step⟩ :: runsFrom step (last + 1) rest
  | _, _ => []

/-- Ranges of code points, and every second code point of further ranges. -/
def runsOf (spans alternating : String) : List Run :=
  runsFrom 1 0 (tableNumbers spans) ++ runsFrom 2 0 (tableNumbers alternating)

def lowerRuns : List Run :=
  runsOf
    "GzbBpybiExchbdcebcbddcbjbbcbbcbiccdgbcbBmbCpgcbccbbnCqcBaHrbddsbBbBjbcddyebbcbccBzBwJwBpEHbBr
     cdBDggDFujbbEnBsClnbBiJriDuiigkiiiigkiiiiociiiiiifbcgbddbciecciikdbcKobdcdbBbbebebccieebCbb
     EBbBwbbdckbbcbgEabobmBmbbfbBUFicCmhybbdzbCsbdbBFpBrfjhDcBEAihmfBOzBaBVhBoFgBkFzlbpbhbcCRbBzEv
     wEGoBgBGJwBgChzBMJeBaBahbsBaBaBaebbbhblBaBaBaBaBaBaBaBaBaBaBaBaBaBaBaBaBaBcBczbgBazbgBazbgBaz
     bgBazbgbbCSykbuggDUdBi"
    "JxBcajaycdecBbdocvjakdcdBetfLdcDxmEjrjBbchaBxJKjCxjBxFCaduByicBTYoxtoFfhdBgiccfecikliecci"

def upperRuns : List Run :=
  runsOf
    "HkxbhGgcbbbcbdcebcbddcbclbbcbdbbbcdbhbcbcbBmbcbbdCncbccbbeLrbibgbbdbbbcbrbjBjbcdBfbcbbccBzJx
     BmEHdBmbbfbBBuDiDGlbgBrcdWmiigkiiiigBaiCuemememfleKcbebddcdcbdfndcekcfbCjbDZgBwBwbbdjdbbcbid
     EjbBUMiebfqdbbbcBobBHAhBaBUzBoFgBkGalbpbhbcCQcBzGbwEGoBgBGJwBgCmzBMJfBaBaBaBaBaBabbccbcccebi
     BaBaBacbecibhBbcbebfbbdhBbBaBaBaBaBaBaBaBaBaBaBaBezBhzBhzBhzBhzBhbGNlBi"
    "JwBccicyadBkdacBjicjlBdveLdcDxmEjrjBcahcBwJKjCxjBxDmeRkeEGqeuBxicBTYoxtoFfhdBfkdafecccdlliji"

def digitRuns : List Run :=
  runsOf
    "CKukFekHqkPwkEokEokEokEokEokEokEokEokEokDskEokCskKskCskCTqkBmkLokEykGkkgkHakDikFekgkCAEokBAck
     BmkHqkwkDikPqkBFMckCCkkDFykgkBEqkEykCikFokKskNekEokOkkDykguCykQgkDykZmkDikJmkCskCckNukYYgkDMc
     kDikFekUokBKDykECqByDNckQgkTikJnkBGvkHBak"
    ""

/-- Letters beyond ASCII, of either case or of none. -/
def letterRuns : List Run :=
  runsOf
    "GobkbebfxbBfbRqemofFjfbccebbgbbdbbbubDfbFjiGkbBmcbgBpCtBbeeBtBrBjcbDvbbpchckdcbqbbBeBdDllbyBh
     jcebfwebjbdbxzhlfybhqBqCgCcdbsbhkpqeicccwbhbbdedbqbncbdockbigeccwbhbcbcbcBfebbtdqjbdbwbhbcbfd
     bsbpcxblicccwbhbcbfdbBecbdpbrbbgddbedcbbbcdcdddmwbCaibdbxbqdbBadbcccBebeibdbxbkbfdbBedbcpcrjb
     dbBpcbqbfdidygfsdybjbbchCgBwbcmhCgcbbbfbybbbkbcjbcfbbveBgbClibBkBbfElBrubqgeedbdchdenmbrBmbbf
     bcBrbMvbechbbbecBpbecBhbechbbbecpbCfbecCpBlqqDicgdXwcrbBafCxgihsntosonbdpCaBjbebCpDlhfcBibbf
     CskBfBxBecflBseBaCcxjCbDebDpBvriCcBenckBsBaBkBpdkBkclfBrcdBpebgbcdbfHkCmKscgcBmcgciiBecCbbhbb
     ddbhdecgenfdbhEmbnbqnDxbebckbbdfndblceffebCacDZfIvgedcmBmbbfbcCehbqxjhbhbhbhbhbhbhbhDcbSbcBqf
     fceDigdbDmbefBrbDqrBgBwqTsJToCmBGUfCpBucKjdqkcuBvqBfcCsBxjcDzcDeurbdbebxBdCaoByCkgdbbclBckxz
     BdhBvBcbqfbkkfbBpxdbiuxdbdBybbdccfBddclhdmgcgcgjhbhbBrbogElBdQNsmxeBxMNcOccEcBmhmffbbkbnbfbbb
     cbcbEeBhNzsCmcCcBomEmfbFfBkBagBalDldgcgcgcdBjmbBabtbcbpcoBiEtOzBddBxBvBgnubigBmkBecBkeiBwGcs
     BkeBkeBoiCamlbpbhbcblbpbhbcdCamLzjwkiygbBqbjCrgcbbBsbcdbcxkxjBfCntbckwkBagBaBmCegcCmbpebdbBd
     BqBddBdBjibBcBbCckwktnsEgCvCdBznBznBkBmBcjxJqBqgcqgCeBdkbiwBqsBuvBbxmCbCfccbnBtBgzBaBkBdbcbi
     BjdbmBwoeChsbztcClhbbbebpbkhBvBmicccwbhbcbfdbsbmfBekbbcbbBmbbCuCbseudBeBwucbbHcBvBpeBkBwubCh
     BrnbCtBbBlhHdBsEmCmBficbcibcbyEiicBnBvbkBohbvblButbsCvHrBhBfjbBlrbBxBeEihbcbBmvbzgbcbBgobxBs
     KatpbbnbBiEubDbBJmIwHoDXkDtpBPgrgzFXrfWlKDdBeCPuVxhBfrDbrBesBwqeBfvftQqBtIdCmBgzczBsCxfbConCm
     cbbocmKXyBpBgDtElMWrebhbcbLfpbBddcboeiPgDKuEdfndjhkIWkDhbCtbccbcccebmbbbhbCnbecibhbBcbebfbbdh
     bNcczbzbBfbzbBfbzbBfbzbBfbzbiCSyBfggKbCkFqBtkhqbMjBesBsSqBcIuBecbHzBfbdbcbhcfjcIqhbebcbpbHpCh
     CqhbBUiebBbbcbbcbbkbekblcbcbbsebhbebebbbkbrfdbfbrGOaCLFcBgGMocIOccLBlpXyDQwUwCFyHHzfMOo"
    "BCucKTueRkeCACrcBNBbcTgcCBjcGdcDCKrclejgac"

/-- Letters, marks, numbers, punctuation and symbols beyond ASCII. -/
def printingRuns : List Run :=
  runsOf
    "GfmbBBmcgehbbbubPhbBmcBycdbCdiBbegrwbHkbBwcChcDxoChcBxcpbBccbblfBghCxbGfbicccwbhbbdecjccceibe
     cbfczcdbgeccwbhbcbcbccbbfeccddbhebbhrkdbjbdbwbhbcbfckbdbdcbpecmhhbdbicccwbhbcbfcjcccdhdecbfcs
     kcbgddbedcbbbcdcdddmefddbecbgbovfnbdbxbqcjbdbehcbdbcceckhwbdbxbkbfcjbdbehcfdbeckbdmnbdbBzbdbg
     eqcBabdbsdybjbbchdbegbbbigkcdmCgeBdBlcbbbfbybbbxcfbbbhbkceBgCubBkeBnbBkbpbnBlHqbbfbcOnbechbbb
     ecBpbecBhbechbbbecpbCfbecCpcBgdBagDicgcYqbBcdDlhwjyjumnbdbcmDqckgkgoblgDlhBrfCskBfbmemebdBqcf
     lBseBagldCkcCnbBdclgkgocBucmuCzbGkiCidpdCkfBrcliBrfUocgcBmcgciiBecCbbpbocgbtcdbjryiBvrccBbbnd
     BioBhpFkeZqwlvCRscOsfBtbbfbcCehcoyjhbhbhbhbhbhbhbhbEwBiBabDlmIgBaqbClbDicDzfBrbDqbDijBwbBRIrd
     CdjNkuHciInuCidkgCeiCsimgEmlBedDableBhbCdjockcDzyBckgcgcgjhbhbCieEwckgQNsmxeBxMNcOccEcBmhmff
     BabfbbbcbcbZaBgBqgBzbtbeefbFfeHidgcgcgcddhbhnccmbBabtbcbpcoBiEtfdeBtdDkbndbBvBuFaBddBxpBceBkj
     BefBrfBebBleoBqGcckgBkeBkeBoiCalmbpbhbcblbpbhbcdCamLzjwkiygbBqbjCrgcbbBsbcdbcxbCuijBwtbcfBhd
     BbfBbBmCeeucBybcfibdbBdcdekhjhCmBgBnemjCcdBdcBbfBahemhDcCvCdBznBzhBuikgBmdBdicIaBfbBqbdccqgij
     BhBuiBqwBaBmBcuxjDaeBkjCkbfnzhkgCbbsiBnjDsbulsbBvCkhbbbebpblgChfkgebicccwbhbcbfbkcccdcbgbfhch
     dflkbbcbbBmbkbbcbbebkbcicBdDobfBeCuikGkCccBmBiCrlkgntCggkguBcBbcpexHdCiDwDfmicbcibcbBebccmjk
     CsicBuclBbCuiDfnCvhkDiiDkBiokgjbBtbokBddBgcwboCvhbcbBsdbbcbjikggbcbBlbcbghkgBsekJmzhrbBpdBdDh
     bpBynBJnDyEhbflHoDXkDvnBPgqwkFXrfWlKDdCgCOsVxhBfbkeDdbkgBecgkCskkbhbvftQqCgHqDnfzczBsCxeCfhr
     CmflhjKXyBpBgDtElMWrebhbcbLfpbBddcboeiPgDKuEdfndjhkceFVkJtdQugxprpBucxjEmCiJmkBncCwiEivCsEsum
     umDjjzFfDhbCtbccbcccebmbbbhbCnbecibhbBcbebfbbdhbNccLgcBBapfbpBQmBfggIfhbrchbcbffCkBhbEiBtdock
     ecMiBfrCgfbRwBqIgBrebHkBfbwicIqhbebcbpbHpcqBpCyekecBEfCqCyCjHmebBbbcbbcbbkbekblcbcbbsebhbebeb
     bbkbrfdbfbrCacKkBseDwmpcpbpbBlkGsCeBdnBsejhcogFyBLxdrdndIkgmebpmeCeikgBoiBecmecojBnNgiocndld
     CfbbeqcmekhFrbDzBNpCLFcBgGMocIOccLBlpXyDQwUwCFyHHzfMOoBOGXyJg"
    "LWreGTHhclejgac"

def isLower (c : Char) : Bool :=
  if c.toNat < 0x80 then c.isLower else lowerRuns.any (·.contains c.toNat)

def isUpper (c : Char) : Bool :=
  if c.toNat < 0x80 then c.isUpper else upperRuns.any (·.contains c.toNat)

def isDigit (c : Char) : Bool :=
  if c.toNat < 0x80 then c.isDigit else digitRuns.any (·.contains c.toNat)

def isLetter (c : Char) : Bool :=
  if c.toNat < 0x80 then c.isAlpha else letterRuns.any (·.contains c.toNat)

/-- Whether a character is shown as it is. Of the blanks only the ASCII space is. -/
def isPrinting (c : Char) : Bool :=
  if c.toNat < 0x80 then 0x20 ≤ c.toNat && c.toNat < 0x7F
  else printingRuns.any (·.contains c.toNat)

/-- White space: the ASCII blanks and the spaces and separators beyond ASCII. -/
def isBlank (c : Char) : Bool :=
  let n := c.toNat
  (0x09 ≤ n && n ≤ 0x0D) || n == 0x20 || n == 0x85 || n == 0xA0 || n == 0x1680
    || (0x2000 ≤ n && n ≤ 0x200A) || n == 0x2028 || n == 0x2029 || n == 0x202F
    || n == 0x205F || n == 0x3000

def trim (s : String) : String :=
  String.ofList ((((s.toList.dropWhile isBlank).reverse).dropWhile isBlank).reverse)

end Deadwood.Text
