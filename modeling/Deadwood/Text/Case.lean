import Deadwood.Text.Class

/-!
# Letter case

Upper and lower case of single characters, by runs of code points whose images are equally far
away, and two comparisons that ignore case.

## Main definitions

* `upper`, `lower`: change the case of every character of a text.
* `foldKey`, `sameFold`: compare names of ASCII letters without regard to case.
* `asciiLower`: lower case of ASCII letters only.
-/

namespace Deadwood.Text

/-- A run of code points and the image of its first one; the others keep their distance. -/
structure Shift where
  run : Run
  image : Nat

def Shift.inverse (s : Shift) : Shift :=
  ⟨⟨s.image, s.image + (s.run.last - s.run.first), s.run.step⟩, s.run.first⟩

/-- The image of `n` under the first shift whose run has it. -/
def shifted (table : List Shift) (n : Nat) : Nat :=
  match table.find? (·.run.contains n) with
  | some s => s.image + (n - s.run.first)
  | none => n

/-- Shifts of one step after the first code point `start` of another. Each is given by three
numbers: how far behind `start` it begins, how many code points it has, and twice the distance of
its images, plus one if they are below. -/
def shiftsFrom (step : Nat) : Nat → List Nat → List Shift
  | start, ahead :: count :: distance :: rest =>
    let first := start + ahead
    let image := if distance % 2 = 0 then first + distance / 2 else first - distance / 2
    ⟨⟨first, first + step * (count - 1), step⟩, image⟩ :: shiftsFrom step first rest
  | _, _ => []

/-- Shifts of ranges of code points, and of every second code point of further ranges. -/
def shiftsOf (spans alternating : String) : List Shift :=
  shiftsFrom 1 0 (tableNumbers spans) ++ shiftsFrom 2 0 (tableNumbers alternating)

/-- Letters beyond ASCII that are the lower case of their upper case. -/
def pairedShifts : List Shift :=
  shiftsOf
    "IqxCnyhCnhbJiEzbPaibdebdgbddbHmebdbbMobbEVXydbKakbdfbddbdjbdebdcbEihbfdbfdbfrbGdwbfcbdCtbddc
     BFZydbdobBFXmbbBFXgbbBFXkbbQfbbPxccPvdbPpcbPrbbEVFiebPvbbEVFacbPzbbEVHebbEVCibbEVEmcbQdbbQhbb
     EVEmbbBFUkbbEVEgdbQhcbBFUwbbQldbQnibBFTedbQvcbEVEkbbQvebEVCmbbQvbbFjbcQtcbFngbQxlbEVAwbbEVAq
     IjbdedKaBxbCzbdCxerCnsjCnjbEzbcExkbrBbbobbIzfbddbdCbBgCnBgqGfExbBfFqBmDtEIpBrIXkBtdIXkBDjgr
     DGkbdJfbEANwebLHkrbEARwOgiqqgqqiqqiqqgqBgiqqcFsceGqecHsccJwccIqccJseiqqiqqiqqcqdbsqbsncqqcqfb
     oobsNjbCfBiqBhubdBGmBaCbCUqBwDtBxbdebBFYlbbBFYfnbddbdEvbdnBmVMvBnbVMvgbVMvBUIxbdibDsDubdBHdb
     CTlBdDcEKZpBFThBaCnBWhBoDdGuBkDdIubDbCRcBzEzGuwCnEHkBgCnBGLcBgCnDnzCdBUJfBiCr"
    "JxydByddhidrxdBvddjcdBeddtcdBaidrjdBaudBqjdBkfdLmcdEamdFgrdBqBbdCdhdpBwdJOaCxdGeBwdGueqEYxddz
     BydEdcdBTYrxdCmodGghdqBfdCtcdffdscdgkdBeidtcdfidBJNmtDbbfDbmhDbqdDb"

def raisedShifts : List Shift :=
  shiftsOf
    "GzbCFeEubRxDabXdCsbddbddbdBnbdNbbGmEvbClobEvbbElebDrbbEfBabGrbbGfebHlJHrbSNdbbSNbbbSMjbcSMfcb
     SMhbbSLtbbSHnbbEAIuUlbEpLfbVIh"
    ""

def loweredShifts : List Shift :=
  shiftsOf
    "LsbPjFtbcdbcdbcBnbcTubErKCobWNvYybWGhebYUxbbYLp"
    ""

def upperShifts : List Shift :=
  raisedShifts ++ pairedShifts

def lowerShifts : List Shift :=
  loweredShifts ++ pairedShifts.map Shift.inverse

def upperChar (c : Char) : Char :=
  if c.toNat < 0x80 then c.toUpper else Char.ofNat (shifted upperShifts c.toNat)

def lowerChar (c : Char) : Char :=
  if c.toNat < 0x80 then c.toLower else Char.ofNat (shifted lowerShifts c.toNat)

def upper (s : String) : String :=
  String.ofList (s.toList.map upperChar)

def lower (s : String) : String :=
  String.ofList (s.toList.map lowerChar)

def asciiLower (s : String) : String :=
  String.ofList (s.toList.map Char.toLower)

/-- The representative of the characters that differ from an ASCII letter only in case: besides the
other case, the long s belongs with `s` and the Kelvin sign with `k`. No other character has one of
its own. -/
def foldChar (c : Char) : Char :=
  if c.toNat == 0x17F then 's'
  else if c.toNat == 0x212A then 'k'
  else c.toLower

/-- A key that texts share when they differ only in the case of ASCII letters. -/
def foldKey (s : String) : List Char :=
  s.toList.map foldChar

/-- Whether two texts differ at most in the case of ASCII letters. -/
def sameFold (s t : String) : Bool :=
  foldKey s == foldKey t

end Deadwood.Text
