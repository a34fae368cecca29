import Deadwood.Decimal.Layout
import Deadwood.Json.Record

/-!
# Points in time

A timestamp is an instant, counted in nanoseconds, together with the offset of the clock that it
was read from. It is written as a date, a time of day and the offset; trailing zeros of the fraction
are left out, and an offset of zero is written `Z`.

## Main definitions

* `Date`: days of the calendar.
* `Timestamp`: an instant with an offset.
* `Timestamp.text`, `Timestamp.parse?`: its written form.
-/

namespace Deadwood

/-! ## Calendar -/

structure Date where
  year : Int
  month : Nat
  day : Nat
  deriving Repr, DecidableEq, Inhabited

namespace Date

def isLeap (year : Int) : Bool :=
  year % 4 = 0 && (year % 100 ≠ 0 || year % 400 = 0)

def daysInMonth (year : Int) (month : Nat) : Nat :=
  if month = 2 then (if isLeap year then 29 else 28)
  else if month = 4 || month = 6 || month = 9 || month = 11 then 30
  else 31

/-- The number of days since the first of March of the year zero, in which each year ends with its
leap day. -/
def dayNumber (d : Date) : Int :=
  let y : Int := if d.month ≤ 2 then d.year - 1 else d.year
  let m : Int := (d.month + 9) % 12
  365 * y + y / 4 - y / 100 + y / 400 + (153 * m + 2) / 5 + d.day - 1

def ofDayNumber (n : Int) : Date :=
  let era := n / 146097
  let inEra := n % 146097
  let yearInEra := (inEra - inEra / 1460 + inEra / 36524 - inEra / 146096) / 365
  let inYear := inEra - (365 * yearInEra + yearInEra / 4 - yearInEra / 100)
  let m := (5 * inYear + 2) / 153
  let day := inYear - (153 * m + 2) / 5 + 1
  let month := if m < 10 then m + 3 else m - 9
  let year := yearInEra + era * 400 + (if month ≤ 2 then 1 else 0)
  ⟨year, month.toNat, day.toNat⟩

/-- The day from which instants are counted, the first of January 1970. -/
def epoch : Int :=
  dayNumber ⟨1970, 1, 1⟩

end Date

/-! ## Timestamps -/

structure Timestamp where
  /-- Nanoseconds since the beginning of 1970 at offset zero. -/
  nanos : Int
  /-- Minutes by which the clock is ahead. -/
  offset : Int := 0
  deriving Repr, DecidableEq, Inhabited

namespace Timestamp

def second : Int := 1000000000

/-- Midnight at the beginning of the year one, which stands for no time at all. -/
def zero : Timestamp :=
  ⟨(Date.dayNumber ⟨1, 1, 1⟩ - Date.epoch) * 86400 * second, 0⟩

/-- Whether this is the time that stands for none. -/
def isZero (t : Timestamp) : Bool :=
  t.nanos = zero.nanos

/-- The same instant on a clock without offset. -/
def utc (t : Timestamp) : Timestamp :=
  { t with offset := 0 }

/-- Seconds since the beginning of 1970 on the own clock. -/
def localSeconds (t : Timestamp) : Int :=
  t.nanos / second + t.offset * 60

def fraction (t : Timestamp) : Nat :=
  (t.nanos % second).toNat

def date (t : Timestamp) : Date :=
  Date.ofDayNumber (t.localSeconds / 86400 + Date.epoch)

def secondOfDay (t : Timestamp) : Nat :=
  (t.localSeconds % 86400).toNat

def ofParts (d : Date) (secondOfDay fraction : Nat) (offset : Int) : Timestamp :=
  ⟨((d.dayNumber - Date.epoch) * 86400 + secondOfDay - offset * 60) * second + fraction, offset⟩

/-! ## Written form -/

def dateText (t : Timestamp) : String :=
  let d := t.date
  Decimal.padded 4 d.year.toNat ++ "-" ++ Decimal.padded 2 d.month ++ "-" ++ Decimal.padded 2 d.day

def clockText (t : Timestamp) : String :=
  let s := t.secondOfDay
  Decimal.padded 2 (s / 3600) ++ ":" ++ Decimal.padded 2 (s / 60 % 60) ++ ":"
    ++ Decimal.padded 2 (s % 60)

/-- The fraction of the second behind a point, without trailing zeros. -/
def fractionText (n : Nat) : String :=
  if n = 0 then ""
  else
    let ds := (Decimal.padded 9 n).toList
    "." ++ String.ofList (ds.reverse.dropWhile (· = '0')).reverse

def offsetText (minutes : Int) : String :=
  if minutes = 0 then "Z"
  else
    let n := minutes.natAbs
    (if minutes < 0 then "-" else "+") ++ Decimal.padded 2 (n / 60) ++ ":"
      ++ Decimal.padded 2 (n % 60)

def isWritable (t : Timestamp) : Bool :=
  0 ≤ t.date.year && t.date.year ≤ 9999

def text (t : Timestamp) : String :=
  t.dateText ++ "T" ++ t.clockText ++ fractionText t.fraction ++ offsetText t.offset

/-- A timestamp for tables, on a clock without offset. -/
def tableText (t : Timestamp) : String :=
  t.utc.dateText ++ " " ++ t.utc.clockText

/-- The number that `n` digits at the start of a text form, and the rest. -/
def digits? (n : Nat) (cs : List Char) : Option (Nat × List Char) :=
  let ds := cs.take n
  if ds.length = n && ds.all Char.isDigit then
    (Numeral.natOfDigits? 10 ds).map (·, cs.drop n)
  else none

/-- The text behind a character. -/
def after? (c : Char) : List Char → Option (List Char)
  | d :: cs => if c = d then some cs else none
  | [] => none

def oneOrTwo? (cs : List Char) : Option (Nat × List Char) :=
  (digits? 2 cs).or (digits? 1 cs)

/-- A fraction of a second behind a point or a comma, if there is one; nine digits count. -/
def fraction? : List Char → Option (Nat × List Char)
  | c :: cs =>
    let ds := cs.takeWhile Char.isDigit
    if (c = '.' || c = ',') && !ds.isEmpty then
      (Numeral.natOfDigits? 10 ((ds ++ List.replicate 9 '0').take 9)).map
        (·, cs.dropWhile Char.isDigit)
    else some (0, c :: cs)
  | [] => some (0, [])

/-- The offset of the clock in minutes. A full day and a full hour are admitted. -/
def offset? : List Char → Option Int
  | ['Z'] => some 0
  | sign :: cs => do
    let (h, cs) ← digits? 2 cs
    let cs ← after? ':' cs
    let (m, cs) ← digits? 2 cs
    if !cs.isEmpty || 24 < h || 60 < m then none
    else if sign = '+' then some (60 * h + m : Int)
    else if sign = '-' then some (-(60 * h + m : Int))
    else none
  | [] => none

def parse? (s : String) : Option Timestamp := do
  let (year, cs) ← digits? 4 s.toList
  let (month, cs) ← digits? 2 (← after? '-' cs)
  let (day, cs) ← digits? 2 (← after? '-' cs)
  let (hour, cs) ← oneOrTwo? (← after? 'T' cs)
  let (minute, cs) ← digits? 2 (← after? ':' cs)
  let (sec, cs) ← digits? 2 (← after? ':' cs)
  let (nanos, cs) ← fraction? cs
  let offset ← offset? cs
  if month < 1 || 12 < month || day < 1 || Date.daysInMonth year month < day then none
  else if 24 ≤ hour || 60 ≤ minute || 60 ≤ sec then none
  else some (ofParts ⟨year, month, day⟩ (3600 * hour + 60 * minute + sec) nanos offset)

def reader : Json.Reader Timestamp :=
  .each fun
    | .null, old => some old
    | .text s, _ => parse? s
    | _, _ => none

end Timestamp

end Deadwood
