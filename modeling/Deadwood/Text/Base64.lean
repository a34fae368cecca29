import Deadwood.Text.Utf8

/-!
# Base 64

Three bytes are written as four digits; the last group is filled up.

## Main definitions

* `Base64.encode`: the digits of bytes.
* `Base64.decode`, `Base64.decode?`: the bytes of digits, leniently and strictly.
-/

namespace Deadwood

namespace Base64

def digit (n : Nat) : Char :=
  if n < 26 then Char.ofNat (65 + n)
  else if n < 52 then Char.ofNat (97 + n - 26)
  else if n < 62 then Char.ofNat (48 + n - 52)
  else if n = 62 then '+' else '/'

def value? (c : Char) : Option Nat :=
  if c.isUpper then some (c.toNat - 65)
  else if c.isLower then some (c.toNat - 97 + 26)
  else if c.isDigit then some (c.toNat - 48 + 52)
  else if c = '+' then some 62
  else if c = '/' then some 63
  else none

def digits : Bytes → List Char
  | [] => []
  | [a] =>
    let n := a.toNat * 65536
    [digit (n / 262144), digit (n / 4096 % 64), '=', '=']
  | [a, b] =>
    let n := a.toNat * 65536 + b.toNat * 256
    [digit (n / 262144), digit (n / 4096 % 64), digit (n / 64 % 64), '=']
  | a :: b :: c :: rest =>
    let n := a.toNat * 65536 + b.toNat * 256 + c.toNat
    digit (n / 262144) :: digit (n / 4096 % 64) :: digit (n / 64 % 64) :: digit (n % 64)
      :: digits rest

/-- Four digits become three bytes. -/
def bytes : List Nat → Bytes
  | a :: b :: c :: d :: rest =>
    let n := a * 262144 + b * 4096 + c * 64 + d
    UInt8.ofNat (n / 65536) :: UInt8.ofNat (n / 256 % 256) :: UInt8.ofNat (n % 256) :: bytes rest
  | [a, b, c] =>
    let n := a * 262144 + b * 4096 + c * 64
    [UInt8.ofNat (n / 65536), UInt8.ofNat (n / 256 % 256)]
  | [a, b] => [UInt8.ofNat ((a * 262144 + b * 4096) / 65536)]
  | _ => []

def encode (bs : Bytes) : String :=
  String.ofList (digits bs)

/-- Characters that are no digits are skipped. -/
def decode (s : String) : Bytes :=
  bytes (s.toList.filterMap value?)

/-- The bytes of groups of four digits, of which the last may be filled up. -/
def groups? : List Char → Option Bytes
  | [] => some []
  | [a, b, '=', '='] => do return bytes [← value? a, ← value? b]
  | [a, b, c, '='] => do return bytes [← value? a, ← value? b, ← value? c]
  | a :: b :: c :: d :: rest => do
    let group := bytes [← value? a, ← value? b, ← value? c, ← value? d]
    return group ++ (← groups? rest)
  | _ => none

/-- The same where nothing but line breaks is skipped, and the padding has to be there. -/
def decode? (s : String) : Option Bytes :=
  groups? (s.toList.filter fun c => c ≠ '\n' && c ≠ '\r')

end Base64

end Deadwood
