import Deadwood.Text.Utf8

/-!
# Bits of compressed data

Compressed data is read in two directions: descriptions of tables from their first bit onwards, and
coded data from its last bit backwards, behind a marker that says where the last bit is.

## Main definitions

* `Zstd.Problem`: why data cannot be read.
* `Zstd.bitsAt`: the number that some bits write.
* `Zstd.Tape`: coded data that is read backwards.
-/

namespace Deadwood.Zstd

inductive Problem where
  | truncated
  | badMagic
  | badHeader
  | unknownDictionary
  | badBlock
  | tooLarge
  | badTable
  | badCode
  | wrongSize
  | wrongChecksum
  deriving Repr, DecidableEq

def Problem.message : Problem → String
  | truncated => "unexpected EOF"
  | badMagic => "invalid input: magic number mismatch"
  | badHeader => "invalid input: reserved bit set on frame header"
  | unknownDictionary => "unknown dictionary"
  | badBlock => "invalid input: invalid block"
  | tooLarge => "window size exceeded"
  | badTable => "corrupt input: invalid table"
  | badCode => "corruption detected"
  | wrongSize => "frame size does not match size on stream"
  | wrongChecksum => "invalid input: crc mismatch"

def number (bs : Bytes) : Nat :=
  bs.foldr (fun b n => b.toNat + 256 * n) 0

/-- The place of the highest bit of a number that is not zero. -/
def highBit (n : Nat) : Nat :=
  Nat.log2 n

/-- The number that `count` bits write from the bit `place` on; bits behind the end are zero. The
lowest bit of each byte comes first. -/
def bitsAt (bytes : Array UInt8) (place count : Nat) : Nat :=
  let covered := (List.range ((place % 8 + count + 7) / 8)).map fun k =>
    (bytes[place / 8 + k]?).getD 0
  number covered / Nat.pow 2 (place % 8) % Nat.pow 2 count

/-! ## Reading backwards -/

/-- Coded data of which the first `left` bits are still to be read. -/
structure Tape where
  bytes : Array UInt8
  left : Nat

namespace Tape

/-- Coded data; the highest bit of its last byte is the marker. -/
def ofBytes (bs : Bytes) : Except Problem Tape :=
  match bs.getLast? with
  | none => .error .truncated
  | some b =>
    if b = 0 then .error .badCode
    else .ok ⟨bs.toArray, 8 * (bs.length - 1) + highBit b.toNat⟩

/-- The next `count` bits, without moving; bits that are missing are zero. -/
def peek (t : Tape) (count : Nat) : Nat :=
  if count ≤ t.left then bitsAt t.bytes (t.left - count) count
  else bitsAt t.bytes 0 t.left * Nat.pow 2 (count - t.left)

def skip (t : Tape) (count : Nat) : Except Problem Tape :=
  if count ≤ t.left then .ok { t with left := t.left - count } else .error .truncated

def read (t : Tape) (count : Nat) : Except Problem (Nat × Tape) :=
  (t.skip count).map fun u => (t.peek count, u)

end Tape

end Deadwood.Zstd
