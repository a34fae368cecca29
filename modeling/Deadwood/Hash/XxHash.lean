import Deadwood.Text.Utf8

/-!
# xxHash

The 64-bit xxHash of a byte list with seed zero: four lanes over stripes of 32 bytes, then the
remaining bytes in words of eight, four and one.

## Main definitions

* `XxHash.hash`: the hash.
-/

namespace Deadwood.XxHash

def prime1 : UInt64 := 0x9E3779B185EBCA87
def prime2 : UInt64 := 0xC2B2AE3D27D4EB4F
def prime3 : UInt64 := 0x165667B19E3779F9
def prime4 : UInt64 := 0x85EBCA77C2B2AE63
def prime5 : UInt64 := 0x27D4EB2F165667C5

def rotateLeft (x n : UInt64) : UInt64 :=
  (x <<< n) ||| (x >>> (64 - n))

/-- The number that bytes write, the least significant first. -/
def number (bs : Bytes) : UInt64 :=
  bs.foldr (fun b acc => acc <<< 8 ||| b.toUInt64) 0

def lane (acc word : UInt64) : UInt64 :=
  rotateLeft (acc + word * prime2) 31 * prime1

structure Lanes where
  a : UInt64
  b : UInt64
  c : UInt64
  d : UInt64

/-- Take all whole stripes into the lanes; the bytes left over are fewer than 32. -/
def stripes (l : Lanes) (bs : Bytes) : Lanes × Bytes :=
  if bs.length < 32 then (l, bs)
  else
    let word := fun i => number ((bs.drop (8 * i)).take 8)
    stripes ⟨lane l.a (word 0), lane l.b (word 1), lane l.c (word 2), lane l.d (word 3)⟩
      (bs.drop 32)
termination_by bs.length
decreasing_by simp; omega

def merge (acc l : UInt64) : UInt64 :=
  (acc ^^^ lane 0 l) * prime1 + prime4

def Lanes.converge (l : Lanes) : UInt64 :=
  let acc := rotateLeft l.a 1 + rotateLeft l.b 7 + rotateLeft l.c 12 + rotateLeft l.d 18
  merge (merge (merge (merge acc l.a) l.b) l.c) l.d

def singles (acc : UInt64) : Bytes → UInt64
  | [] => acc
  | b :: bs => singles (rotateLeft (acc ^^^ b.toUInt64 * prime5) 11 * prime1) bs

/-- Take words of eight bytes, then at most one of four, then single bytes. -/
def remainder (acc : UInt64) (bs : Bytes) : UInt64 :=
  if 8 ≤ bs.length then
    remainder (rotateLeft (acc ^^^ lane 0 (number (bs.take 8))) 27 * prime1 + prime4) (bs.drop 8)
  else if 4 ≤ bs.length then
    singles (rotateLeft (acc ^^^ number (bs.take 4) * prime1) 23 * prime2 + prime3) (bs.drop 4)
  else singles acc bs
termination_by bs.length
decreasing_by simp; omega

def avalanche (acc : UInt64) : UInt64 :=
  let acc := (acc ^^^ (acc >>> 33)) * prime2
  let acc := (acc ^^^ (acc >>> 29)) * prime3
  acc ^^^ (acc >>> 32)

def hash (bs : Bytes) : UInt64 :=
  let (l, rest) := stripes ⟨prime1 + prime2, prime2, 0, 0 - prime1⟩ bs
  let acc := if bs.length < 32 then prime5 else l.converge
  avalanche (remainder (acc + bs.length.toUInt64) rest)

end Deadwood.XxHash
