import Deadwood.Hash.XxHash
import Deadwood.Zstd.Block

/-!
# Frames of the Zstandard format

Data is stored in frames of blocks. Frames are written with blocks that are copied as they are;
reading understands all kinds of blocks, checks the size and the checksum that a frame may carry,
and passes over frames with other data. Empty data is stored as nothing at all.

## Main definitions

* `Zstd.encode`: data as a frame.
* `Zstd.Header`, `Zstd.readHeader`: what a frame says about itself.
* `Zstd.decode`: the data of frames.
-/

namespace Deadwood.Zstd

def magic : Bytes := [0x28, 0xB5, 0x2F, 0xFD]

/-- A number in `n` bytes, the lowest first. -/
def littleEndian : Nat → Nat → Bytes
  | 0, _ => []
  | n + 1, x => UInt8.ofNat (x % 256) :: littleEndian n (x / 256)

/-! ## Writing -/

def rawBlock (isLast : Bool) (bs : Bytes) : Bytes :=
  littleEndian 3 (bs.length * 8 + (if isLast then 1 else 0)) ++ bs

def blocks (bs : Bytes) : Bytes :=
  if bs.length ≤ blockSize then rawBlock true bs
  else rawBlock false (bs.take blockSize) ++ blocks (bs.drop blockSize)
termination_by bs.length
decreasing_by simp only [List.length_drop, blockSize] at *; omega

/-- Data as a frame whose header holds its size in eight bytes. -/
def encode (bs : Bytes) : Bytes :=
  if bs.isEmpty then [] else magic ++ [0xE0] ++ littleEndian 8 bs.length ++ blocks bs

/-! ## Reading -/

def split? (n : Nat) (bs : Bytes) : Except Problem (Bytes × Bytes) :=
  if bs.length < n then .error .truncated else .ok (bs.splitAt n)

structure Header where
  /-- How far back data may be repeated. -/
  window : Nat
  /-- The size of the data, if it is known. -/
  size : Option Nat
  hasChecksum : Bool

def leastWindow : Nat := 1024
def greatestWindow : Nat := 536870912

/-- The window that a byte describes: a power of two and some eighths of it. -/
def windowOf (b : Nat) : Nat :=
  let base := Nat.pow 2 (10 + b / 8)
  base + base / 8 * (b % 8)

/-- The header of a frame behind its first bytes. Frames that need a dictionary are refused. -/
def readHeader (bs : Bytes) : Except Problem (Header × Bytes) := do
  let (descriptor, rest) ← split? 1 bs
  let f := number descriptor
  if f / 8 % 2 = 1 then throw .badHeader
  let single := f / 32 % 2 = 1
  let (window, rest) ← split? (if single then 0 else 1) rest
  let (dictionary, rest) ← split? (([0, 1, 2, 4][f % 4]?).getD 0) rest
  let sizeBytes :=
    match f / 64 with
    | 0 => if single then 1 else 0
    | 1 => 2
    | 2 => 4
    | _ => 8
  let (size, rest) ← split? sizeBytes rest
  let size := number size + (if sizeBytes = 2 then 256 else 0)
  let window := if single then max size leastWindow else windowOf (number window)
  if !single && greatestWindow < window then throw .tooLarge
  if number dictionary ≠ 0 then throw .unknownDictionary
  return (⟨window, if sizeBytes = 0 then none else some size, f / 4 % 2 = 1⟩, rest)

/-- The data of the blocks of a frame up to its last one. A frame has no more blocks than bytes. -/
def readBlocks (h : Header) :
    (fuel : Nat) → Memory → Array UInt8 → Bytes → Except Problem (Array UInt8 × Bytes)
  | 0, _, _, _ => .error .truncated
  | fuel + 1, m, out, bs => do
    let (head, rest) ← split? 3 bs
    let n := number head
    let size := n / 8
    if min h.window blockSize < size then throw .tooLarge
    let (out, m, rest) ←
      match n / 2 % 4 with
      | 0 => do
        let (data, rest) ← split? size rest
        pure (out ++ data.toArray, m, rest)
      | 1 => do
        let (data, rest) ← split? 1 rest
        pure (out ++ (List.replicate size data).flatten.toArray, m, rest)
      | 2 => do
        if size < 2 then throw .badBlock
        let (data, rest) ← split? size rest
        let (out, m) ← readCompressed h.window m out data
        pure (out, m, rest)
      | _ => throw .badBlock
    if h.size.any (· < out.size) then throw .wrongSize
    if n % 2 = 1 then return (out, rest) else readBlocks h fuel m out rest

/-- One frame behind its first bytes, and what follows it. -/
def readFrame (bs : Bytes) : Except Problem (Bytes × Bytes) := do
  let (h, rest) ← readHeader bs
  let (out, rest) ← readBlocks h rest.length {} #[] rest
  if h.size.any (· ≠ out.size) then throw .wrongSize
  let data := out.toList
  if !h.hasChecksum then return (data, rest)
  let (checksum, rest) ← split? 4 rest
  if number checksum ≠ (XxHash.hash data).toNat % 4294967296 then throw .wrongChecksum
  return (data, rest)

/-- Whether a frame with these first bytes holds other data. -/
def isOther (start : Bytes) : Bool :=
  match start with
  | a :: rest => 0x50 ≤ a && a < 0x60 && rest == [0x2A, 0x4D, 0x18]
  | [] => false

/-- The data of frames, one after the other. There are no more frames than bytes. -/
def readFrames : Nat → Bytes → Except Problem Bytes
  | 0, _ => .ok []
  | fuel + 1, bs =>
    if bs.isEmpty then .ok []
    else do
      let (start, rest) ← split? 4 bs
      if isOther start then
        let (size, rest) ← split? 4 rest
        let (_, rest) ← split? (number size) rest
        readFrames fuel rest
      else if start ≠ magic then throw .badMagic
      else
        let (data, rest) ← readFrame rest
        return data ++ (← readFrames fuel rest)

def decode (bs : Bytes) : Except Problem Bytes :=
  readFrames bs.length bs

end Deadwood.Zstd
