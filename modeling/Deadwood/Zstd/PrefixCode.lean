import Deadwood.Zstd.StateTable

/-!
# Prefix codes of literals

Literals are written in a prefix code. The code is given by a weight for every byte: the higher the
weight, the shorter the code, and weight zero means that the byte does not occur. The last weight is
not written, since the weights have to fill the code.

## Main definitions

* `Zstd.PrefixCode`, `Zstd.PrefixCode.read`: a code and its description.
* `Zstd.PrefixCode.decode`: the bytes of one stream or of four.
-/

namespace Deadwood.Zstd

/-- A prefix code as a table: for every `log` bits that may come next, the byte and how many of
these bits belong to it. -/
structure PrefixCode where
  log : Nat
  entries : Array (UInt8 × Nat)

namespace PrefixCode

def longest : Nat := 11

def plainWeights (count : Nat) (bs : Bytes) : List Nat :=
  (bs.flatMap fun b => [b.toNat / 16, b.toNat % 16]).take count

def codedWeights (bs : Bytes) : Except Problem (List Nat) := do
  let (frequencies, rest) ← Frequencies.read 255 15 bs
  let table ← StateTable.build frequencies
  let tape ← Tape.ofBytes rest
  let (one, tape) ← table.start tape
  let (other, tape) ← table.start tape
  table.alternate 256 one other tape

def share (weight : Nat) : Nat :=
  if weight = 0 then 0 else Nat.pow 2 (weight - 1)

/-- The weights with the last one, and the length of the code. -/
def complete (weights : List Nat) : Except Problem (List Nat × Nat) :=
  let total := weights.foldl (fun n w => n + share w) 0
  let log := highBit total + 1
  let rest := Nat.pow 2 log - total
  if total = 0 || longest < log || weights.any (longest < ·) then .error .badTable
  else if rest ≠ Nat.pow 2 (highBit rest) then .error .badTable
  else
    let all := weights ++ [highBit rest + 1]
    let ones := all.count 1
    if ones < 2 || ones % 2 = 1 then .error .badTable else .ok (all, log)

def entriesOf (log weight : Nat) (weights : List Nat) : List (UInt8 × Nat) :=
  (weights.zipIdx.filter fun (w, _) => w == weight).flatMap fun (w, i) =>
    List.replicate (share w) (UInt8.ofNat i, log + 1 - w)

/-- The code of some weights, the smallest weight first. -/
def ofWeights (weights : List Nat) (log : Nat) : PrefixCode :=
  ⟨log, ((List.range log).flatMap fun k => entriesOf log (k + 1) weights).toArray⟩

/-- Read the description of a code. Answers also the bytes behind it. -/
def read (bs : Bytes) : Except Problem (PrefixCode × Bytes) :=
  match bs with
  | [] | [_] => .error .truncated
  | head :: rest => do
    let size := head.toNat
    let written := if 128 ≤ size then (size - 127 + 1) / 2 else size
    if rest.length < written then throw .truncated
    let weights ←
      if 128 ≤ size then pure (plainWeights (size - 127) (rest.take written))
      else codedWeights (rest.take written)
    if 255 < weights.length then throw .badTable
    let (all, log) ← complete weights
    return (ofWeights all log, rest.drop written)

/-! ## Literals -/

/-- Read `count` bytes; the data must end with them. -/
def readBytes (c : PrefixCode) : (count : Nat) → Tape → Array UInt8 → Except Problem (Array UInt8)
  | 0, tape, out => if tape.left = 0 then .ok out else .error .badCode
  | count + 1, tape, out =>
    if tape.left = 0 then .error .badCode
    else
      match c.entries[tape.peek c.log]? with
      | none => .error .badCode
      | some (b, bits) =>
        match tape.skip bits with
        | .error p => .error p
        | .ok tape => c.readBytes count tape (out.push b)

def decodeOne (c : PrefixCode) (count : Nat) (bs : Bytes) : Except Problem Bytes := do
  let tape ← Tape.ofBytes bs
  return (← c.readBytes count tape #[]).toList

/-- The bytes of four streams, the sizes of the first three of which are in front. -/
def decodeFour (c : PrefixCode) (count : Nat) (bs : Bytes) : Except Problem Bytes := do
  if bs.length < 10 then throw .truncated
  let (a, b, d) := (number (bs.take 2), number ((bs.drop 2).take 2), number ((bs.drop 4).take 2))
  let data := bs.drop 6
  if data.length ≤ a + b + d then throw .truncated
  let quarter := (count + 3) / 4
  if count < 3 * quarter then throw .badCode
  let one ← c.decodeOne quarter (data.take a)
  let two ← c.decodeOne quarter ((data.drop a).take b)
  let three ← c.decodeOne quarter ((data.drop (a + b)).take d)
  let four ← c.decodeOne (count - 3 * quarter) (data.drop (a + b + d))
  return one ++ two ++ three ++ four

end PrefixCode

end Deadwood.Zstd
