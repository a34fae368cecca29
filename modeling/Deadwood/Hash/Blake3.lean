import Deadwood.Text.Quoted
import Deadwood.Text.Utf8

/-!
# BLAKE3

The 256-bit BLAKE3 digest of a byte list. The input is cut into chunks of 1024 bytes, each chunk
into blocks of 64 bytes; a chunk is compressed block by block, and the results of the chunks are
combined pairwise in a binary tree whose left parts are as large as possible.

## Main definitions

* `compress`: the compression function.
* `tree`: the last compression of the tree over an input.
* `Blake3.hex`: the digest in base sixteen.
-/

namespace Deadwood.Blake3

/-- Sixteen words: a message block or the state of a compression. -/
abbrev Words := Vector UInt32 16

abbrev Chain := Vector UInt32 8

def initial : Chain :=
  #v[0x6A09E667, 0xBB67AE85, 0x3C6EF372, 0xA54FF53A, 0x510E527F, 0x9B05688C, 0x1F83D9AB, 0x5BE0CD19]

/-- The order in which a round takes the words of the round before it. -/
def permutation : Vector (Fin 16) 16 :=
  #v[2, 6, 3, 10, 7, 0, 4, 13, 1, 11, 12, 5, 9, 14, 15, 8]

def chunkStart : UInt32 := 1
def chunkEnd : UInt32 := 2
def parentNode : UInt32 := 4
def rootNode : UInt32 := 8

def rotateRight (x : UInt32) (n : UInt32) : UInt32 :=
  (x >>> n) ||| (x <<< (32 - n))

def mix (s : Words) (a b c d : Fin 16) (x y : UInt32) : Words :=
  let va := s[a] + s[b] + x
  let vd := rotateRight (s[d] ^^^ va) 16
  let vc := s[c] + vd
  let vb := rotateRight (s[b] ^^^ vc) 12
  let va' := va + vb + y
  let vd' := rotateRight (vd ^^^ va') 8
  let vc' := vc + vd'
  let vb' := rotateRight (vb ^^^ vc') 7
  (((s.set a va').set b vb').set c vc').set d vd'

def round (s m : Words) : Words :=
  let s := mix s 0 4 8 12 m[0] m[1]
  let s := mix s 1 5 9 13 m[2] m[3]
  let s := mix s 2 6 10 14 m[4] m[5]
  let s := mix s 3 7 11 15 m[6] m[7]
  let s := mix s 0 5 10 15 m[8] m[9]
  let s := mix s 1 6 11 12 m[10] m[11]
  let s := mix s 2 7 8 13 m[12] m[13]
  mix s 3 4 9 14 m[14] m[15]

def permute (m : Words) : Words :=
  permutation.map fun i => m[i]

/-- `n` rounds, the message words permuted between them. -/
def rounds : Nat → Words → Words → Words
  | 0, s, _ => s
  | n + 1, s, m => rounds n (round s m) (permute m)

structure Job where
  chain : Chain
  block : Words
  counter : Nat
  length : Nat
  marks : UInt32

/-- The eight words that the compression of a block hands on. -/
def compress (j : Job) : Chain :=
  let words := j.chain
  let s : Words :=
    #v[words[0], words[1], words[2], words[3], words[4], words[5], words[6], words[7],
      0x6A09E667, 0xBB67AE85, 0x3C6EF372, 0xA54FF53A,
      j.counter.toUInt32, (j.counter / 0x100000000).toUInt32, j.length.toUInt32, j.marks]
  let s := rounds 7 s j.block
  #v[s[0] ^^^ s[8], s[1] ^^^ s[9], s[2] ^^^ s[10], s[3] ^^^ s[11],
    s[4] ^^^ s[12], s[5] ^^^ s[13], s[6] ^^^ s[14], s[7] ^^^ s[15]]

/-- The word of four bytes, the least significant first; missing bytes are zero. -/
def wordAt (bs : Bytes) (i : Nat) : UInt32 :=
  let at' := fun k => ((bs[4 * i + k]?).getD 0).toUInt32
  at' 0 ||| (at' 1 <<< 8) ||| (at' 2 <<< 16) ||| (at' 3 <<< 24)

def wordsOf (bs : Bytes) : Words :=
  Vector.ofFn fun i => wordAt bs i

/-- The last compression of a chunk. Every block but the last one is compressed on the way. -/
def chunk (counter : Nat) (chain : Chain) (marks : UInt32) (bs : Bytes) : Job :=
  if bs.length ≤ 64 then
    ⟨chain, wordsOf bs, counter, bs.length, marks ||| chunkEnd⟩
  else
    chunk counter (compress ⟨chain, wordsOf (bs.take 64), counter, 64, marks⟩) 0 (bs.drop 64)
termination_by bs.length
decreasing_by simp; omega

/-- The bytes of the left part of a tree over more than one chunk: the largest power of two of
chunks that leaves something for the right part. -/
def leftLength (n : Nat) : Nat :=
  1024 * Nat.pow 2 (Nat.log2 ((n - 1) / 1024))

def parent (left right : Chain) : Job :=
  let block : Words :=
    #v[left[0], left[1], left[2], left[3], left[4], left[5], left[6], left[7],
      right[0], right[1], right[2], right[3], right[4], right[5], right[6], right[7]]
  ⟨initial, block, 0, 64, parentNode⟩

/-- The last compression of the tree over `bs`, whose first chunk has number `counter`. Each level
takes one unit of `depth`. -/
def tree : (depth : Nat) → (counter : Nat) → Bytes → Job
  | 0, counter, bs => chunk counter initial chunkStart bs
  | depth + 1, counter, bs =>
    if bs.length ≤ 1024 then chunk counter initial chunkStart bs
    else
      let n := leftLength bs.length
      parent (compress (tree depth counter (bs.take n)))
        (compress (tree depth (counter + n / 1024) (bs.drop n)))

/-- The four bytes of a word, the least significant first, in base sixteen. -/
def wordHex (w : UInt32) : String :=
  String.join ([0, 8, 16, 24].map fun k => Text.hexDigits 2 (w.toNat / Nat.pow 2 k % 256))

def hex (bs : Bytes) : String :=
  let job := tree bs.length 0 bs
  String.join ((compress { job with marks := job.marks ||| rootNode }).toList.map wordHex)

end Deadwood.Blake3
