import Deadwood.Zstd.Bits

/-!
# Finite-state codes

A code by states: every state stands for a symbol and says how many bits lead to the next state. The
table of states is described by how often each symbol occurs in it, with a frequency below one for
symbols that take a single state at its end.

## Main definitions

* `Zstd.Frequencies`, `Zstd.Frequencies.read`: how often symbols occur, and their description.
* `Zstd.StateTable`, `Zstd.StateTable.build`: the table of states.
* `Zstd.StateTable.alternate`: symbols that two states write in turn.
-/

namespace Deadwood.Zstd

/-- How often symbols occur among `2 ^ log` states. -/
structure Frequencies where
  log : Nat
  counts : List Int

structure CodeState where
  symbol : Nat := 0
  /-- How many bits lead to the next state. -/
  bits : Nat := 0
  /-- The next state if these bits are zero. -/
  next : Nat := 0
  deriving Inhabited

structure StateTable where
  log : Nat
  states : Array CodeState

/-! ## Frequencies -/

structure CountReading where
  place : Nat
  /-- One more than the states that have no symbol yet. -/
  remaining : Nat
  /-- From the last symbol to the first. -/
  counts : List Int

/-- The number of symbols that are skipped behind one that does not occur: two bits a time, as long
as both are set. -/
def skipped (bytes : Array UInt8) : (fuel : Nat) → (place : Nat) → Nat × Nat
  | 0, place => (0, place)
  | fuel + 1, place =>
    let n := bitsAt bytes place 2
    if n = 3 then
      let (more, place) := skipped bytes fuel (place + 2)
      (more + 3, place)
    else (n, place + 2)

/-- Read one frequency: the smaller values take one bit less. -/
def CountReading.step (bytes : Array UInt8) (r : CountReading) : CountReading :=
  let width := highBit r.remaining + 1
  let threshold := Nat.pow 2 (width - 1)
  let short := 2 * threshold - 1 - r.remaining
  let low := bitsAt bytes r.place (width - 1)
  let full := bitsAt bytes r.place width
  let (value, used) :=
    if low < short then (low, width - 1)
    else (if threshold ≤ full then full - short else full, width)
  let count : Int := (value : Int) - 1
  { place := r.place + used, remaining := r.remaining - count.natAbs, counts := count :: r.counts }

def readCounts (bytes : Array UInt8) (limit : Nat) : (fuel : Nat) → CountReading → CountReading
  | 0, r => r
  | fuel + 1, r =>
    if r.remaining ≤ 1 || limit < r.counts.length then r
    else
      let r := r.step bytes
      if r.counts.head? = some 0 then
        let (n, place) := skipped bytes (8 * bytes.size) r.place
        readCounts bytes limit fuel { r with place, counts := List.replicate n 0 ++ r.counts }
      else readCounts bytes limit fuel r

/-- Read a description. Symbols go up to `limit` and there are at most `2 ^ most` states. Answers
also the bytes behind it. -/
def Frequencies.read (limit most : Nat) (bs : Bytes) : Except Problem (Frequencies × Bytes) := do
  let bytes := bs.toArray
  if bytes.size < 4 then throw .badTable
  let log := bitsAt bytes 0 4 + 5
  if most < log then throw .badTable
  let r := readCounts bytes limit 256 ⟨4, Nat.pow 2 log + 1, []⟩
  let total := r.counts.foldl (fun n c => n + c.natAbs) 0
  if r.remaining ≠ 1 || total ≠ Nat.pow 2 log || r.counts.length ≤ 1 then throw .badTable
  if 256 < r.counts.length || 8 * bytes.size < r.place then throw .badTable
  return (⟨log, r.counts.reverse⟩, bs.drop ((r.place + 7) / 8))

/-! ## Tables -/

namespace StateTable

/-- The symbols that occur less than once, from the last state down. -/
def rareSymbols (f : Frequencies) : List Nat :=
  (f.counts.zipIdx.filter fun (c, _) => c < 0).map (·.2)

/-- The next state from `place` on below the states of rare symbols. -/
def nextPlace (size high : Nat) : (fuel : Nat) → (place : Nat) → Nat
  | 0, place => place
  | fuel + 1, place =>
    let place := (place + size / 2 + size / 8 + 3) % size
    if place < high then place else nextPlace size high fuel place

/-- Give states to one symbol, `count` times. -/
def spreadOne (size high symbol : Nat) : (count : Nat) → Nat × Array Nat → Nat × Array Nat
  | 0, s => s
  | count + 1, (place, symbols) =>
    spreadOne size high symbol count
      (nextPlace size high size place, symbols.setIfInBounds place symbol)

/-- The symbols of all states, or `none` if they do not fill the table. -/
def spread (f : Frequencies) : Option (Array Nat) :=
  let size := Nat.pow 2 f.log
  let rare := rareSymbols f
  let high := size - rare.length
  let start := rare.zipIdx.foldl (fun symbols (s, i) => symbols.setIfInBounds (size - 1 - i) s)
    (Array.replicate size 0)
  let (place, symbols) := f.counts.zipIdx.foldl
    (fun s (c, symbol) => spreadOne size high symbol c.toNat s) (0, start)
  if place = 0 then some symbols else none

/-- Number the states of each symbol, and find how many bits lead on from them. -/
def link (log : Nat) : List Nat → (seen : Array Nat) → List CodeState
  | [], _ => []
  | s :: rest, seen =>
    let n := (seen[s]?).getD 1
    let bits := log - highBit n
    ⟨s, bits, n * Nat.pow 2 bits - Nat.pow 2 log⟩ :: link log rest (seen.setIfInBounds s (n + 1))

def build (f : Frequencies) : Except Problem StateTable :=
  match spread f with
  | none => .error .badTable
  | some symbols =>
    let seen := (f.counts.map fun c => if c < 0 then 1 else c.toNat).toArray
    let states := link f.log symbols.toList seen
    if states.zipIdx.any fun (s, i) => s.bits = 0 && s.next = i then .error .badTable
    else .ok ⟨f.log, states.toArray⟩

def single (symbol : Nat) : StateTable :=
  ⟨0, #[⟨symbol, 0, 0⟩]⟩

def at_ (t : StateTable) (state : Nat) : CodeState :=
  (t.states[state]?).getD {}

def start (t : StateTable) (tape : Tape) : Except Problem (Nat × Tape) :=
  tape.read t.log

def advance (t : StateTable) (state : Nat) (tape : Tape) : Except Problem (Nat × Tape) := do
  let s := t.at_ state
  let (n, tape) ← tape.read s.bits
  return (s.next + n, tape)

/-- The symbols of two states that go on in turn, until the next step would need bits that are not
there. At most `fuel` symbols are read. -/
def alternate (t : StateTable) :
    (fuel : Nat) → (one other : Nat) → Tape → Except Problem (List Nat)
  | 0, _, _, _ => .error .tooLarge
  | fuel + 1, one, other, tape =>
    let s := t.at_ one
    if tape.left = 0 && 0 < s.bits then .ok [s.symbol, (t.at_ other).symbol]
    else do
      let (next, tape) ← t.advance one tape
      return s.symbol :: (← alternate t fuel other next tape)

end StateTable

end Deadwood.Zstd
