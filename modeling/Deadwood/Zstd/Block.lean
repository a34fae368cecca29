import Deadwood.Zstd.PrefixCode

/-!
# Compressed blocks

A compressed block holds literals and sequences. A sequence copies some literals and then repeats
bytes that were written before; how far back they are is given as a number or as one of the last
three distances. Codes and distances stay in force for the blocks that follow.

## Main definitions

* `Zstd.Memory`: what blocks leave for later blocks of their frame.
* `Zstd.readLiterals`, `Zstd.readSequences`: the parts of a block.
* `Zstd.readCompressed`: the data of a compressed block.
-/

namespace Deadwood.Zstd

def blockSize : Nat := 131072

structure Memory where
  code : Option PrefixCode := none
  lengths : Option StateTable := none
  distances : Option StateTable := none
  matches_ : Option StateTable := none
  /-- The last three distances. -/
  recent : Nat × Nat × Nat := (1, 4, 8)

/-! ## Literals -/

def readLiterals (limit : Nat) (m : Memory) (bs : Bytes) :
    Except Problem (Bytes × Memory × Bytes) := do
  if bs.length < 2 then throw .truncated
  let head := number (bs.take 5)
  let format := head / 4 % 4
  if head % 4 < 2 then
    let (size, used) :=
      if format % 2 = 0 then (head % 256 / 8, 1)
      else if format = 1 then (head % 65536 / 16, 2)
      else (head % 16777216 / 16, 3)
    if bs.length < used then throw .truncated
    if min limit blockSize < size then throw .tooLarge
    let rest := bs.drop used
    if head % 4 = 0 then
      if rest.length < size then throw .truncated
      return (rest.take size, m, rest.drop size)
    else
      match rest with
      | [] => throw .truncated
      | b :: rest => return (List.replicate size b, m, rest)
  else
    let (width, used) :=
      if format < 2 then (10, 3) else if format = 2 then (14, 4) else (18, 5)
    if bs.length < used then throw .truncated
    let size := head / 16 % Nat.pow 2 width
    let written := head / 16 / Nat.pow 2 width % Nat.pow 2 width
    if min limit blockSize < size then throw .tooLarge
    let rest := bs.drop used
    if rest.length < written then throw .truncated
    let (code, data) ←
      if head % 4 = 2 then PrefixCode.read (rest.take written)
      else
        match m.code with
        | none => throw .badCode
        | some code => pure (code, rest.take written)
    let literals ← if format = 0 then code.decodeOne size data else code.decodeFour size data
    return (literals, { m with code := some code }, rest.drop written)

/-! ## Symbols of sequences -/

/-- A number by a code: the least value and the number of bits to add. -/
structure Step where
  base : Nat
  bits : Nat

/-- Values one after the other, each with as many bits as given. -/
def steps : (base : Nat) → List Nat → List Step
  | _, [] => []
  | base, b :: bs => ⟨base, b⟩ :: steps (base + Nat.pow 2 b) bs

def lengthSteps : Array Step :=
  (steps 0 (List.replicate 16 0 ++
    [1, 1, 1, 1, 2, 2, 3, 3, 4, 6, 7, 8, 9, 10, 11, 12, 13, 14, 15, 16])).toArray

def matchSteps : Array Step :=
  (steps 3 (List.replicate 32 0 ++
    [1, 1, 1, 1, 2, 2, 3, 3, 4, 4, 5, 7, 8, 9, 10, 11, 12, 13, 14, 15, 16])).toArray

/-- How far back they are, counted so that the first three values name recent distances. -/
def distanceSteps : Array Step :=
  (steps 1 (List.range 31)).toArray

/-- The frequencies that are used where none are given. -/
def lengthFrequencies : Frequencies :=
  ⟨6, [4, 3, 2, 2, 2, 2, 2, 2, 2, 2, 2, 2, 2, 1, 1, 1, 2, 2, 2, 2, 2, 2, 2, 2, 2, 3, 2, 1, 1, 1,
    1, 1, -1, -1, -1, -1]⟩

def distanceFrequencies : Frequencies :=
  ⟨5, [1, 1, 1, 1, 1, 1, 2, 2, 2, 1, 1, 1, 1, 1, 1, 1, 1, 1, 1, 1, 1, 1, 1, 1, -1, -1, -1, -1,
    -1]⟩

def matchFrequencies : Frequencies :=
  ⟨6, [1, 4, 3, 2, 2, 2, 2, 2, 2, 1, 1, 1, 1, 1, 1, 1, 1, 1, 1, 1, 1, 1, 1, 1, 1, 1, 1, 1, 1, 1,
    1, 1, 1, 1, 1, 1, 1, 1, 1, 1, 1, 1, 1, 1, 1, 1, -1, -1, -1, -1, -1, -1, -1]⟩

/-- The table of one kind of symbol: the usual one, one symbol, a described one or the last one. -/
def readTable (usual : Frequencies) (known : Array Step) (mode : Nat) (last : Option StateTable)
    (bs : Bytes) : Except Problem (StateTable × Bytes) :=
  match mode, bs with
  | 0, bs => (StateTable.build usual).map (·, bs)
  | 1, [] => .error .truncated
  | 1, b :: bs => if b.toNat < known.size then .ok (.single b.toNat, bs) else .error .badTable
  | 2, bs => do
    let (frequencies, bs) ← Frequencies.read (known.size - 1) 9 bs
    let table ← StateTable.build frequencies
    if table.states.any fun s => known.size ≤ s.symbol then throw .badTable
    return (table, bs)
  | _, bs =>
    match last with
    | none => .error .badTable
    | some table => .ok (table, bs)

/-! ## Sequences -/

/-- A sequence: how many literals are copied, and what is repeated. -/
structure Sequence where
  literals : Nat
  distance : Nat
  length : Nat

def readCount : Bytes → Except Problem (Nat × Bytes)
  | [] => .error .truncated
  | a :: rest =>
    if a < 128 then .ok (a.toNat, rest)
    else
      match rest with
      | [] => .error .truncated
      | b :: rest =>
        if a < 255 then .ok ((a.toNat - 128) * 256 + b.toNat, rest)
        else
          match rest with
          | [] => .error .truncated
          | c :: rest => .ok (0x7F00 + b.toNat + 256 * c.toNat, rest)

/-- The distance that a value means, and the recent distances after it. The first values name recent
distances, one further on where no literals come in front. -/
def distanceOf (value literals : Nat) (recent : Nat × Nat × Nat) : Nat × (Nat × Nat × Nat) :=
  let (a, b, c) := recent
  if 3 < value then (value - 3, value - 3, a, b)
  else
    match (if literals = 0 then value + 1 else value) with
    | 1 => (a, a, b, c)
    | 2 => let d := max b 1; (d, d, a, c)
    | 3 => let d := max c 1; (d, d, a, b)
    | _ => let d := max (a - 1) 1; (d, d, a, b)

structure Places where
  length : Nat
  distance : Nat
  match_ : Nat

structure Tables where
  lengths : StateTable
  distances : StateTable
  matches_ : StateTable

def Step.read (known : Array Step) (symbol : Nat) (tape : Tape) : Except Problem (Nat × Tape) := do
  let s := (known[symbol]?).getD ⟨0, 0⟩
  let (n, tape) ← tape.read s.bits
  return (s.base + n, tape)

/-- Read sequences; the data must end with them. -/
def readSequences (t : Tables) :
    (count : Nat) → Places → Tape → (recent : Nat × Nat × Nat) →
      Except Problem (List Sequence × (Nat × Nat × Nat))
  | 0, _, tape, recent => if tape.left = 0 then .ok ([], recent) else .error .badCode
  | count + 1, p, tape, recent => do
    let (value, tape) ← Step.read distanceSteps (t.distances.at_ p.distance).symbol tape
    let (length, tape) ← Step.read matchSteps (t.matches_.at_ p.match_).symbol tape
    let (literals, tape) ← Step.read lengthSteps (t.lengths.at_ p.length).symbol tape
    let (distance, recent) := distanceOf value literals recent
    let (p, tape) ←
      if count = 0 then pure (p, tape)
      else do
        let (l, tape) ← t.lengths.advance p.length tape
        let (m, tape) ← t.matches_.advance p.match_ tape
        let (d, tape) ← t.distances.advance p.distance tape
        pure (⟨l, d, m⟩, tape)
    let (more, recent) ← readSequences t count p tape recent
    return (⟨literals, distance, length⟩ :: more, recent)

/-- Repeat `count` bytes from `distance` bytes back; they may be bytes that are just written. -/
def repeated (distance : Nat) : (count : Nat) → Array UInt8 → Array UInt8
  | 0, out => out
  | count + 1, out => repeated distance count (out.push ((out[out.size - distance]?).getD 0))

/-- Carry out sequences behind what the frame has written so far. -/
def carryOut (window : Nat) : List Sequence → Bytes → Array UInt8 → Except Problem (Array UInt8)
  | [], literals, out => .ok (out ++ literals.toArray)
  | s :: rest, literals, out =>
    if literals.length < s.literals then .error .badCode
    else
      let out := out ++ (literals.take s.literals).toArray
      if out.size < s.distance || window < s.distance then .error .badCode
      else carryOut window rest (literals.drop s.literals) (repeated s.distance s.length out)

def readCompressed (window : Nat) (m : Memory) (out : Array UInt8) (bs : Bytes) :
    Except Problem (Array UInt8 × Memory) := do
  let (literals, m, rest) ← readLiterals window m bs
  let (count, rest) ← readCount rest
  if count = 0 then
    if !rest.isEmpty then throw .badBlock
    return (out ++ literals.toArray, m)
  else
    match rest with
    | [] => throw .truncated
    | modes :: rest =>
      let modes := modes.toNat
      if modes % 4 ≠ 0 then throw .badBlock
      let (lengths, rest) ←
        readTable lengthFrequencies lengthSteps (modes / 64) m.lengths rest
      let (distances, rest) ←
        readTable distanceFrequencies distanceSteps (modes / 16 % 4) m.distances rest
      let (matches_, rest) ←
        readTable matchFrequencies matchSteps (modes / 4 % 4) m.matches_ rest
      let tape ← Tape.ofBytes rest
      let (l, tape) ← lengths.start tape
      let (d, tape) ← distances.start tape
      let (k, tape) ← matches_.start tape
      let (sequences, recent) ← readSequences ⟨lengths, distances, matches_⟩ count ⟨l, d, k⟩ tape
        m.recent
      let written ← carryOut window sequences literals out
      if min window blockSize < written.size - out.size then throw .tooLarge
      return (written, { m with
        lengths := some lengths, distances := some distances, matches_ := some matches_, recent })

end Deadwood.Zstd
