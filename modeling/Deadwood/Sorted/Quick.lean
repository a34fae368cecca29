/-!
# Quicksort

Sorting in place by swaps. Short ranges are sorted by insertion; longer ones are divided at a pivot,
the median of a few items. Ranges that look sorted are tried by insertion first, items equal to an
earlier pivot are set apart, and a range that was divided badly is stirred a little. After too many
bad divisions the range is sorted as a heap. Nothing is left to chance, so items that compare as
equal come in a definite order, which need not be the one in which they were given.

## Main definitions

* `Quick.arrange`: the items of an array after quicksort.
* `sortedBy`: a list in ascending order.
-/

namespace Deadwood

namespace Quick

variable {α : Type} (before : α → α → Bool)

/-- Whether the item at `i` comes before the item at `j`. -/
def isBefore (xs : Array α) (i j : Nat) : Bool :=
  match xs[i]?, xs[j]? with
  | some a, some b => before a b
  | _, _ => false

/-! ## Insertion -/

/-- Move the item at `j` down to its place, at most to `low`. -/
def sink (low : Nat) : (j : Nat) → Array α → Array α
  | 0, xs => xs
  | j + 1, xs =>
    if low < j + 1 && isBefore before xs (j + 1) j then
      sink low j (xs.swapIfInBounds (j + 1) j)
    else xs

def insertion (low high : Nat) (xs : Array α) : Array α :=
  (List.range (high - (low + 1))).foldl (fun xs k => sink before low (low + 1 + k) xs) xs

/-! ## Heaps -/

/-- Let the item at `root` of the heap sink that lies at `first` and has `size` items. -/
def siftDown (first size : Nat) : (fuel : Nat) → (root : Nat) → Array α → Array α
  | 0, _, xs => xs
  | fuel + 1, root, xs =>
    let child := 2 * root + 1
    if size ≤ child then xs
    else
      let child :=
        if child + 1 < size && isBefore before xs (first + child) (first + child + 1) then child + 1
        else child
      if isBefore before xs (first + root) (first + child) then
        siftDown first size fuel child (xs.swapIfInBounds (first + root) (first + child))
      else xs

def heap (low high : Nat) (xs : Array α) : Array α :=
  let size := high - low
  let built := (List.range ((size - 1) / 2 + 1)).reverse.foldl
    (fun xs i => siftDown before low size size i xs) xs
  (List.range size).reverse.foldl
    (fun xs i => siftDown before low i size 0 (xs.swapIfInBounds low (low + i))) built

/-! ## Pivots -/

inductive Trend where
  | rising
  | falling
  | unclear
  deriving DecidableEq

/-- The places of two items in their order, and the number of exchanges so far. -/
def inOrder (xs : Array α) (a b swaps : Nat) : Nat × Nat × Nat :=
  if isBefore before xs b a then (b, a, swaps + 1) else (a, b, swaps)

def median (xs : Array α) (a b c swaps : Nat) : Nat × Nat :=
  let (a, b, swaps) := inOrder before xs a b swaps
  let (b, _, swaps) := inOrder before xs b c swaps
  let (_, b, swaps) := inOrder before xs a b swaps
  (b, swaps)

/-- The length from which a pivot is the median of three medians. -/
def manyItems : Nat := 50

def pivot (low high : Nat) (xs : Array α) : Nat × Trend :=
  let quarter := (high - low) / 4
  let (i, j, k) := (low + quarter, low + quarter * 2, low + quarter * 3)
  let (i, j, k, swaps) :=
    if manyItems ≤ high - low then
      let (i, swaps) := median before xs (i - 1) i (i + 1) 0
      let (j, swaps) := median before xs (j - 1) j (j + 1) swaps
      let (k, swaps) := median before xs (k - 1) k (k + 1) swaps
      (i, j, k, swaps)
    else (i, j, k, 0)
  let (j, swaps) := if 8 ≤ high - low then median before xs i j k swaps else (j, swaps)
  (j, if swaps = 0 then .rising else if swaps = 12 then .falling else .unclear)

def reverseRange (low high : Nat) (xs : Array α) : Array α :=
  (List.range ((high - low) / 2)).foldl
    (fun xs k => xs.swapIfInBounds (low + k) (high - 1 - k)) xs

/-! ## Divisions -/

/-- The first place from `i` to `j` whose item does not satisfy `p`. -/
def skipUp (p : Nat → Bool) (j : Nat) : (fuel : Nat) → (i : Nat) → Nat
  | 0, i => i
  | fuel + 1, i => if i ≤ j && p i then skipUp p j fuel (i + 1) else i

/-- The last place from `i` to `j` whose item does not satisfy `p`. -/
def skipDown (p : Nat → Bool) (i : Nat) : (j : Nat) → Nat
  | 0 => 0
  | j + 1 => if i ≤ j + 1 && p (j + 1) then skipDown p i j else j + 1

/-- Exchange items from both ends of a range until they meet: `small` items go to the front and
`large` ones to the back. Answers the places where they met. -/
def exchange (small large : Array α → Nat → Bool) :
    (fuel : Nat) → (i j : Nat) → Array α → Nat × Nat × Array α
  | 0, i, j, xs => (i, j, xs)
  | fuel + 1, i, j, xs =>
    let i := skipUp (small xs) j (j + 1 - i) i
    let j := skipDown (large xs) i j
    if j < i then (i, j, xs)
    else exchange small large fuel (i + 1) (j - 1) (xs.swapIfInBounds i j)

/-- Divide a range at its pivot. Answers the new place of the pivot and whether nothing had to be
moved. -/
def divide (low high pivot : Nat) (xs : Array α) : Nat × Bool × Array α :=
  let xs := xs.swapIfInBounds low pivot
  let small (xs : Array α) (i : Nat) : Bool := isBefore before xs i low
  let large (xs : Array α) (j : Nat) : Bool := !isBefore before xs j low
  let i := skipUp (small xs) (high - 1) (high - low) (low + 1)
  let j := skipDown (large xs) i (high - 1)
  if j < i then (j, true, xs.swapIfInBounds j low)
  else
    let (_, j, xs) := exchange small large (high - low) (i + 1) (j - 1) (xs.swapIfInBounds i j)
    (j, false, xs.swapIfInBounds j low)

/-- Divide a range without items below the pivot into those equal to it and those above. Answers
where the latter start. -/
def divideEqual (low high pivot : Nat) (xs : Array α) : Nat × Array α :=
  let xs := xs.swapIfInBounds low pivot
  let (i, _, xs) := exchange (fun xs i => !isBefore before xs low i)
    (fun xs j => isBefore before xs low j) (high - low) (low + 1) (high - 1) xs
  (i, xs)

/-! ## Ranges that look sorted -/

/-- Move the item at `j` up to its place, at most to the end of the range. -/
def rise (high : Nat) : (fuel : Nat) → (j : Nat) → Array α → Array α
  | 0, _, xs => xs
  | fuel + 1, j, xs =>
    if j < high && isBefore before xs j (j - 1) then
      rise high fuel (j + 1) (xs.swapIfInBounds j (j - 1))
    else xs

/-- Mend up to five places of a range that are out of order. Answers whether the range is sorted. -/
def mend (low high : Nat) : (steps : Nat) → (i : Nat) → Array α → Bool × Array α
  | 0, _, xs => (false, xs)
  | steps + 1, i, xs =>
    let i := skipUp (fun i => !isBefore before xs i (i - 1)) (high - 1) (high - i) i
    if i = high then (true, xs)
    else if high - low < manyItems then (false, xs)
    else
      let xs := xs.swapIfInBounds i (i - 1)
      let xs := if 2 ≤ i - low then sink before 0 (i - 1) xs else xs
      let xs := if 2 ≤ high - i then rise before high (high - i) (i + 1) xs else xs
      mend low high steps i xs

/-! ## Stirring -/

def nextWord (w : UInt64) : UInt64 :=
  let w := w ^^^ (w <<< 13)
  let w := w ^^^ (w >>> 7)
  w ^^^ (w <<< 17)

/-- Exchange three items in the middle of a range with items that the words pick. -/
def stirFrom (low length modulus place : Nat) :
    (count : Nat) → (step : Nat) → UInt64 → Array α → Array α
  | 0, _, _, xs => xs
  | count + 1, step, w, xs =>
    let w := nextWord w
    let other := w.toNat % modulus
    let other := if length ≤ other then other - length else other
    stirFrom low length modulus place count (step + 1) w
      (xs.swapIfInBounds (place + step) (low + other))

def stir (low high : Nat) (xs : Array α) : Array α :=
  let length := high - low
  if length < 8 then xs
  else
    stirFrom low length (Nat.pow 2 (Nat.log2 length + 1)) (low + length / 4 * 2 - 2) 3 0
      (UInt64.ofNat length) xs

/-! ## The sort -/

/-- Sort the range from `low` up to `high`; `limit` counts the bad divisions that are left, `even`
says whether the last division was balanced and `tidy` whether it moved nothing. Every call takes
one unit of `fuel`. -/
def arrangeRange : (fuel : Nat) → (low high limit : Nat) → (even tidy : Bool) → Array α → Array α
  | 0, _, _, _, _, _, xs => xs
  | fuel + 1, low, high, limit, even, tidy, xs =>
    let length := high - low
    if length ≤ 12 then insertion before low high xs
    else if limit = 0 then heap before low high xs
    else
      let (xs, limit) := if even then (xs, limit) else (stir low high xs, limit - 1)
      let (p, trend) := pivot before low high xs
      let (xs, p, trend) :=
        if trend = .falling then (reverseRange low high xs, high - 1 - (p - low), Trend.rising)
        else (xs, p, trend)
      let (sorted, xs) :=
        if even && tidy && trend = .rising then mend before low high 5 (low + 1) xs
        else (false, xs)
      if sorted then xs
      else if 0 < low && !isBefore before xs (low - 1) p then
        let (middle, xs) := divideEqual before low high p xs
        arrangeRange fuel middle high limit even tidy xs
      else
        let (middle, tidy, xs) := divide before low high p xs
        let left := middle - low
        let right := high - middle
        if left < right then
          arrangeRange fuel (middle + 1) high limit (length / 8 ≤ left) tidy
            (arrangeRange fuel low middle limit true true xs)
        else
          arrangeRange fuel low middle limit (length / 8 ≤ right) tidy
            (arrangeRange fuel (middle + 1) high limit true true xs)

def arrange (xs : Array α) : Array α :=
  arrangeRange before (2 * xs.size + 1) 0 xs.size (Nat.log2 xs.size + 1) true true xs

end Quick

/-- A list in ascending order. Items of which none is before the other come in the order in which
quicksort leaves them. -/
def sortedBy {α : Type} (before : α → α → Bool) (as : List α) : List α :=
  (Quick.arrange before as.toArray).toList.mergeSort (fun a b => !before b a)

end Deadwood
