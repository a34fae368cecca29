import Deadwood.Zstd
import Mathlib.Algebra.Group.Nat.Defs

/-!
# Compressed data can be read again

Data of fewer than `2 ^ 64` bytes, whose size fits into the header of a frame, is read back as it
was written.

## Main results

* `Zstd.readBlocks_blocks`: the blocks of some data.
* `Zstd.decode_encode`: a whole frame.
-/

namespace Deadwood.Zstd

/-! ## Numbers and pieces -/

@[simp] theorem length_littleEndian (n x : Nat) : (littleEndian n x).length = n := by
  induction n generalizing x with
  | zero => rfl
  | succ n ih => simp [littleEndian, ih]

theorem number_littleEndian {n x : Nat} (h : x < 256 ^ n) : number (littleEndian n x) = x := by
  induction n generalizing x with
  | zero =>
    obtain rfl : x = 0 := by simpa using h
    rfl
  | succ n ih =>
    have hx : x / 256 < 256 ^ n := Nat.div_lt_of_lt_mul (by rwa [Nat.pow_succ'] at h)
    have hnumber : number (littleEndian (n + 1) x) =
        (UInt8.ofNat (x % 256)).toNat + 256 * number (littleEndian n (x / 256)) := rfl
    have hlow : (UInt8.ofNat (x % 256)).toNat = x % 256 := by
      simp
    rw [hnumber, ih hx, hlow]
    omega

@[simp] theorem number_nil : number [] = 0 :=
  rfl

theorem split?_append {n : Nat} {bs : Bytes} (h : bs.length = n) (rest : Bytes) :
    split? n (bs ++ rest) = .ok (bs, rest) := by
  simp [split?, ← h]

@[simp] theorem split?_zero (bs : Bytes) : split? 0 bs = .ok ([], bs) := by
  simp [split?]

/-! ## Blocks -/

theorem blocks_ne_nil (bs : Bytes) : blocks bs ≠ [] := by
  unfold blocks
  split <;> simp [rawBlock, littleEndian]

theorem readBlocks_rawBlock {h : Header} {fuel : Nat} {m : Memory} {out : Array UInt8}
    {bs rest : Bytes} {isLast : Bool} (hlen : bs.length ≤ blockSize)
    (hwindow : bs.length ≤ h.window) (hsize : ∀ n ∈ h.size, out.size + bs.length ≤ n) :
    readBlocks h (fuel + 1) m out (rawBlock isLast bs ++ rest) =
      if isLast then .ok (out ++ bs.toArray, rest)
      else readBlocks h fuel m (out ++ bs.toArray) rest := by
  have hnumber : number (littleEndian 3 (bs.length * 8 + (if isLast then 1 else 0))) =
      bs.length * 8 + (if isLast then 1 else 0) := by
    apply number_littleEndian
    simp only [blockSize] at hlen
    split <;> omega
  have hdiv : (bs.length * 8 + (if isLast then 1 else 0)) / 8 = bs.length := by split <;> omega
  have hkind : (bs.length * 8 + (if isLast then 1 else 0)) / 2 % 4 = 0 := by split <;> omega
  have hlast : ((bs.length * 8 + (if isLast then 1 else 0)) % 2 = 1) = (isLast = true) := by
    cases isLast <;> simp <;> omega
  have hfits : ¬ min h.window blockSize < bs.length := by omega
  have hany : h.size.any (· < (out ++ bs.toArray).size) = false := by
    simpa [Option.any_eq_false] using hsize
  rw [readBlocks, rawBlock, List.append_assoc, split?_append (length_littleEndian 3 _)]
  simp only [bind, Except.bind, hnumber, hdiv, hkind, hlast, hfits, if_false, pure, Except.pure,
    split?_append rfl, hany, Bool.false_eq_true]

theorem readBlocks_blocks {h : Header} {fuel : Nat} {m : Memory} {out : Array UInt8}
    {bs rest : Bytes} (hfuel : (blocks bs).length ≤ fuel)
    (hwindow : min bs.length blockSize ≤ h.window)
    (hsize : ∀ n ∈ h.size, out.size + bs.length ≤ n) :
    readBlocks h fuel m out (blocks bs ++ rest) = .ok (out ++ bs.toArray, rest) := by
  obtain ⟨fuel, rfl⟩ : ∃ k, fuel = k + 1 :=
    Nat.exists_eq_succ_of_ne_zero fun h => blocks_ne_nil bs (by simpa [h] using hfuel)
  fun_induction blocks bs generalizing fuel m out with
  | case1 bs hlen => simp [readBlocks_rawBlock hlen (by omega) hsize]
  | case2 bs hlen ih =>
    have htake : (bs.take blockSize).length = blockSize := by simp; omega
    have hdrop : (bs.drop blockSize).length = bs.length - blockSize := by simp
    simp only [List.length_append, rawBlock, length_littleEndian] at hfuel
    have hfuel' : fuel ≠ 0 := by omega
    obtain ⟨fuel, rfl⟩ := Nat.exists_eq_succ_of_ne_zero hfuel'
    have hrest : readBlocks h (fuel + 1) m (out ++ (bs.take blockSize).toArray)
        (blocks (bs.drop blockSize) ++ rest) =
          .ok (out ++ (bs.take blockSize).toArray ++ (bs.drop blockSize).toArray, rest) := by
      refine ih (by omega) (fun n hn => ?_) fuel (by omega)
      have := hsize n hn
      simp only [Array.size_append, List.size_toArray, htake, hdrop]
      omega
    have hsize' : ∀ n ∈ h.size, out.size + (bs.take blockSize).length ≤ n := fun n hn => by
      have := hsize n hn
      omega
    rw [List.append_assoc, readBlocks_rawBlock (by omega) (by omega) hsize', if_neg (by simp),
      hrest]
    simp

/-! ## Frames -/

theorem readHeader_sized {n : Nat} (h : n < 2 ^ 64) (rest : Bytes) :
    readHeader ([0xE0] ++ littleEndian 8 n ++ rest) =
      .ok (⟨max n leastWindow, some n, false⟩, rest) := by
  have hdescriptor : number [0xE0] = 224 := rfl
  have hnumber : number (littleEndian 8 n) = n := number_littleEndian (by omega)
  have hsize := split?_append (length_littleEndian 8 n) rest
  unfold readHeader
  rw [List.append_assoc, split?_append (n := 1) rfl]
  simp [bind, Except.bind, pure, Except.pure, hdescriptor, hnumber, hsize]

theorem readFrame_sized {bs : Bytes} (h : bs.length < 2 ^ 64) (rest : Bytes) :
    readFrame ([0xE0] ++ littleEndian 8 bs.length ++ (blocks bs ++ rest)) = .ok (bs, rest) := by
  have hblocks : readBlocks ⟨max bs.length leastWindow, some bs.length, false⟩
      (blocks bs ++ rest).length {} #[] (blocks bs ++ rest) = .ok (bs.toArray, rest) := by
    have hwindow : min bs.length blockSize ≤ max bs.length leastWindow :=
      Nat.le_trans (Nat.min_le_left _ _) (Nat.le_max_left _ _)
    rw [readBlocks_blocks (by simp) hwindow (by simp)]
    simp
  unfold readFrame
  rw [readHeader_sized h]
  simp only [bind, Except.bind, hblocks]
  simp [pure, Except.pure]

theorem decode_encode {bs : Bytes} (h : bs.length < 2 ^ 64) : decode (encode bs) = .ok bs := by
  rcases Decidable.em (bs = []) with rfl | hbs
  · rfl
  have hencode :
      encode bs = magic ++ ([0xE0] ++ littleEndian 8 bs.length ++ (blocks bs ++ [])) := by
    simp [encode, hbs]
  have hmagic : isOther magic = false := rfl
  obtain ⟨fuel, hfuel⟩ : ∃ fuel, (encode bs).length = fuel + 2 := by
    refine ⟨(encode bs).length - 2, ?_⟩
    simp [hencode, magic]
  have hend : readFrames (fuel + 1) [] = .ok [] := rfl
  have hne : encode bs ≠ [] := by simp [hencode, magic]
  rw [decode, hfuel, readFrames, if_neg (by simpa using hne), hencode,
    split?_append (n := 4) rfl]
  simp only [bind, Except.bind, hmagic, Bool.false_eq_true, if_false, ne_eq, not_true_eq_false,
    readFrame_sized h, hend]
  simp [pure, Except.pure]

end Deadwood.Zstd
