import Deadwood.Pruning.LineRange
import Deadwood.Proofs.Keyed

/-!
# The lines that are left

Lines are cut after line breaks, so that together they are the content again. Removing ranges either
fails because one of them does not fit, or leaves the lines that are in none of them. It does not
matter how the ranges overlap: they are joined until they are apart, and ranges that are apart can
be cut out one by one, the last one first.

## Main definitions

* `CutsInto`: what the lines of a content are.
* `keptLines`, `linesOutside`: the lines that are in none of some ranges.
* `InRanges`: a number that some range holds.
* `IsMergeOf`: ranges that are apart and hold the same lines as others.

## Main results

* `cutsInto_iff`: the lines of a content.
* `foldr_cut`: cutting out ranges that are apart.
* `isMergeOf_mergeRanges`: what joining ranges does.
* `removeLines_eq_ok`: when removing ranges succeeds, and what it leaves.
* `removeLines_exact`: all of this, and that only the lines in the ranges matter.
-/

namespace Deadwood

/-! ## Lines -/

@[simp] theorem flatten_linesFrom (line content : Bytes) :
    (linesFrom line content).flatten = line.reverse ++ content := by
  fun_induction linesFrom line content with
  | case1 line h => simp_all
  | case2 line h => simp
  | case3 line bs ih => simp [ih]
  | case4 line b bs h ih => simp [ih]

@[simp] theorem flatten_lines (content : Bytes) : (lines content).flatten = content :=
  flatten_linesFrom [] content

theorem linesFrom_append {l : Bytes} (h : 10 ∉ l) (line rest : Bytes) :
    linesFrom line (l ++ rest) = linesFrom (l.reverse ++ line) rest := by
  induction l generalizing line with
  | nil => rfl
  | cons b l ih =>
    have hb : b ≠ 10 := fun hb => h (by simp [hb])
    have hl : 10 ∉ l := fun hl => h (by simp [hl])
    simp [linesFrom, hb, ih hl]

/-- A line ends after its line break. -/
theorem lines_append_break {l : Bytes} (h : 10 ∉ l) (rest : Bytes) :
    lines (l ++ 10 :: rest) = (l ++ [10]) :: lines rest := by
  simp [lines, linesFrom_append h, linesFrom]

/-- What follows the last line break is a line unless it is empty. -/
theorem lines_of_no_break {l : Bytes} (h : 10 ∉ l) : lines l = if l = [] then [] else [l] := by
  simpa [lines, linesFrom] using linesFrom_append h [] []

/-- A content and its lines: each has a line break at its end and nowhere else, except for a last
line that has none and is not empty. -/
inductive CutsInto : Bytes → List Bytes → Prop
  | nil : CutsInto [] []
  | last (l : Bytes) (hne : l ≠ []) (h : 10 ∉ l) : CutsInto l [l]
  | cons (l rest : Bytes) (ls : List Bytes) (h : 10 ∉ l) (hrest : CutsInto rest ls) :
    CutsInto (l ++ 10 :: rest) ((l ++ [10]) :: ls)

theorem cutsInto_linesFrom {line : Bytes} (h : 10 ∉ line) (content : Bytes) :
    CutsInto (line.reverse ++ content) (linesFrom line content) := by
  fun_induction linesFrom line content with
  | case1 line hempty =>
    obtain rfl : line = [] := by simpa using hempty
    exact .nil
  | case2 line hempty =>
    rw [List.append_nil]
    exact .last _ (by simpa using hempty) (by simpa using h)
  | case3 line bs ih =>
    rw [List.reverse_cons]
    exact .cons _ _ _ (by simpa using h) (ih (by simp))
  | case4 line b bs hb ih =>
    rw [List.append_cons, ← List.reverse_cons]
    exact ih (by simp [h, Ne.symm hb])

theorem cutsInto_iff {content : Bytes} {ls : List Bytes} :
    CutsInto content ls ↔ ls = lines content := by
  constructor
  · intro h
    induction h with
    | nil => rfl
    | last l hne h => rw [lines_of_no_break h, if_neg hne]
    | cons l rest ls h _ ih => rw [lines_append_break h, ih]
  · rintro rfl
    exact cutsInto_linesFrom List.not_mem_nil content

/-! ## Ranges -/

/-- The lines of a content that are in none of some ranges, in order. -/
def linesOutside (content : Bytes) (rs : List LineRange) : Bytes :=
  ((((lines content).zipIdx 1).filter fun l => rs.all (!·.contains l.2)).map (·.1)).flatten

@[simp] theorem linesOutside_nil (content : Bytes) : linesOutside content [] = content := by
  simp [linesOutside]

@[simp, grind =] theorem LineRange.fits_iff {r : LineRange} {count : Nat} :
    r.fits count ↔ 1 ≤ r.first ∧ r.first ≤ r.last ∧ r.last ≤ count := by
  simp [fits, and_assoc]

/-- Some range holds a number. -/
def InRanges (rs : List LineRange) (n : Int) : Prop :=
  ∃ r ∈ rs, r.first ≤ n ∧ n ≤ r.last

@[simp] theorem not_inRanges_nil (n : Int) : ¬ InRanges [] n := by
  simp [InRanges]

@[simp, grind =] theorem inRanges_cons {r : LineRange} {rs : List LineRange} {n : Int} :
    InRanges (r :: rs) n ↔ (r.first ≤ n ∧ n ≤ r.last) ∨ InRanges rs n := by
  simp [InRanges]

/-- The lines, numbered from `n`, that are in none of some ranges. -/
def keptLines (rs : List LineRange) (n : Nat) (ls : List Bytes) : List Bytes :=
  ((ls.zipIdx n).filter fun l => rs.all (!·.contains l.2)).map (·.1)

theorem linesOutside_eq (content : Bytes) (rs : List LineRange) :
    linesOutside content rs = (keptLines rs 1 (lines content)).flatten :=
  rfl

section Kept

variable {rs rs' : List LineRange} {n : Nat} {ls : List Bytes}

theorem all_not_contains_iff : rs.all (!·.contains n) ↔ ¬ InRanges rs n := by
  simp [InRanges, LineRange.contains, imp_iff_not_or]

@[simp] theorem keptLines_append (ls ls' : List Bytes) :
    keptLines rs n (ls ++ ls') = keptLines rs n ls ++ keptLines rs (n + ls.length) ls' := by
  simp [keptLines, List.zipIdx_append]

/-- Only the numbers of the lines matter. -/
theorem keptLines_congr
    (h : ∀ k, n ≤ k → k < n + ls.length → (InRanges rs k ↔ InRanges rs' k)) :
    keptLines rs n ls = keptLines rs' n ls := by
  refine congrArg (List.map _) (List.filter_congr fun l hl => ?_)
  obtain ⟨hlow, hhigh, -⟩ := List.mem_zipIdx hl
  rw [Bool.eq_iff_iff, all_not_contains_iff, all_not_contains_iff, h l.2 hlow (by omega)]

theorem keptLines_eq_self (h : ∀ k, n ≤ k → k < n + ls.length → ¬ InRanges rs k) :
    keptLines rs n ls = ls := by
  have hnone : keptLines rs n ls = keptLines [] n ls :=
    keptLines_congr fun k hlow hhigh => by simp [h k hlow hhigh]
  rw [hnone]
  simp [keptLines]

theorem keptLines_eq_nil (h : ∀ k, n ≤ k → k < n + ls.length → InRanges rs k) :
    keptLines rs n ls = [] := by
  rw [keptLines, List.map_eq_nil_iff, List.filter_eq_nil_iff]
  intro l hl
  obtain ⟨hlow, hhigh, -⟩ := List.mem_zipIdx hl
  rw [all_not_contains_iff, not_not]
  exact h l.2 hlow (by omega)

/-! ## Cutting out ranges that are apart -/

/-- If ranges behind a range have been cut out, that range is where it was. -/
theorem cut_keptLines {r : LineRange} (hfits : r.fits ls.length)
    (hapart : ∀ s ∈ rs, r.last < s.first) :
    r.cut (keptLines rs 1 ls) = keptLines (r :: rs) 1 ls := by
  obtain ⟨hfirst, horder, hlast⟩ := LineRange.fits_iff.mp hfits
  generalize hskip : (r.first - 1).toNat = skip
  generalize hupto : r.last.toNat = upto
  have hle : skip ≤ upto := by omega
  have hfront : (ls.take upto).length = upto := List.length_take_of_le (by omega)
  have hbefore : ∀ k : Nat, k < 1 + upto → ¬ InRanges rs k := by
    rintro k hk ⟨s, hs, hstart, -⟩
    have := hapart s hs
    omega
  -- up to the end of the range nothing has been cut out yet
  have hcut : r.cut (keptLines rs 1 ls) =
      ls.take skip ++ keptLines rs (1 + upto) (ls.drop upto) := by
    have hsplit : keptLines rs 1 ls =
        ls.take upto ++ keptLines rs (1 + upto) (ls.drop upto) := by
      conv_lhs => rw [← List.take_append_drop upto ls]
      rw [keptLines_append, hfront, keptLines_eq_self fun k _ hk => hbefore k (by omega)]
    rw [LineRange.cut, hskip, hupto, hsplit, List.take_append_of_le_length (by omega),
      List.take_take, min_eq_left hle, List.drop_left' hfront]
  have hgone : keptLines (r :: rs) 1 (ls.take upto) = ls.take skip := by
    have htwo : ls.take upto = ls.take skip ++ (ls.take upto).drop skip := by
      conv_lhs => rw [← List.take_append_drop skip (ls.take upto)]
      rw [List.take_take, min_eq_left hle]
    have hlength : (ls.take skip).length = skip := List.length_take_of_le (by omega)
    rw [htwo, keptLines_append, hlength, keptLines_eq_self, keptLines_eq_nil, List.append_nil]
    · intro k hlow hhigh
      rw [List.length_drop, hfront] at hhigh
      exact inRanges_cons.mpr (.inl (by omega))
    · intro k hlow hhigh
      rw [inRanges_cons, not_or]
      exact ⟨by omega, hbefore k (by omega)⟩
  rw [hcut]
  conv_rhs => rw [← List.take_append_drop upto ls]
  rw [keptLines_append, hfront, hgone]
  refine congrArg _ (keptLines_congr fun k hlow hhigh => ?_)
  rw [inRanges_cons, or_iff_right]
  omega

/-- Ranges that are apart can be cut out one by one, the last one first. -/
theorem foldr_cut (hfits : ∀ r ∈ rs, r.fits ls.length)
    (hapart : rs.Pairwise fun r s => r.last < s.first) :
    rs.foldr LineRange.cut ls = keptLines rs 1 ls := by
  induction rs with
  | nil => simp [keptLines]
  | cons r rs ih =>
    obtain ⟨hr, hrs⟩ := List.pairwise_cons.mp hapart
    rw [List.foldr_cons, ih (fun s hs => hfits s (List.mem_cons_of_mem r hs)) hrs]
    exact cut_keptLines (hfits r List.mem_cons_self) hr

end Kept

/-! ## Joining ranges -/

/-- Ranges that fit, are apart, and hold the same numbers as others. -/
structure IsMergeOf (count : Nat) (rs merged : List LineRange) : Prop where
  fits : ∀ r ∈ merged, r.fits count
  apart : merged.Pairwise fun r s => r.last < s.first
  inRanges : ∀ n, InRanges merged n ↔ InRanges rs n

/-- Joined ranges hold what was held before, and nothing starts before the first range. -/
theorem isMergeOf_mergeFrom {count : Nat} {r : LineRange} {rs : List LineRange}
    (hsorted : (r :: rs).Pairwise fun a b => a.first ≤ b.first)
    (hfits : ∀ s ∈ r :: rs, s.fits count) :
    IsMergeOf count (r :: rs) (mergeFrom r rs) ∧ ∀ s ∈ mergeFrom r rs, r.first ≤ s.first := by
  fun_induction mergeFrom r rs with
  | case1 r => exact ⟨⟨hfits, by simp, fun n => .rfl⟩, by simp⟩
  | case2 r s rs htouch ih =>
    obtain ⟨hr, hrest⟩ := List.pairwise_cons.mp hsorted
    obtain ⟨hrs, hfits'⟩ := List.forall_mem_cons.mp hfits
    obtain ⟨hss, hfits''⟩ := List.forall_mem_cons.mp hfits'
    have hstart := hr s List.mem_cons_self
    rw [LineRange.fits_iff] at hrs hss
    have hboth : (LineRange.mk r.first (max r.last s.last)).fits count := by
      rw [LineRange.fits_iff]
      dsimp only
      omega
    obtain ⟨hmerge, hfirst⟩ := ih
      (List.pairwise_cons.mpr
        ⟨fun t ht => hr t (List.mem_cons_of_mem s ht), (List.pairwise_cons.mp hrest).2⟩)
      (List.forall_mem_cons.mpr ⟨hboth, hfits''⟩)
    refine ⟨⟨hmerge.fits, hmerge.apart, fun n => ?_⟩, hfirst⟩
    -- between two ranges that touch there is no number that neither holds
    rw [hmerge.inRanges, inRanges_cons, inRanges_cons, inRanges_cons, ← or_assoc]
    refine or_congr_left ?_
    dsimp only
    omega
  | case3 r s rs hgap ih =>
    obtain ⟨hr, hrest⟩ := List.pairwise_cons.mp hsorted
    obtain ⟨hrs, hfits'⟩ := List.forall_mem_cons.mp hfits
    obtain ⟨hmerge, hfirst⟩ := ih hrest hfits'
    refine ⟨⟨List.forall_mem_cons.mpr ⟨hrs, hmerge.fits⟩,
      List.pairwise_cons.mpr ⟨fun t ht => ?_, hmerge.apart⟩, fun n => ?_⟩,
      List.forall_mem_cons.mpr ⟨le_rfl, fun t ht => ?_⟩⟩
    · have := hfirst t ht
      omega
    · rw [inRanges_cons, hmerge.inRanges, inRanges_cons (r := r)]
    · exact (hr s List.mem_cons_self).trans (hfirst t ht)

theorem isMergeOf_mergeRanges {count : Nat} {rs : List LineRange}
    (hsorted : rs.Pairwise fun a b => a.first ≤ b.first) (hfits : ∀ r ∈ rs, r.fits count) :
    IsMergeOf count rs (mergeRanges rs) := by
  cases rs with
  | nil => exact ⟨by simp [mergeRanges], by simp [mergeRanges], fun n => .rfl⟩
  | cons r rs => exact (isMergeOf_mergeFrom hsorted hfits).1

/-! ## Removal -/

/-- The order of ranges in a list does not matter. -/
theorem inRanges_congr {rs rs' : List LineRange} (h : ∀ r, r ∈ rs ↔ r ∈ rs') (n : Int) :
    InRanges rs n ↔ InRanges rs' n := by
  simp only [InRanges, h]

/-- Sorted, joined and cut out, ranges leave the lines that are in none of them. -/
theorem flatten_foldr_cut {content : Bytes} {rs : List LineRange}
    (hfits : ∀ r ∈ rs, r.fits (lines content).length) :
    ((mergeRanges (sortedBy (fun a b => a.first < b.first) rs)).foldr LineRange.cut
      (lines content)).flatten = linesOutside content rs := by
  have hmerge : IsMergeOf (lines content).length (sortedBy (fun a b => a.first < b.first) rs)
      (mergeRanges (sortedBy (fun a b => a.first < b.first) rs)) :=
    isMergeOf_mergeRanges (pairwise_key_le_sortedBy rs)
      fun r hr => hfits r (mem_sortedBy.mp hr)
  rw [foldr_cut hmerge.fits hmerge.apart, linesOutside_eq]
  refine congrArg List.flatten (keptLines_congr fun k _ _ => ?_)
  rw [hmerge.inRanges, inRanges_congr fun r => mem_sortedBy]

@[grind =] theorem removeLines_eq_ok {content kept : Bytes} {rs : List LineRange} :
    removeLines content rs = .ok kept ↔
      (∀ r ∈ rs, r.fits (lines content).length) ∧ kept = linesOutside content rs := by
  rcases eq_or_ne rs [] with rfl | hrs
  · simp only [removeLines, List.isEmpty_nil, if_true, linesOutside_nil, Except.ok.injEq]
    exact ⟨fun h => ⟨by simp, h.symm⟩, fun h => h.2.symm⟩
  · have hempty : rs.isEmpty = false := by simpa using hrs
    -- the search goes through the sorted ranges, which are the same ones
    cases hfind : (sortedBy (fun a b => a.first < b.first) rs).find?
        (!·.fits (lines content).length) with
    | some r =>
      have hmem : r ∈ rs := mem_sortedBy.mp (List.mem_of_find?_eq_some hfind)
      have hfits : r.fits (lines content).length = false := by
        simpa using List.find?_some hfind
      simp only [removeLines, hempty, hfind, Bool.false_eq_true, if_false, reduceCtorEq, false_iff]
      exact fun h => by simpa [hfits] using h.1 r hmem
    | none =>
      have hfits : ∀ r ∈ rs, r.fits (lines content).length := fun r hr => by
        simpa using List.find?_eq_none.mp hfind r (mem_sortedBy.mpr hr)
      simp only [removeLines, hempty, hfind, flatten_foldr_cut hfits, Bool.false_eq_true, if_false,
        Except.ok.injEq]
      exact ⟨fun h => ⟨hfits, h.symm⟩, fun h => h.2.symm⟩

/-- Ranges that are not empty fit if all numbers that they hold are numbers of lines. -/
theorem forall_fits_iff {rs : List LineRange} {count : Nat} (h : ∀ r ∈ rs, r.first ≤ r.last) :
    (∀ r ∈ rs, r.fits count) ↔ ∀ n, InRanges rs n → 1 ≤ n ∧ n ≤ count := by
  simp only [LineRange.fits_iff]
  constructor
  · rintro hfits n ⟨r, hr, hlow, hhigh⟩
    have := hfits r hr
    omega
  · intro hlines r hr
    have horder := h r hr
    have hfirst := hlines r.first ⟨r, hr, le_rfl, horder⟩
    have hlast := hlines r.last ⟨r, hr, horder, le_rfl⟩
    omega

/-- Ranges are removed exactly if each of them is not empty and lies within the lines of the
content, and what is left are the lines that are in none of them, byte for byte. If no range is
empty, the numbers that they hold together decide all of this. -/
theorem removeLines_exact (content : Bytes) (rs : List LineRange) :
    (∀ ls, CutsInto content ls ↔ ls = lines content) ∧
      ((∃ kept, removeLines content rs = .ok kept) ↔
        rs = [] ∨ ∀ r ∈ rs, 1 ≤ r.first ∧ r.first ≤ r.last ∧ r.last ≤ (lines content).length) ∧
      (∀ kept, removeLines content rs = .ok kept → kept = linesOutside content rs) ∧
      ∀ rs', (∀ r ∈ rs ++ rs', r.first ≤ r.last) → (∀ n, InRanges rs n ↔ InRanges rs' n) →
        (removeLines content rs).toOption = (removeLines content rs').toOption := by
  have hok : ∀ rs, (∃ kept, removeLines content rs = .ok kept) ↔
      ∀ r ∈ rs, r.fits (lines content).length := by
    intro rs
    simp [removeLines_eq_ok]
  refine ⟨fun ls => cutsInto_iff, ?_, fun kept hkept => (removeLines_eq_ok.mp hkept).2,
    fun rs' horder hsame => ?_⟩
  · simp only [hok, ← LineRange.fits_iff]
    refine ⟨.inr, ?_⟩
    rintro (rfl | h)
    · simp
    · exact h
  · obtain ⟨horder, horder'⟩ := List.forall_mem_append.mp horder
    have hfits : (∀ r ∈ rs, r.fits (lines content).length) ↔
        ∀ r ∈ rs', r.fits (lines content).length := by
      rw [forall_fits_iff horder, forall_fits_iff horder']
      simp only [hsame]
    have hleft : linesOutside content rs = linesOutside content rs' :=
      congrArg List.flatten (keptLines_congr fun k _ _ => hsame k)
    have hsome : ∀ rs kept, (removeLines content rs).toOption = some kept ↔
        removeLines content rs = .ok kept := by
      intro rs kept
      cases removeLines content rs <;> simp [Except.toOption]
    refine Option.ext fun kept => ?_
    rw [hsome, hsome, removeLines_eq_ok, removeLines_eq_ok, hfits, hleft]

/-- Four lines, the last one without a line break. A range, and three ranges in another order that
overlap and touch, remove the second and the third of them. -/
theorem removeLines_exact_overlapping :
    let content : Bytes := [97, 10, 98, 10, 99, 10, 100]
    let once : List LineRange := [⟨2, 3⟩]
    let thrice : List LineRange := [⟨3, 3⟩, ⟨2, 2⟩, ⟨2, 3⟩]
    CutsInto content [[97, 10], [98, 10], [99, 10], [100]] ∧
      (∀ n, InRanges once n ↔ InRanges thrice n) ∧
      removeLines content once = .ok [97, 10, 100] ∧
      (removeLines content thrice).toOption = some [97, 10, 100] := by
  intro content once thrice
  have honce : removeLines content once = .ok [97, 10, 100] := by decide +kernel
  have hsame : ∀ n, InRanges once n ↔ InRanges thrice n := by
    intro n
    simp only [once, thrice, inRanges_cons, not_inRanges_nil, or_false]
    omega
  obtain ⟨hlines, -, -, hranges⟩ := removeLines_exact content once
  have hthrice := hranges thrice (by decide) hsame
  rw [honce] at hthrice
  exact ⟨(hlines _).mpr (by decide +kernel), hsame, honce, hthrice.symm⟩

end Deadwood
