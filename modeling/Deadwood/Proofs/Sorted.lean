import Deadwood.Sorted
import Deadwood.Sorted.Quick
import Mathlib.Data.List.Basic
import Mathlib.Data.List.Sort
import Mathlib.Data.Nat.Init

/-!
# Sorting keeps the items

Sorting permutes a list. This holds of quicksort because every step of it is an exchange of two
items, whatever the comparison says.

## Main results

* `sortedTexts_perm`: texts in ascending order.
* `mem_distinctTexts`, `pairwise_distinctTexts`, `distinctTexts_congr`: the same, each once.
* `mem_distinctNats`, `pairwise_distinctNats`, `distinctNats_congr`: the same for numbers.
* `find?_keepFirst`, `nodup_keys_keepFirst`, `mem_keys_keepFirst`: the first item of every key.
* `sortedBy_perm`: a list sorted by quicksort.
-/

namespace Deadwood

/-! ## Dropping repeated items -/

section DropRepeats

variable {α : Type} [DecidableEq α]

@[simp, grind =] theorem mem_dropRepeats {a : α} {l : List α} : a ∈ dropRepeats l ↔ a ∈ l := by
  fun_induction dropRepeats l <;> simp_all

/-- In a sorted list, items are equal only if they stand side by side. -/
theorem pairwise_dropRepeats {lt le : α → α → Prop} {l : List α}
    (hlt : ∀ a b, le a b → a ≠ b → lt a b) (htrans : ∀ a b c, lt a b → le b c → lt a c)
    (h : l.Pairwise le) : (dropRepeats l).Pairwise lt := by
  fun_induction dropRepeats l with
  | case1 => simp
  | case2 => simp
  | case3 b rest ih => exact ih h.tail
  | case4 a b rest hne ih =>
    have hab : lt a b := hlt a b ((List.pairwise_cons.mp h).1 b (by simp)) hne
    refine List.pairwise_cons.mpr ⟨fun c hc => ?_, ih h.tail⟩
    rcases List.mem_cons.mp (mem_dropRepeats.mp hc) with rfl | hc
    · exact hab
    · exact htrans a b c hab ((List.pairwise_cons.mp h.tail).1 c hc)

end DropRepeats

/-! ## Texts -/

@[simp, grind =] theorem mem_sortedTexts {s : String} {ss : List String} :
    s ∈ sortedTexts ss ↔ s ∈ ss := by
  simp [sortedTexts]

theorem pairwise_sortedTexts (ss : List String) : (sortedTexts ss).Pairwise (· ≤ ·) := by
  have := @List.pairwise_mergeSort String (fun a b => decide (a ≤ b))
    (fun a b c h₁ h₂ => by simpa using String.le_trans (by simpa using h₁) (by simpa using h₂))
    (fun a b => by simpa using String.le_total a b) ss
  simpa [sortedTexts] using this

theorem sortedTexts_eq_of_perm {ss ss' : List String} (h : ss.Perm ss')
    (hsorted : ss'.Pairwise (· ≤ ·)) : sortedTexts ss = ss' :=
  ((List.mergeSort_perm ..).trans h).eq_of_pairwise (fun _ _ _ _ => Std.le_antisymm)
    (pairwise_sortedTexts ss) hsorted

/-- The order of the texts does not matter. -/
theorem sortedTexts_perm {ss ss' : List String} (h : ss.Perm ss') :
    sortedTexts ss = sortedTexts ss' :=
  sortedTexts_eq_of_perm (h.trans (List.mergeSort_perm ..).symm) (pairwise_sortedTexts ss')

@[simp, grind =] theorem mem_distinctTexts {s : String} {ss : List String} :
    s ∈ distinctTexts ss ↔ s ∈ ss := by
  simp [distinctTexts]

theorem pairwise_distinctTexts (ss : List String) : (distinctTexts ss).Pairwise (· < ·) :=
  pairwise_dropRepeats (fun _ _ => Std.lt_of_le_of_ne) (fun _ _ _ => Std.lt_of_lt_of_le)
    (pairwise_sortedTexts ss)

theorem nodup_distinctTexts (ss : List String) : (distinctTexts ss).Nodup :=
  (pairwise_distinctTexts ss).imp fun h => String.ne_of_lt h

/-- The order and the repetitions of the texts do not matter. -/
theorem distinctTexts_congr {ss ss' : List String} (h : ∀ s, s ∈ ss ↔ s ∈ ss') :
    distinctTexts ss = distinctTexts ss' :=
  List.Pairwise.eq_of_mem_iff (pairwise_distinctTexts ss) (pairwise_distinctTexts ss')
    (by simpa using h)

/-! ## Numbers -/

@[simp, grind =] theorem mem_distinctNats {n : Nat} {ns : List Nat} :
    n ∈ distinctNats ns ↔ n ∈ ns := by
  simp [distinctNats]

theorem pairwise_distinctNats (ns : List Nat) : (distinctNats ns).Pairwise (· < ·) := by
  have := @List.pairwise_mergeSort Nat (fun a b => decide (a ≤ b))
    (fun a b c h₁ h₂ => by simpa using Nat.le_trans (by simpa using h₁) (by simpa using h₂))
    (fun a b => by simpa using Nat.le_total a b) ns
  have hsorted : (ns.mergeSort (· ≤ ·)).Pairwise (· ≤ ·) := by simpa using this
  exact pairwise_dropRepeats (fun _ _ => Nat.lt_of_le_of_ne) (fun _ _ _ => Nat.lt_of_lt_of_le)
    hsorted

/-- The order and the repetitions of the numbers do not matter. -/
theorem distinctNats_congr {ns ns' : List Nat} (h : ∀ n, n ∈ ns ↔ n ∈ ns') :
    distinctNats ns = distinctNats ns' :=
  List.Pairwise.eq_of_mem_iff (pairwise_distinctNats ns) (pairwise_distinctNats ns')
    (by simpa using h)

/-! ## First items -/

section KeepFirst

variable {α : Type} (key : α → String) {k : String}

theorem find?_keepFirstFrom (seen : List String) (as : List α) (hk : k ∉ seen) :
    (keepFirstFrom key seen as).find? (key · = k) = as.find? (key · = k) := by
  induction as generalizing seen with
  | nil => rfl
  | cons a as ih =>
    unfold keepFirstFrom
    by_cases ha : key a = k
    · have hfresh : key a ∉ seen := ha ▸ hk
      rw [if_neg hfresh]
      simp [ha]
    · split_ifs
      · simp [ha, ih seen hk]
      · have hseen : k ∉ key a :: seen := by simp [hk, Ne.symm ha]
        simp [ha, ih (key a :: seen) hseen]

theorem keys_keepFirstFrom (seen : List String) (as : List α) :
    ((keepFirstFrom key seen as).map key).Nodup ∧
      ∀ k ∈ (keepFirstFrom key seen as).map key, k ∉ seen := by
  induction as generalizing seen with
  | nil => simp [keepFirstFrom]
  | cons a as ih =>
    unfold keepFirstFrom
    split_ifs with ha
    · exact ih seen
    · obtain ⟨hnodup, hnew⟩ := ih (key a :: seen)
      refine ⟨List.nodup_cons.mpr ⟨fun h => hnew _ h (by simp), hnodup⟩, ?_⟩
      refine List.forall_mem_cons.mpr ⟨ha, fun k hk h => hnew k hk (by simp [h])⟩

/-- The first item with a key is kept. -/
@[simp] theorem find?_keepFirst (as : List α) (k : String) :
    (keepFirst key as).find? (key · = k) = as.find? (key · = k) :=
  find?_keepFirstFrom key [] as (by simp)

theorem nodup_keys_keepFirst (as : List α) : ((keepFirst key as).map key).Nodup :=
  (keys_keepFirstFrom key [] as).1

/-- No key is lost. -/
@[simp, grind =] theorem mem_keys_keepFirst {as : List α} :
    k ∈ (keepFirst key as).map key ↔ k ∈ as.map key := by
  have hfind : ∀ bs : List α, k ∈ bs.map key ↔ (bs.find? (key · = k)).isSome := by
    simp [List.find?_isSome]
  rw [hfind, find?_keepFirst, ← hfind]

end KeepFirst

/-! ## Quicksort -/

namespace Quick

variable {α : Type} (before : α → α → Bool)

theorem swapIfInBounds_perm (xs : Array α) (i j : Nat) : (xs.swapIfInBounds i j).Perm xs := by
  unfold Array.swapIfInBounds
  split
  · split
    · exact Array.swap_perm _ _
    · exact .rfl
  · exact .rfl

/-- A loop that permutes in every round permutes. -/
theorem foldl_perm {β : Type} (f : Array α → β → Array α) (hf : ∀ xs b, (f xs b).Perm xs)
    (bs : List β) (xs : Array α) : (bs.foldl f xs).Perm xs := by
  induction bs generalizing xs with
  | nil => exact .rfl
  | cons b bs ih => exact (ih (f xs b)).trans (hf xs b)

theorem sink_perm (low j : Nat) (xs : Array α) : (sink before low j xs).Perm xs := by
  fun_induction sink before low j xs with
  | case1 => exact .rfl
  | case2 j xs _ ih => exact ih.trans (swapIfInBounds_perm ..)
  | case3 => exact .rfl

theorem insertion_perm (low high : Nat) (xs : Array α) : (insertion before low high xs).Perm xs :=
  foldl_perm _ (fun xs k => sink_perm before low (low + 1 + k) xs) _ _

theorem siftDown_perm (first size fuel root : Nat) (xs : Array α) :
    (siftDown before first size fuel root xs).Perm xs := by
  induction fuel generalizing root xs with
  | zero => exact .rfl
  | succ fuel ih =>
    unfold siftDown
    simp only
    split
    · exact .rfl
    · generalize (if 2 * root + 1 + 1 < size && isBefore before xs (first + (2 * root + 1))
          (first + (2 * root + 1) + 1) then 2 * root + 1 + 1 else 2 * root + 1) = child
      split
      · exact (ih _ _).trans (swapIfInBounds_perm ..)
      · exact .rfl

theorem heap_perm (low high : Nat) (xs : Array α) : (heap before low high xs).Perm xs := by
  unfold heap
  refine (foldl_perm _ (fun xs i => ?_) _ _).trans (foldl_perm _ (fun xs i => ?_) _ _)
  · exact (siftDown_perm ..).trans (swapIfInBounds_perm ..)
  · exact siftDown_perm ..

theorem reverseRange_perm (low high : Nat) (xs : Array α) : (reverseRange low high xs).Perm xs :=
  foldl_perm _ (fun xs _ => swapIfInBounds_perm xs _ _) _ _

theorem exchange_perm (small large : Array α → Nat → Bool) (fuel i j : Nat) (xs : Array α) :
    (exchange small large fuel i j xs).2.2.Perm xs := by
  induction fuel generalizing i j xs with
  | zero => exact .rfl
  | succ fuel ih =>
    unfold exchange
    simp only
    split
    · exact .rfl
    · exact (ih _ _ _).trans (swapIfInBounds_perm ..)

theorem divide_perm (low high pivot : Nat) (xs : Array α) :
    (divide before low high pivot xs).2.2.Perm xs := by
  unfold divide
  simp only
  split
  · exact (swapIfInBounds_perm ..).trans (swapIfInBounds_perm ..)
  · exact (swapIfInBounds_perm ..).trans ((exchange_perm ..).trans
      ((swapIfInBounds_perm ..).trans (swapIfInBounds_perm ..)))

theorem divideEqual_perm (low high pivot : Nat) (xs : Array α) :
    (divideEqual before low high pivot xs).2.Perm xs := by
  unfold divideEqual
  exact (exchange_perm ..).trans (swapIfInBounds_perm ..)

theorem rise_perm (high fuel j : Nat) (xs : Array α) : (rise before high fuel j xs).Perm xs := by
  induction fuel generalizing j xs with
  | zero => exact .rfl
  | succ fuel ih =>
    unfold rise
    split
    · exact (ih _ _).trans (swapIfInBounds_perm ..)
    · exact .rfl

theorem mend_perm (low high steps i : Nat) (xs : Array α) :
    (mend before low high steps i xs).2.Perm xs := by
  induction steps generalizing i xs with
  | zero => exact .rfl
  | succ steps ih =>
    unfold mend
    simp only
    split
    · exact .rfl
    · split
      · exact .rfl
      · refine (ih _ _).trans ?_
        split
        · refine (rise_perm ..).trans ?_
          split
          · exact (sink_perm ..).trans (swapIfInBounds_perm ..)
          · exact swapIfInBounds_perm ..
        · split
          · exact (sink_perm ..).trans (swapIfInBounds_perm ..)
          · exact swapIfInBounds_perm ..

theorem stirFrom_perm (low length modulus place count step : Nat) (w : UInt64) (xs : Array α) :
    (stirFrom low length modulus place count step w xs).Perm xs := by
  induction count generalizing step w xs with
  | zero => exact .rfl
  | succ count ih => exact (ih _ _ _).trans (swapIfInBounds_perm ..)

theorem stir_perm (low high : Nat) (xs : Array α) : (stir low high xs).Perm xs := by
  unfold stir
  simp only
  split
  · exact .rfl
  · exact stirFrom_perm ..

theorem arrangeRange_perm (fuel low high limit : Nat) (even tidy : Bool) (xs : Array α) :
    (arrangeRange before fuel low high limit even tidy xs).Perm xs := by
  induction fuel generalizing low high limit even tidy xs with
  | zero => exact .rfl
  | succ fuel ih =>
    unfold arrangeRange
    dsimp only
    by_cases hshort : high - low ≤ 12
    · rw [if_pos hshort]
      exact insertion_perm ..
    rw [if_neg hshort]
    by_cases hlimit : limit = 0
    · rw [if_pos hlimit]
      exact heap_perm ..
    rw [if_neg hlimit]
    -- from here on every branch works on a stirred, perhaps reversed and mended array
    have hstir : (if even then (xs, limit) else (stir low high xs, limit - 1)).1.Perm xs := by
      split
      · exact .rfl
      · exact stir_perm ..
    generalize (if even then (xs, limit) else (stir low high xs, limit - 1)) = stirred at hstir ⊢
    obtain ⟨ys, limit'⟩ := stirred
    dsimp only at hstir ⊢
    generalize pivot before low high ys = p
    obtain ⟨p, trend⟩ := p
    dsimp only
    have hturn : (if trend = .falling then
        (reverseRange low high ys, high - 1 - (p - low), Trend.rising) else (ys, p, trend)).1.Perm
          xs := by
      split
      · exact (reverseRange_perm ..).trans hstir
      · exact hstir
    generalize (if trend = .falling then
        (reverseRange low high ys, high - 1 - (p - low), Trend.rising) else (ys, p, trend)) =
          turned at hturn ⊢
    obtain ⟨zs, p, trend⟩ := turned
    dsimp only at hturn ⊢
    have hmend : (if (even && tidy && decide (trend = .rising)) = true then
        mend before low high 5 (low + 1) zs else (false, zs)).2.Perm xs := by
      split
      · exact (mend_perm ..).trans hturn
      · exact hturn
    generalize (if (even && tidy && decide (trend = .rising)) = true then
        mend before low high 5 (low + 1) zs else (false, zs)) = mended at hmend ⊢
    obtain ⟨sorted, ws⟩ := mended
    dsimp only at hmend ⊢
    split
    · exact hmend
    split
    · exact (ih ..).trans ((divideEqual_perm ..).trans hmend)
    · split
      · exact (ih ..).trans ((ih ..).trans ((divide_perm ..).trans hmend))
      · exact (ih ..).trans ((ih ..).trans ((divide_perm ..).trans hmend))

theorem arrange_perm (xs : Array α) : (arrange before xs).Perm xs :=
  arrangeRange_perm ..

end Quick

theorem sortedBy_perm {α : Type} (before : α → α → Bool) (as : List α) :
    (sortedBy before as).Perm as :=
  (List.mergeSort_perm ..).trans
    (Array.perm_iff_toList_perm.mp (Quick.arrange_perm before as.toArray))

@[simp, grind =] theorem mem_sortedBy {α : Type} {before : α → α → Bool} {as : List α} {a : α} :
    a ∈ sortedBy before as ↔ a ∈ as :=
  (sortedBy_perm before as).mem_iff

end Deadwood
