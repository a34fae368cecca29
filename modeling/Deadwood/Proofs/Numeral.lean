import Deadwood.Decimal.Layout
import Deadwood.Numeral
import Mathlib.Algebra.Group.Nat.Defs

/-!
# Written numbers can be read again

## Main results

* `Numeral.natOfDigits?_toDigits`: the digits of a number.
* `Numeral.natOfDigits?_padded`: the same with zeros in front.
* `Numeral.decimalInt_digitText`: integers of 64 bits.
-/

namespace Deadwood.Numeral

theorem digitValue?_digitChar : ∀ d < 16, digitValue? (Nat.digitChar d) = some d := by
  decide

/-- One more digit. -/
theorem natOfDigits?_concat {base n d : Nat} {cs : List Char} (h : natOfDigits? base cs = some n)
    (hd : d < base) (hbase : base ≤ 16) :
    natOfDigits? base (cs ++ [Nat.digitChar d]) = some (n * base + d) := by
  have hvalue := digitValue?_digitChar d (by omega)
  unfold natOfDigits? at h ⊢
  rw [List.foldlM_append, h]
  simp [hvalue, hd]

theorem natOfDigits?_toDigits {base : Nat} (h₁ : 1 < base) (h₂ : base ≤ 16) (n : Nat) :
    natOfDigits? base (Nat.toDigits base n) = some n := by
  induction n using Nat.strongRecOn with
  | ind n ih =>
    rw [Nat.toDigits_eq_if h₁]
    split
    · rename_i h
      have hnil : natOfDigits? base [] = some 0 := rfl
      simpa using natOfDigits?_concat hnil h h₂
    · rename_i h
      have hdiv : n / base < n := Nat.div_lt_self (by omega) h₁
      rw [natOfDigits?_concat (ih (n / base) hdiv) (Nat.mod_lt n (by omega)) h₂]
      rw [Nat.div_add_mod']

theorem natOfDigits?_zeros {base : Nat} (h : 0 < base) (k : Nat) (cs : List Char) :
    natOfDigits? base (List.replicate k '0' ++ cs) = natOfDigits? base cs := by
  have hzero : digitValue? '0' = some 0 := rfl
  induction k with
  | zero => rfl
  | succ k ih =>
    rw [← ih]
    simp [natOfDigits?, List.replicate_succ, hzero, h]

@[simp] theorem natOfDigits?_padded (width n : Nat) :
    natOfDigits? 10 (Decimal.padded width n).toList = some n := by
  simp [Decimal.padded, Decimal.zeros, Decimal.digitText, natOfDigits?_zeros,
    natOfDigits?_toDigits]

theorem length_padded {width n : Nat} (hw : 0 < width) (h : n < 10 ^ width) :
    (Decimal.padded width n).toList.length = width := by
  have := (Nat.length_toDigits_le_iff (b := 10) (by omega) hw).mpr h
  simp [Decimal.padded, Decimal.zeros, Decimal.digitText]
  omega

theorem isDigit_of_mem_padded {width n : Nat} {c : Char}
    (h : c ∈ (Decimal.padded width n).toList) : c.isDigit := by
  simp only [Decimal.padded, Decimal.zeros, Decimal.digitText, String.toList_append,
    String.toList_ofList, List.mem_append, List.mem_replicate] at h
  rcases h with ⟨-, rfl⟩ | h
  · rfl
  · exact Nat.isDigit_of_mem_toDigits (by omega) (by omega) h

theorem decimalInt_digitText {n : Nat} (h : n < Word.bound) :
    decimalInt (Decimal.digitText n) = .ok (n : Int) := by
  have hdigits : unsigned (Nat.toDigits 10 n) = (false, Nat.toDigits 10 n) := by
    have hfirst : ∀ c ∈ Nat.toDigits 10 n, c.isDigit :=
      fun c hc => Nat.isDigit_of_mem_toDigits (by omega) (by omega) hc
    unfold unsigned
    split
    · rename_i heq
      have := hfirst '-' (by simp [heq])
      contradiction
    · rename_i heq
      have := hfirst '+' (by simp [heq])
      contradiction
    · rfl
  simp [decimalInt, Decimal.digitText, hdigits, natOfDigits?_toDigits, h, Nat.toDigits_ne_nil]

end Deadwood.Numeral
