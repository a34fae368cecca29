import Deadwood.Scale
import Mathlib.Algebra.Group.Nat.Defs
import Mathlib.Data.Nat.Log
import Mathlib.Order.Compare

/-!
# Floating-point numbers

The scale of the running program. Floating-point numbers that are not `NaN` are in order: what is
smaller than something smaller is smaller. Sums and products are rounded, but rounding never lowers
the leading digit of a number. So a product with a large count is large, however it is rounded.

## Main definitions

* `Float.IsLarge`: a lower bound on the leading digit of a positive number.

## Main results

* `Float.lt_trans`, `Float.le_of_not_lt`, `Float.beq_self`, `Float.not_le_of_isNaN`: the order.
* `Float.isLarge_roundWithAccuracy`, `Float.isLarge_unpack_pack`: rounding and storing.
* `Float.not_add_mul_ofNat_lt`: a sum with many steps reaches the bound.
-/

namespace Deadwood.Float

open Float.Model Float.Model.UnpackedFloat

/-! ## Order -/

section Order

theorem size_lt_iff {m m' : Nat} {e e' : Int} :
    (compare e e').then (compare m m') = .lt ↔ e < e' ∨ e = e' ∧ m < m' := by
  rw [Ordering.then_eq_lt, compare_lt_iff_lt, compare_eq_iff_eq, compare_lt_iff_lt]

theorem swap_size {m m' : Nat} {e e' : Int} :
    ((compare e e').then (compare m m')).swap = (compare e' e).then (compare m' m) := by
  rw [Ordering.swap_then, ← Std.OrientedCmp.eq_swap, ← Std.OrientedCmp.eq_swap]

theorem compare_comm (x y : UnpackedFloat) : y.compare x = (x.compare y).map Ordering.swap := by
  -- only two finite numbers of one sign are compared by their size
  rcases x with (_ | _) | _ | _ | ⟨_ | _, m, e, _⟩ <;>
    rcases y with (_ | _) | _ | _ | ⟨_ | _, m', e', _⟩ <;> try rfl
  · exact congrArg some (congrArg Ordering.swap swap_size.symm)
  · exact congrArg some swap_size.symm

theorem compare_eq_none {x y : UnpackedFloat} : x.compare y = none ↔ x.isNaN ∨ y.isNaN := by
  rcases x with (_ | _) | _ | _ | ⟨_ | _, _, _, _⟩ <;>
    rcases y with (_ | _) | _ | _ | ⟨_ | _, _, _, _⟩ <;>
      first
      | exact iff_of_true rfl (.inl rfl)
      | exact iff_of_true rfl (.inr rfl)
      | exact iff_of_false (Option.some_ne_none _)
          (not_or.mpr ⟨Bool.false_ne_true, Bool.false_ne_true⟩)

theorem compare_trans {x y z : UnpackedFloat} (hxy : x.compare y = some .lt)
    (hyz : y.compare z = some .lt) : x.compare z = some .lt := by
  rcases x with (_ | _) | _ | _ | ⟨_ | _, m, e, _⟩ <;>
    rcases y with (_ | _) | _ | _ | ⟨_ | _, m', e', _⟩ <;> try cases hxy
  all_goals
    rcases z with (_ | _) | _ | _ | ⟨_ | _, m'', e'', _⟩ <;> first | rfl | cases hyz | skip
  · have hxy' := size_lt_iff.mp (swap_size.symm.trans (Option.some.inj hxy))
    have hyz' := size_lt_iff.mp (swap_size.symm.trans (Option.some.inj hyz))
    exact congrArg some (swap_size.trans (size_lt_iff.mpr (by omega)))
  · have hxy' := size_lt_iff.mp (Option.some.inj hxy)
    have hyz' := size_lt_iff.mp (Option.some.inj hyz)
    exact congrArg some (size_lt_iff.mpr (by omega))

variable {x y z : Float}

theorem lt_iff : x < y ↔ x.toModel.unpack.compare y.toModel.unpack = some .lt := by
  change Float.lt x y = true ↔ _
  rw [Float.lt, decide_eq_true_eq]
  change (x.toModel.unpack.compare y.toModel.unpack == some .lt) = true ↔ _
  rw [beq_iff_eq]

theorem le_iff : x ≤ y ↔ ∃ o, x.toModel.unpack.compare y.toModel.unpack = some o ∧ o.isLE := by
  change Float.le x y = true ↔ _
  rw [Float.le, decide_eq_true_eq]
  change (x.toModel.unpack.compare y.toModel.unpack).any (·.isLE) = true ↔ _
  rw [Option.any_eq_true]

theorem lt_trans (hxy : x < y) (hyz : y < z) : x < z :=
  lt_iff.mpr (compare_trans (lt_iff.mp hxy) (lt_iff.mp hyz))

/-- A number is equal to itself. -/
theorem beq_self (hx : x.isNaN = false) : (x == x) = true := by
  have hself : ∀ u : UnpackedFloat, u.isNaN = false → u.compare u = some .eq := by
    have hsize : ∀ (m : Nat) (e : Int), (compare e e).then (compare m m) = .eq := by simp
    rintro ((_ | _) | _ | _ | ⟨_ | _, m, e, _⟩) hu
    · rfl
    · rfl
    · exact absurd hu (by decide)
    · rfl
    · exact congrArg (fun o : Ordering => some o.swap) (hsize m e)
    · exact congrArg some (hsize m e)
  change Float.beq x x = true
  rw [Float.beq]
  change (x.toModel.unpack.compare x.toModel.unpack == some .eq) = true
  rw [hself _ hx, beq_iff_eq]

theorem not_le_of_isNaN (hx : x.isNaN) : ¬ x ≤ y := by
  rw [le_iff, compare_eq_none.mpr (.inl hx)]
  simp

/-- Of two numbers, one is smaller or both are equal. -/
theorem le_of_not_lt (hx : x.isNaN = false) (hy : y.isNaN = false) (h : ¬ y < x) : x ≤ y := by
  rw [lt_iff] at h
  rw [le_iff, compare_comm]
  cases hxy : y.toModel.unpack.compare x.toModel.unpack with
  | none =>
    rcases compare_eq_none.mp hxy with hnan | hnan
    · exact absurd (hy.symm.trans hnan) Bool.false_ne_true
    · exact absurd (hx.symm.trans hnan) Bool.false_ne_true
  | some o =>
    refine ⟨o.swap, rfl, ?_⟩
    cases o with
    | lt => exact absurd hxy h
    | eq => rfl
    | gt => rfl

end Order

/-! ## The leading digit -/

/-- A positive number with a full mantissa and no less than some exponent. -/
def IsLarge (k : Int) (x : UnpackedFloat) : Prop :=
  x = .infinity .positive ∨ ∃ m e h, x = .finite .positive m e h ∧ m.log2 = 52 ∧ k ≤ e

theorem log2_mono {m n : Nat} (h : m ≤ n) : m.log2 ≤ n.log2 := by
  rw [Nat.log2_eq_log_two, Nat.log2_eq_log_two]
  exact Nat.log_mono_right h

theorem log2_mul_two_pow {m : Nat} (hm : m ≠ 0) (s : Nat) : (m * 2 ^ s).log2 = m.log2 + s := by
  refine (Nat.log2_eq_iff (Nat.mul_ne_zero hm (Nat.two_pow_pos s).ne')).mpr ⟨?_, ?_⟩
  · rw [Nat.pow_add]
    exact Nat.mul_le_mul_right _ (Nat.log2_self_le hm)
  · rw [Nat.add_right_comm, Nat.pow_add]
    exact Nat.mul_lt_mul_of_pos_right Nat.lt_log2_self (Nat.two_pow_pos s)

theorem le_log2_mul {m n : Nat} (hm : m ≠ 0) (hn : n ≠ 0) : m.log2 + n.log2 ≤ (m * n).log2 := by
  rw [← log2_mul_two_pow hm]
  exact log2_mono (Nat.mul_le_mul_left m (Nat.log2_self_le hn))

theorem log2_append {v : BitVec 52} : (1#1 ++ v).toNat.log2 = 52 := by
  have hv := v.isLt
  have happend : (1#1 ++ v).toNat = 2 ^ 52 + v.toNat := by
    rw [BitVec.toNat_append, ← Nat.shiftLeft_add_eq_or_of_lt hv]
    rfl
  rw [happend, Nat.log2_eq_iff (by omega)]
  omega

/-! ## Rounding -/

section Rounding

variable {m : Nat} {e k : Int}

@[simp] theorem mantissa_shiftRight (em : ExtendedMantissa) (n : Nat) :
    (em >>> n).mantissa = em.mantissa / 2 ^ n := by
  change (n.repeat ExtendedMantissa.shiftRightOne em).mantissa = _
  induction n with
  | zero => exact (Nat.div_one _).symm
  | succ n ih =>
    rw [Nat.repeat, ExtendedMantissa.shiftRightOne, ih, Nat.div_div_eq_div_mul, Nat.pow_succ]

theorem le_roundedMantissa (em : ExtendedMantissa) : em.mantissa ≤ em.roundedMantissa := by
  rcases em with ⟨m, _ | _, _ | _⟩ <;>
    simp [ExtendedMantissa.roundedMantissa, ExtendedMantissa.accuracy, Accuracy.roundToNearestEven]

theorem targetExponent_eq (hmin : -1074 ≤ m.log2 + e - 52) :
    Format.binary64.targetExponent (totalExponent m e) = m.log2 + e - 52 := by
  have hbits : (Format.binary64.mantissaBits : Int) = 53 := rfl
  have hleast : Format.binary64.minExponent = -1074 := rfl
  rw [Format.targetExponent, totalExponent, hbits, hleast]
  omega

/-- Shifting fills the mantissa and keeps the leading digit. -/
theorem shiftToTargetExponent_spec (hm : 52 ≤ m.log2) (hmin : -1074 ≤ m.log2 + e - 52) :
    (shiftToTargetExponent .binary64 m e .exact).1.mantissa.log2 = 52 ∧
      (shiftToTargetExponent .binary64 m e .exact).2 = m.log2 + e - 52 := by
  obtain ⟨s, hs⟩ := Nat.exists_eq_add_of_le hm
  have hshift : (m.log2 + e - 52 - e).toNat = s := by omega
  rw [shiftToTargetExponent, targetExponent_eq hmin, shiftToExponent, hshift]
  refine ⟨?_, by simp only; omega⟩
  rw [mantissa_shiftRight, Nat.log2_eq_log_two]
  change Nat.log 2 (m / 2 ^ s) = 52
  rw [Nat.log_div_base_pow, ← Nat.log2_eq_log_two, hs]
  omega

/-- Rounding never lowers the leading digit. -/
theorem isLarge_roundWithAccuracy (hm : 52 ≤ m.log2) (hk : k ≤ m.log2 + e - 52)
    (hmin : -1074 ≤ k) : IsLarge k (roundWithAccuracy .binary64 .positive m e .exact) := by
  obtain ⟨hfirst, hexp⟩ := shiftToTargetExponent_spec hm (hmin.trans hk)
  unfold roundWithAccuracy
  generalize shiftToTargetExponent .binary64 m e .exact = first at hfirst hexp
  obtain ⟨em, e₁⟩ := first
  dsimp only at hfirst hexp ⊢
  have hrounded := log2_mono (le_roundedMantissa em)
  -- the mantissa may have one digit more now, so it is shifted again
  obtain ⟨hlast, hexp'⟩ :=
    shiftToTargetExponent_spec (m := em.roundedMantissa) (e := e₁) (by omega) (by omega)
  generalize shiftToTargetExponent .binary64 em.roundedMantissa e₁ .exact = last at hlast hexp'
  obtain ⟨em', e₂⟩ := last
  dsimp only at hlast hexp' ⊢
  have hne : em'.mantissa ≠ 0 := by
    intro h
    rw [h] at hlast
    exact absurd hlast (by decide)
  rw [dif_neg hne]
  exact .inr ⟨_, _, _, rfl, hlast, by omega⟩

theorem isLarge_normalize {z : Sign} (hm : m ≠ 0) (hk : k ≤ m.log2 + e - 52) (hmin : -1074 ≤ k) :
    IsLarge k (normalize .binary64 m e z) := by
  have hround : normalize .binary64 m e z = UnpackedFloat.round .binary64 .positive m e := by
    obtain ⟨n, rfl⟩ := Nat.exists_eq_succ_of_ne_zero hm
    rfl
  rw [hround, UnpackedFloat.round, targetExponent_eq (hmin.trans hk), decreaseExponent]
  generalize hs : (e - (m.log2 + e - 52)).toNat = s
  have hlog : (m <<< s).log2 = m.log2 + s := by rw [Nat.shiftLeft_eq, log2_mul_two_pow hm]
  exact isLarge_roundWithAccuracy (by omega) (by omega) hmin

@[simp] theorem unpackSign_packComponents {spec : Format} {sign exponent mantissa} :
    unpackSign (packComponents spec sign exponent mantissa) = sign.toBitVec := by
  change (((sign.toBitVec ++ exponent ++ mantissa).extractLsb _ _).cast _ : BitVec 1) = _
  ext i hi
  obtain rfl : i = 0 := by omega
  simp [BitVec.getLsbD_append, BitVec.getElem_append]

theorem unpack_eq_finite {x : BitVec Format.binary64.numBits} (hsign : unpackSign x = 0#1)
    (hones : unpackExponent x ≠ -1#_) (hzero : unpackExponent x ≠ 0#_) :
    ∃ h, UnpackedFloat.unpack .binary64 x =
      .finite .positive (1#1 ++ unpackMantissa x).toNat ((unpackExponent x).toNat - 1075) h :=
  ⟨_, (if_neg hones).trans ((if_neg hzero).trans
    (congrArg (fun s => UnpackedFloat.finite (.ofBitVec s) _ _ _) hsign))⟩

/-- A number that is too large to be stored is stored as infinity. -/
theorem isLarge_unpack_pack {x : UnpackedFloat} (h : IsLarge k x) (hmin : -1074 ≤ k) :
    IsLarge k (Float.Model.pack x).unpack := by
  change IsLarge k (UnpackedFloat.unpack .binary64 (UnpackedFloat.pack .binary64 x))
  obtain rfl | ⟨m, e, hm, rfl, hlog, he⟩ := h
  · exact .inl rfl
  change IsLarge k (UnpackedFloat.unpack .binary64
    (if 2 ^ 11 ≤ (e + 1023 + 52).toNat + 1 then packedInfinity .binary64 .positive
      else if m.log2 + 1 = 53 then
        packComponents .binary64 .positive (.ofNat 11 (e + 1023 + 52).toNat) (.ofNat 52 m)
      else packComponents .binary64 .positive 0#11 (.ofNat 52 m)))
  rw [hlog, if_pos (rfl : 52 + 1 = 53)]
  generalize hb : (e + 1023 + 52).toNat = b
  split_ifs with hover
  · exact .inl rfl
  have hexp : (BitVec.ofNat 11 b).toNat = b := Nat.mod_eq_of_lt (by omega)
  have hother : ∀ v : BitVec 11, v.toNat ≠ b →
      unpackExponent (packComponents .binary64 .positive (.ofNat 11 b) (.ofNat 52 m)) ≠ v := by
    rintro _ hne rfl
    exact hne (unpackExponent_packComponents.symm ▸ hexp)
  obtain ⟨h, hunpack⟩ := unpack_eq_finite unpackSign_packComponents
    (hother _ (by simp; omega)) (hother _ (by simp; omega))
  refine .inr ⟨_, _, h, hunpack, log2_append, ?_⟩
  rw [unpackExponent_packComponents]
  change k ≤ ((BitVec.ofNat 11 b).toNat : Int) - 1075
  omega

end Rounding

/-! ## Arithmetic -/

theorem isLarge_mul {x y : UnpackedFloat} {j k l : Int} (hx : IsLarge k x) (hy : IsLarge l y)
    (hj : j ≤ k + l + 52) (hmin : -1074 ≤ j) : IsLarge j (UnpackedFloat.mul .binary64 x y) := by
  obtain rfl | ⟨m, e, hm, rfl, hlog, he⟩ := hx
  · obtain rfl | ⟨m', e', hm', rfl, -⟩ := hy <;> exact .inl rfl
  obtain rfl | ⟨m', e', hm', rfl, hlog', he'⟩ := hy
  · exact .inl rfl
  have hlogs := le_log2_mul hm.ne' hm'.ne'
  exact isLarge_roundWithAccuracy (by omega) (by omega) hmin

/-- The sum of two numbers of one exponent has a larger one. -/
theorem isLarge_add {m : Nat} {k : Int} {h : 0 < m} {y : UnpackedFloat} (hm : m.log2 = 52)
    (hy : IsLarge k y) (hmin : -1074 ≤ k + 1) :
    IsLarge (k + 1) (UnpackedFloat.add .binary64 (.finite .positive m k h) y) := by
  obtain rfl | ⟨m', e, hm', rfl, hlog, he⟩ := hy
  · exact .inl rfl
  have hmin' : min k e = k := by omega
  change IsLarge (k + 1) (normalize .binary64 ((m <<< (k - min k e).toNat : Nat) +
    (m' <<< (e - min k e).toNat : Nat)) (min k e) .positive)
  rw [hmin', ← Int.natCast_add, Int.sub_self, Nat.shiftLeft_eq, Nat.shiftLeft_eq]
  have hfirst := Nat.log2_self_le h.ne'
  have hsecond := Nat.log2_self_le hm'.ne'
  have hshifted := Nat.le_mul_of_pos_right m' (Nat.two_pow_pos (e - k).toNat)
  rw [hm] at hfirst
  rw [hlog] at hsecond
  have hsum : m * 2 ^ Int.toNat 0 + m' * 2 ^ (e - k).toNat ≠ 0 := by omega
  have hlogs := (Nat.le_log2 (k := 53) hsum).mpr (by simp only [Int.toNat_zero]; omega)
  exact isLarge_normalize hsum (by omega) hmin

theorem isLarge_ofNat {n : Nat} (hn : n ≠ 0) :
    IsLarge (n.log2 - 52) (Float.ofNat n).toModel.unpack := by
  change IsLarge _ (Float.ofScientific n false 0).toModel.unpack
  unfold Float.ofScientific
  by_cases hsmall : n < 2 ^ 53
  · rw [dif_pos ⟨hsmall, by decide⟩]
    have hword : n.toUInt64.toNat = n := Nat.mod_eq_of_lt (by omega)
    have hfloat : IsLarge (n.log2 - 52) n.toUInt64.toFloat.toModel.unpack := by
      refine isLarge_unpack_pack ?_ (by omega)
      change IsLarge _ (normalize .binary64 (n.toUInt64.toNat : Nat) 0 .positive)
      rw [hword]
      exact isLarge_normalize hn (by omega) (by omega)
    have hone : IsLarge (-52) (1.0 : Float).toModel.unpack :=
      .inr ⟨_, _, _, rfl, by decide, by decide⟩
    exact isLarge_unpack_pack (isLarge_mul hfloat hone (by omega) (by omega)) (by omega)
  · rw [dif_neg fun h => hsmall h.1]
    refine isLarge_unpack_pack ?_ (by omega)
    change IsLarge _ (UnpackedFloat.ofScientific .binary64 n 0)
    have hwide : (2 ^ Format.binary64.exponentBits : Int) = 2048 := rfl
    have hlog : (n <<< 53 * 1).log2 = n.log2 + 53 := by
      rw [Nat.mul_one, Nat.shiftLeft_eq, log2_mul_two_pow hn]
    have hround : IsLarge (n.log2 - 52)
        (roundWithAccuracy .binary64 .positive (n <<< 53 * 1) (-53 + 0) .exact) :=
      isLarge_roundWithAccuracy (by omega) (by omega) (by omega)
    rw [UnpackedFloat.ofScientific, dif_neg hn, if_neg (by decide), if_neg (by omega),
      if_pos (by decide)]
    exact hround

/-- From one half on, sixteen steps and more lead beyond one. -/
theorem not_add_mul_ofNat_lt {base : Float} {n : Nat}
    (hbase : ∃ m h, base.toModel.unpack = .finite .positive m (-53) h ∧ m.log2 = 52)
    (hn : 16 ≤ n) : ¬ base + 0.05 * Float.ofNat n < (0.98 : Float) := by
  obtain ⟨m₀, h₀, hb, hlog₀⟩ := hbase
  have hlog : 4 ≤ n.log2 := log2_mono hn
  have hstep : IsLarge (-57) (0.05 : Float).toModel.unpack :=
    .inr ⟨_, _, _, rfl, by decide, by decide⟩
  have hproduct : IsLarge (-53) (0.05 * Float.ofNat n).toModel.unpack :=
    isLarge_unpack_pack (isLarge_mul hstep (isLarge_ofNat (by omega)) (by omega) (by omega))
      (by omega)
  have hsum : IsLarge (-52) (base + 0.05 * Float.ofNat n).toModel.unpack := by
    refine isLarge_unpack_pack ?_ (by omega)
    rw [hb]
    exact isLarge_add hlog₀ hproduct (by omega)
  obtain ⟨m', h', hbound⟩ : ∃ m h, (0.98 : Float).toModel.unpack = .finite .positive m (-53) h :=
    ⟨_, _, rfl⟩
  rw [lt_iff, hbound]
  generalize (base + 0.05 * Float.ofNat n).toModel.unpack = sum at hsum
  obtain rfl | ⟨m, e, hm, rfl, -, he⟩ := hsum
  · exact nofun
  · intro hlt
    have := size_lt_iff.mp (Option.some.inj hlt)
    omega

end Deadwood.Float
