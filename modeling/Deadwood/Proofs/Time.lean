import Deadwood.Proofs.Numeral
import Deadwood.Time

/-!
# Written times can be read again

Days are numbered without gaps, so a date is found from its number, and a timestamp from the date
and the time of day that it is written as.

## Main definitions

* `Date.IsValid`: days that the calendar has.

## Main results

* `Date.dayNumber_ofDayNumber`, `Date.isValid_ofDayNumber`: the date of a number.
* `Timestamp.parse?_text`: the written form on a clock without offset.
-/

namespace Deadwood

/-! ## Calendar -/

namespace Date

/-- A day of an era by its century, its four years there and its day among those: the last century
and the last four years of the era are longer by a day. -/
theorem exists_centuries {n : Int} (h₀ : 0 ≤ n) (h₁ : n < 146097) :
    ∃ c q s : Int, n = 36524 * c + 1461 * q + s ∧ (0 ≤ c ∧ c ≤ 3) ∧ (0 ≤ q ∧ q ≤ 24) ∧
      (0 ≤ s ∧ s ≤ 1460) ∧ (1461 * q + s < 36524 ∨ (c = 3 ∧ q = 24 ∧ s = 1460)) := by
  by_cases hn : n = 146096
  · exact ⟨3, 24, 1460, by omega, by omega, by omega, by omega, by omega⟩
  · exact ⟨n / 36524, n % 36524 / 1461, n % 36524 % 1461, by omega, by omega, by omega, by omega,
      by omega⟩

theorem yearInEra_eq {n c q s : Int} (hn : n = 36524 * c + 1461 * q + s) (hc : 0 ≤ c ∧ c ≤ 3)
    (hq : 0 ≤ q ∧ q ≤ 24) (hs : 0 ≤ s ∧ s ≤ 1460)
    (hlast : 1461 * q + s < 36524 ∨ (c = 3 ∧ q = 24 ∧ s = 1460)) :
    (n - n / 1460 + n / 36524 - n / 146096) / 365 =
      100 * c + 4 * q + (if s = 1460 then 3 else s / 365) := by
  have hcentury : n / 36524 - n / 146096 = c := by
    obtain hlast | ⟨rfl, rfl, rfl⟩ := hlast
    · have h₁ : n / 36524 = c := by omega
      have h₂ : n / 146096 = 0 := by omega
      omega
    · subst hn
      rfl
  clear hlast
  have hquarter : n / 1460 = 25 * c + q + (24 * c + q + s) / 1460 := by omega
  have hsum : n - n / 1460 + n / 36524 - n / 146096 =
      (s - (24 * c + q + s) / 1460) + 365 * (100 * c + 4 * q) := by omega
  rw [hsum, Int.add_mul_ediv_left _ _ (by decide)]
  split <;> omega

/-- The date in the year that begins in March of the year `y`, by the day of that year. -/
def ofYearDay (y day : Int) : Date :=
  let m := (5 * day + 2) / 153
  let month := if m < 10 then m + 3 else m - 9
  ⟨y + (if month ≤ 2 then 1 else 0), month.toNat, (day - (153 * m + 2) / 5 + 1).toNat⟩

theorem ofDayNumber_eq (n : Int) :
    ∃ y day : Int, ofDayNumber n = ofYearDay y day ∧ (0 ≤ day ∧ day ≤ 365) ∧
      n = 365 * y + y / 4 - y / 100 + y / 400 + day ∧ (day = 365 → isLeap (y + 1)) := by
  have h₀ : 0 ≤ n % 146097 := by omega
  have h₁ : n % 146097 < 146097 := by omega
  obtain ⟨c, q, s, hn, hc, hq, hs, hlast⟩ := exists_centuries h₀ h₁
  obtain ⟨u, hu⟩ : ∃ u : Int, u = if s = 1460 then 3 else s / 365 := ⟨_, rfl⟩
  have hday : (0 ≤ u ∧ u ≤ 3) ∧ (0 ≤ s - 365 * u ∧ s - 365 * u ≤ 365) ∧
      (s - 365 * u = 365 → s = 1460 ∧ u = 3) := by
    clear hlast hn
    split at hu <;> omega
  obtain ⟨hu₃, hday, hleap⟩ := hday
  refine ⟨100 * c + 4 * q + u + n / 146097 * 400, s - 365 * u, ?_, hday, ?_, ?_⟩
  · have hfour : (100 * c + 4 * q + u) / 4 = 25 * c + q := by omega
    have hhundred : (100 * c + 4 * q + u) / 100 = c := by omega
    have hinYear : n % 146097 - (365 * (100 * c + 4 * q + u) + (25 * c + q) - c) = s - 365 * u := by
      omega
    have hyear := yearInEra_eq hn hc hq hs hlast
    rw [← hu] at hyear
    simp only [ofDayNumber, ofYearDay, hyear, hfour, hhundred, hinYear]
  · have h4 : (100 * c + 4 * q + u + n / 146097 * 400) / 4 = 25 * c + q + n / 146097 * 100 := by
      omega
    have h100 : (100 * c + 4 * q + u + n / 146097 * 400) / 100 = c + n / 146097 * 4 := by omega
    have h400 : (100 * c + 4 * q + u + n / 146097 * 400) / 400 = n / 146097 := by omega
    rw [h4, h100, h400]
    omega
  · intro h
    obtain ⟨rfl, rfl⟩ := hleap h
    simp only [isLeap, Bool.and_eq_true, Bool.or_eq_true, decide_eq_true_eq, ne_eq]
    refine ⟨by omega, ?_⟩
    obtain hlast | ⟨rfl, rfl, -⟩ := hlast
    · left
      omega
    · right
      omega

theorem dayNumber_ofYearDay {y day : Int} (h : 0 ≤ day ∧ day ≤ 365) :
    (ofYearDay y day).dayNumber = 365 * y + y / 4 - y / 100 + y / 400 + day := by
  obtain ⟨m, hm⟩ : ∃ m, m = (5 * day + 2) / 153 := ⟨_, rfl⟩
  have hm₁₁ : 0 ≤ m ∧ m ≤ 11 := by omega
  have hfirst : 0 ≤ day - (153 * m + 2) / 5 := by omega
  simp only [ofYearDay, dayNumber, ← hm]
  by_cases hten : m < 10
  · have h₁ : ¬ (m + 3 ≤ 2) := by omega
    have h₂ : ¬ (m + 3).toNat ≤ 2 := by omega
    have h₃ : (((m + 3).toNat : Int) + 9) % 12 = m := by omega
    simp only [hten, h₁, h₂, h₃, if_true, if_false]
    omega
  · have h₁ : m - 9 ≤ 2 := by omega
    have h₂ : (m - 9).toNat ≤ 2 := by omega
    have h₃ : (((m - 9).toNat : Int) + 9) % 12 = m := by omega
    simp only [hten, h₁, h₂, h₃, if_true, if_false, Int.add_sub_cancel]
    omega

/-- Dates and their numbers agree. -/
@[simp] theorem dayNumber_ofDayNumber (n : Int) : (ofDayNumber n).dayNumber = n := by
  obtain ⟨y, day, hdate, hday, hn, -⟩ := ofDayNumber_eq n
  rw [hdate, dayNumber_ofYearDay hday, hn]

/-- A day that the calendar has. -/
def IsValid (d : Date) : Prop :=
  (1 ≤ d.month ∧ d.month ≤ 12) ∧ 1 ≤ d.day ∧ d.day ≤ daysInMonth d.year d.month

theorem isValid_ofYearDay {y day : Int} (h : 0 ≤ day ∧ day ≤ 365)
    (hleap : day = 365 → isLeap (y + 1)) : (ofYearDay y day).IsValid := by
  obtain ⟨m, hm⟩ : ∃ m, m = (5 * day + 2) / 153 := ⟨_, rfl⟩
  simp only [ofYearDay, IsValid, ← hm]
  -- only the length of February depends on the year
  by_cases hfeb : m = 11
  · subst hfeb
    refine ⟨by decide, by omega, ?_⟩
    by_cases hlast : day = 365
    · simp [daysInMonth, hleap hlast]
      omega
    · simp [daysInMonth]
      split <;> omega
  · have hcases : m = 0 ∨ m = 1 ∨ m = 2 ∨ m = 3 ∨ m = 4 ∨ m = 5 ∨ m = 6 ∨ m = 7 ∨ m = 8 ∨
        m = 9 ∨ m = 10 := by omega
    rcases hcases with rfl | rfl | rfl | rfl | rfl | rfl | rfl | rfl | rfl | rfl | rfl <;>
      simp [daysInMonth] <;> omega

theorem isValid_ofDayNumber (n : Int) : (ofDayNumber n).IsValid := by
  obtain ⟨y, day, hdate, hday, -, hleap⟩ := ofDayNumber_eq n
  rw [hdate]
  exact isValid_ofYearDay hday hleap

theorem IsValid.day_le {d : Date} (h : d.IsValid) : d.day ≤ 31 := by
  have := h.2.2
  unfold daysInMonth at this
  split at this <;> split at this <;> omega

end Date

/-! ## Written form -/

namespace Timestamp

theorem digits?_padded {width n : Nat} (hw : 0 < width) (h : n < 10 ^ width) (rest : List Char) :
    digits? width ((Decimal.padded width n).toList ++ rest) = some (n, rest) := by
  have hlen := Numeral.length_padded hw h
  have htake : ((Decimal.padded width n).toList ++ rest).take width =
      (Decimal.padded width n).toList := List.take_left' hlen
  have hdrop : ((Decimal.padded width n).toList ++ rest).drop width = rest :=
    List.drop_left' hlen
  have hall : (Decimal.padded width n).toList.all Char.isDigit :=
    List.all_eq_true.mpr fun _ hc => Numeral.isDigit_of_mem_padded hc
  simp only [digits?, htake, hdrop, hlen, hall, Numeral.natOfDigits?_padded, decide_true,
    Bool.and_self, if_true, Option.map_some]

theorem oneOrTwo?_padded {n : Nat} (h : n < 100) (rest : List Char) :
    oneOrTwo? ((Decimal.padded 2 n).toList ++ rest) = some (n, rest) := by
  rw [oneOrTwo?, digits?_padded (by decide) h, Option.some_or]

/-- Digits without their trailing zeros. -/
theorem dropZeros_append (ds : List Char) :
    ∃ k, (ds.reverse.dropWhile (· = '0')).reverse ++ List.replicate k '0' = ds := by
  have hzeros : ds.reverse.takeWhile (· = '0') =
      List.replicate (ds.reverse.takeWhile (· = '0')).length '0' := by
    apply List.eq_replicate_of_mem
    intro c hc
    simpa using List.all_eq_true.mp List.all_takeWhile c hc
  refine ⟨(ds.reverse.takeWhile (· = '0')).length, ?_⟩
  rw [← List.reverse_replicate, ← hzeros, ← List.reverse_append, List.takeWhile_append_dropWhile,
    List.reverse_reverse]

theorem fraction?_fractionText {n : Nat} (h : n < 1000000000) :
    fraction? ((fractionText n).toList ++ ['Z']) = some (n, ['Z']) := by
  unfold fractionText
  split
  · rename_i hzero
    simp [fraction?, hzero]
  · rename_i hn
    obtain ⟨k, hk⟩ := dropZeros_append (Decimal.padded 9 n).toList
    generalize hds : ((Decimal.padded 9 n).toList.reverse.dropWhile (· = '0')).reverse = ds at hk
    have hdigit : ∀ c ∈ ds, c.isDigit := fun c hc =>
      Numeral.isDigit_of_mem_padded (hk ▸ List.mem_append_left _ hc)
    have hlen : (Decimal.padded 9 n).toList.length = 9 := Numeral.length_padded (by decide) h
    simp only [← hk, List.length_append, List.length_replicate] at hlen
    have hne : ds ≠ [] := by
      rintro rfl
      have := Numeral.natOfDigits?_padded 9 n
      rw [← hk, List.nil_append, ← List.append_nil (List.replicate k '0'),
        Numeral.natOfDigits?_zeros (by decide)] at this
      exact hn (Option.some.inj this).symm
    have htake : (ds ++ List.replicate 9 '0').take 9 = (Decimal.padded 9 n).toList := by
      have hmin : min (9 - ds.length) 9 = k := by omega
      rw [List.take_append, List.take_of_length_le (by omega), List.take_replicate, hmin, hk]
    have hz : ¬ 'Z'.isDigit := by decide
    have htw : (ds ++ ['Z']).takeWhile Char.isDigit = ds := by
      rw [List.takeWhile_append_of_pos hdigit]
      simp [hz]
    have hdw : (ds ++ ['Z']).dropWhile Char.isDigit = ['Z'] := by
      rw [List.dropWhile_append_of_pos hdigit]
      simp [hz]
    have hvalue := Numeral.natOfDigits?_padded 9 n
    rw [← htake] at hvalue
    simpa [fraction?, hds, htw, hdw, hne] using hvalue

variable {t : Timestamp}

@[simp] theorem dayNumber_date (t : Timestamp) :
    t.date.dayNumber = t.localSeconds / 86400 + Date.epoch :=
  Date.dayNumber_ofDayNumber _

theorem ofParts_date (h : t.offset = 0) :
    ofParts t.date t.secondOfDay t.fraction 0 = t := by
  obtain ⟨nanos, offset⟩ := t
  subst h
  have hnumber := dayNumber_date ⟨nanos, 0⟩
  simp only [ofParts, hnumber, secondOfDay, fraction, localSeconds, second]
  simp only [mk.injEq, and_true]
  omega

/-- A timestamp is read back from its written form. -/
theorem parse?_text (h : t.offset = 0) (hw : t.isWritable) : parse? t.text = some t := by
  have hvalid : t.date.IsValid := Date.isValid_ofDayNumber _
  have hday := hvalid.day_le
  obtain ⟨hmonth, hday₁, hdays⟩ := hvalid
  obtain ⟨hy₀, hy₁⟩ : 0 ≤ t.date.year ∧ t.date.year ≤ 9999 := by simpa [isWritable] using hw
  have hyear : (t.date.year.toNat : Int) = t.date.year := Int.toNat_of_nonneg hy₀
  have hsecond : t.secondOfDay < 86400 := by
    unfold secondOfDay
    omega
  have hfraction : t.fraction < 1000000000 := by
    unfold fraction second
    omega
  have htext : t.text.toList = (Decimal.padded 4 t.date.year.toNat).toList ++ '-' ::
      ((Decimal.padded 2 t.date.month).toList ++ '-' :: ((Decimal.padded 2 t.date.day).toList ++
      'T' :: ((Decimal.padded 2 (t.secondOfDay / 3600)).toList ++ ':' ::
      ((Decimal.padded 2 (t.secondOfDay / 60 % 60)).toList ++ ':' ::
      ((Decimal.padded 2 (t.secondOfDay % 60)).toList ++
      ((fractionText t.fraction).toList ++ ['Z'])))))) := by
    simp [text, dateText, clockText, offsetText, h]
  have hparts : 3600 * (t.secondOfDay / 3600) + 60 * (t.secondOfDay / 60 % 60) +
      t.secondOfDay % 60 = t.secondOfDay := by omega
  have hdate : ¬ (t.date.month < 1 || 12 < t.date.month || t.date.day < 1 ||
      Date.daysInMonth t.date.year t.date.month < t.date.day) := by simp; omega
  have hclock : ¬ (24 ≤ t.secondOfDay / 3600 || 60 ≤ t.secondOfDay / 60 % 60 ||
      60 ≤ t.secondOfDay % 60) := by simp; omega
  have hoffset : offset? ['Z'] = some 0 := rfl
  have hafter : ∀ c cs, after? c (c :: cs) = some cs := fun c cs => if_pos rfl
  have four : ∀ rest, digits? 4 ((Decimal.padded 4 t.date.year.toNat).toList ++ rest) =
      some (t.date.year.toNat, rest) := digits?_padded (by decide) (by omega)
  have two : ∀ n < 100, ∀ rest, digits? 2 ((Decimal.padded 2 n).toList ++ rest) = some (n, rest) :=
    fun n hn => digits?_padded (by decide) hn
  simp only [parse?, htext, four, hafter, two t.date.month (by omega), two t.date.day (by omega),
    oneOrTwo?_padded (show t.secondOfDay / 3600 < 100 by omega),
    two (t.secondOfDay / 60 % 60) (by omega), two (t.secondOfDay % 60) (by omega),
    fraction?_fractionText hfraction, hoffset, Option.bind_eq_bind, Option.bind_some, hyear, hdate,
    hclock, hparts, if_false, ofParts_date h, Bool.false_eq_true]

end Timestamp

end Deadwood
