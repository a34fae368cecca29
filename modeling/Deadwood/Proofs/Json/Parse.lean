import Deadwood.Json.Printer
import Deadwood.Json.Reader
import Deadwood.Proofs.Numeral
import Mathlib.Data.List.Basic

/-!
# Written JSON can be read again

A value whose numbers are naturals is read back from its text over several lines. Reading stops
where the value ends, if what follows cannot be taken for more digits.

## Main definitions

* `Json.Plain`: values whose numbers are naturals.
* `Json.Ends`: what may follow a number.

## Main results

* `Json.textBody?_escaped`: texts.
* `Json.value?_prettyAt`: values followed by anything.
* `Json.parse?_pretty`: whole documents.
-/

namespace Deadwood.Json

/-! ## Texts -/

theorem length_hexDigits {width n : Nat} (hw : 0 < width) (h : n < 16 ^ width) :
    (Text.hexDigits width n).toList.length = width := by
  have := (Nat.length_toDigits_le_iff (b := 16) (by omega) hw).mpr h
  simp only [Text.hexDigits, Decimal.zeros, String.toList_append, String.toList_ofList,
    List.length_append, List.length_replicate]
  omega

@[simp] theorem natOfDigits?_hexDigits (width n : Nat) :
    Numeral.natOfDigits? 16 (Text.hexDigits width n).toList = some n := by
  simp [Text.hexDigits, Decimal.zeros, Numeral.natOfDigits?_zeros, Numeral.natOfDigits?_toDigits]

/-- One character of a text. -/
@[simp] theorem units?_escapedChar (c : Char) (rest : List Char) :
    units? ((escapedChar c).toList ++ rest) =
      (units? rest).map fun (us, r) => (c.toNat :: us, r) := by
  have hmap : ∀ u : Nat, ((units? rest).bind fun (us, r) => some (u :: us, r)) =
      (units? rest).map fun (us, r) => (u :: us, r) := by
    intro u
    cases units? rest <;> rfl
  unfold escapedChar
  split
  case h_8 n h₁ h₂ h₃ h₄ h₅ h₆ h₇ =>
    split
    · -- four digits behind the mark of a code unit
      have hsmall : c.toNat < 16 ^ 4 := by omega
      have hlen := length_hexDigits (by omega) hsmall
      have hvalue := natOfDigits?_hexDigits 4 c.toNat
      rw [String.toList_append]
      generalize (Text.hexDigits 4 c.toNat).toList = ds at hlen hvalue ⊢
      match ds, hlen with
      | [a, b, c', d], _ =>
        show units? ('\\' :: 'u' :: a :: b :: c' :: d :: rest) = _
        simp [units?, hvalue, hmap]
    · have hquote : c ≠ '"' := fun h => h₁ (by rw [h]; rfl)
      have hslash : c ≠ '\\' := fun h => h₂ (by rw [h]; rfl)
      have hcontrol : ¬ c.toNat < 32 := by omega
      rw [String.toList_singleton, List.singleton_append]
      simp [units?, hslash, hcontrol, hmap]
  all_goals simp_all [units?, shortEscape?]

@[simp] theorem joinUnits_toNat (cs : List Char) : joinUnits (cs.map Char.toNat) = cs := by
  have hvalid : ∀ c : Char, ¬ (0xD800 ≤ c.toNat ∧ c.toNat < 0xE000) := by
    intro c h
    rcases c.valid with hc | hc
    · have : c.toNat < 0xD800 := hc
      omega
    · have : 0xDFFF < c.toNat := hc.1
      omega
  induction cs with
  | nil => rfl
  | cons c cs ih =>
    cases cs with
    | nil => simp [joinUnits, hvalid c]
    | cons c' cs =>
      have hpair : ¬ (0xD800 ≤ c.toNat ∧ c.toNat < 0xDC00 ∧ 0xDC00 ≤ c'.toNat ∧
          c'.toNat < 0xE000) := fun h => hvalid c ⟨h.1, by omega⟩
      simp only [List.map_cons] at ih
      simp only [List.map_cons, joinUnits, hpair, hvalid c, if_false, ih, Char.ofNat_toNat]

/-- A text behind its opening quote, with its closing one. -/
theorem textBody?_escaped (s : String) (rest : List Char) :
    textBody? ((String.join (s.toList.map escapedChar)).toList ++ '"' :: rest) =
      some (s, rest) := by
  have hunits : ∀ cs : List Char,
      units? ((String.join (cs.map escapedChar)).toList ++ '"' :: rest) =
      some (cs.map Char.toNat, rest) := by
    intro cs
    induction cs with
    | nil => rfl
    | cons c cs ih =>
      simp only [String.toList_join] at ih
      simp [ih]
  rw [textBody?, hunits]
  simp

/-! ## Numbers -/

/-- What may follow a number: nothing that could be taken for a part of it. -/
def Ends (rest : List Char) : Prop :=
  ∀ c ∈ rest.head?, c.isDigit = false ∧ c ≠ '.' ∧ c ≠ 'e' ∧ c ≠ 'E'

theorem digits?_append {ds rest : List Char} (hne : ds ≠ []) (hds : ∀ c ∈ ds, c.isDigit)
    (hrest : Ends rest) : digits? (ds ++ rest) = some (ds, rest) := by
  have htail : rest.takeWhile Char.isDigit = [] ∧ rest.dropWhile Char.isDigit = rest := by
    cases rest with
    | nil => exact ⟨rfl, rfl⟩
    | cons c rest =>
      have := (hrest c (by simp)).1
      simp [this]
  have htake : (ds ++ rest).takeWhile Char.isDigit = ds := by
    rw [List.takeWhile_append_of_pos hds, htail.1, List.append_nil]
  have hdrop : (ds ++ rest).dropWhile Char.isDigit = rest := by
    rw [List.dropWhile_append_of_pos hds, htail.2]
  unfold digits?
  rw [htake, hdrop]
  split
  · contradiction
  · rfl

/-- Only zero starts with a zero. -/
theorem eq_zero_of_toDigits {n : Nat} {ds : List Char} (h : Nat.toDigits 10 n = '0' :: ds) :
    n = 0 := by
  have hdigit : ∀ k < 10, Nat.digitChar k = '0' → k = 0 := by decide
  induction n using Nat.strongRecOn generalizing ds with
  | ind n ih =>
    rw [Nat.toDigits_eq_if (by omega)] at h
    split at h
    · rename_i hn
      exact hdigit n hn (List.cons.inj h).1
    · rename_i hn
      obtain ⟨d, ds', hd⟩ :=
        List.exists_cons_of_ne_nil (Nat.toDigits_ne_nil (b := 10) (n := n / 10))
      rw [hd, List.cons_append] at h
      obtain ⟨rfl, -⟩ := List.cons.inj h
      have := ih (n / 10) (by omega) hd
      omega

theorem whole?_toDigits (n : Nat) {rest : List Char} (hrest : Ends rest) :
    whole? (Nat.toDigits 10 n ++ rest) = some (Nat.toDigits 10 n, rest) := by
  unfold whole?
  split
  · rename_i tail heq
    obtain ⟨d, ds, hd⟩ := List.exists_cons_of_ne_nil (Nat.toDigits_ne_nil (b := 10) (n := n))
    rw [hd, List.cons_append] at heq
    obtain ⟨rfl, rfl⟩ := List.cons.inj heq
    obtain rfl := eq_zero_of_toDigits hd
    obtain rfl : ds = [] := by simpa using hd.symm
    rfl
  · exact digits?_append Nat.toDigits_ne_nil
      (fun c hc => Nat.isDigit_of_mem_toDigits (by omega) (by omega) hc) hrest

theorem number?_digitText (n : Nat) {rest : List Char} (hrest : Ends rest) :
    number? ((Decimal.digitText n).toList ++ rest) = some (Decimal.digitText n, rest) := by
  have hsign : ∀ tail, Nat.toDigits 10 n ++ rest ≠ '-' :: tail := by
    intro tail h
    obtain ⟨d, ds, hd⟩ := List.exists_cons_of_ne_nil (Nat.toDigits_ne_nil (b := 10) (n := n))
    have hdigit := Nat.isDigit_of_mem_toDigits (b := 10) (by omega) (by omega)
      (hd ▸ List.mem_cons_self)
    rw [hd, List.cons_append] at h
    obtain ⟨rfl, -⟩ := List.cons.inj h
    simp at hdigit
  have hfraction : fraction? rest = some ([], rest) := by
    unfold fraction?
    split
    · exact absurd rfl (hrest '.' (by simp)).2.1
    · rfl
  have hpower : exponentPart? rest = some ([], rest) := by
    unfold exponentPart?
    split
    · rfl
    · rename_i c tail
      have := hrest c (by simp)
      simp [this.2.2.1, this.2.2.2]
  have hcs : (Decimal.digitText n).toList = Nat.toDigits 10 n := String.toList_ofList
  unfold number?
  rw [hcs]
  split
  rename_i sign cs heq
  split at heq
  · rename_i tail h
    exact absurd h (hsign tail)
  · obtain ⟨rfl, rfl⟩ := Prod.mk.inj heq
    simp [whole?_toDigits n hrest, hfraction, hpower, Decimal.digitText]

/-! ## Values -/

/-- Values whose numbers are naturals. -/
inductive Plain : Json → Prop
  | null : Plain .null
  | bool (b : Bool) : Plain (.bool b)
  | nat (n : Nat) : Plain (.nat n)
  | text (s : String) : Plain (.text s)
  | list {vs : List Json} (h : ∀ v ∈ vs, Plain v) : Plain (.list vs)
  | object {fs : List (String × Json)} (h : ∀ f ∈ fs, Plain f.2) : Plain (.object fs)

theorem skipSpace_append {sp : List Char} (h : ∀ c ∈ sp, isSpace c) (cs : List Char) :
    skipSpace (sp ++ cs) = skipSpace cs :=
  List.dropWhile_append_of_pos h

theorem isSpace_of_mem_margin {level : Nat} {c : Char} (h : c ∈ (margin level).toList) :
    isSpace c := by
  simp only [margin, String.toList_append, String.toList_ofList, List.mem_append,
    List.mem_replicate] at h
  rcases h with h | ⟨-, rfl⟩
  · obtain rfl : c = '\n' := by simpa using h
    rfl
  · rfl

/-- Blanks before a value are passed over. -/
theorem value?_append {sp : List Char} (h : ∀ c ∈ sp, isSpace c) (fuel : Nat) (cs : List Char) :
    value? fuel (sp ++ cs) = value? fuel cs := by
  cases fuel with
  | zero => rfl
  | succ fuel => simp only [value?, skipSpace_append h]

/-- A value starts with a character that is neither blank nor closes a list. -/
theorem prettyAt_eq_cons {v : Json} (h : Plain v) (level : Nat) :
    ∃ c cs, (prettyAt level v).toList = c :: cs ∧ isSpace c = false ∧ c ≠ ']' := by
  cases h with
  | null => exact ⟨'n', ['u', 'l', 'l'], by simp [prettyAt], rfl, by decide⟩
  | bool b =>
    cases b with
    | false => exact ⟨'f', ['a', 'l', 's', 'e'], by simp [prettyAt], rfl, by decide⟩
    | true => exact ⟨'t', ['r', 'u', 'e'], by simp [prettyAt], rfl, by decide⟩
  | nat n =>
    obtain ⟨d, ds, hd⟩ := List.exists_cons_of_ne_nil (Nat.toDigits_ne_nil (b := 10) (n := n))
    have hdigit : d.isDigit := Nat.isDigit_of_mem_toDigits (b := 10) (by omega) (by omega)
      (hd ▸ List.mem_cons_self)
    refine ⟨d, ds, by simp [prettyAt, Json.nat, Decimal.digitText, hd], ?_, ?_⟩
    · refine Bool.eq_false_iff.mpr fun hspace => ?_
      simp only [isSpace, Bool.or_eq_true, decide_eq_true_eq] at hspace
      rcases hspace with ((rfl | rfl) | rfl) | rfl <;> simp at hdigit
    · rintro rfl
      simp at hdigit
  | text s => exact ⟨'"', _, by simp [prettyAt, textLiteral]; rfl, rfl, by decide⟩
  | list h => cases ‹List Json› <;> exact ⟨'[', _, by simp [prettyAt]; rfl, rfl, by decide⟩
  | object h =>
    cases ‹List (String × Json)› <;> exact ⟨'\x7b', _, by simp [prettyAt]; rfl, rfl, by decide⟩

/-- A value can be read from its text at a level, whatever follows. -/
def Reads (level : Nat) (v : Json) : Prop :=
  ∀ fuel rest, Ends rest → (prettyAt level v).toList.length < fuel →
    value? fuel ((prettyAt level v).toList ++ rest) = some (v, rest)

theorem ends_margin (level : Nat) (rest : List Char) : Ends ((margin level).toList ++ rest) := by
  simp [Ends, margin]

theorem ends_prettyItems (level : Nat) (vs : List Json) (m : Nat) (rest : List Char) :
    Ends ((prettyItems level vs).toList ++ ((margin m).toList ++ rest)) := by
  cases vs with
  | nil => simpa [prettyItems] using ends_margin m rest
  | cons v vs => simp [Ends, prettyItems]

theorem ends_prettyFields (level : Nat) (fs : List (String × Json)) (m : Nat) (rest : List Char) :
    Ends ((prettyFields level fs).toList ++ ((margin m).toList ++ rest)) := by
  cases fs with
  | nil => simpa [prettyFields] using ends_margin m rest
  | cons f fs => simp [Ends, prettyFields]

theorem skipSpace_margin {level : Nat} {c : Char} (hc : isSpace c = false) (rest : List Char) :
    skipSpace ((margin level).toList ++ c :: rest) = c :: rest := by
  rw [skipSpace_append fun _ => isSpace_of_mem_margin]
  simp [skipSpace, hc]

/-- Items up to the closing bracket, blanks first. -/
theorem items?_pretty {level m : Nat} {vs : List Json} (hvs : ∀ v ∈ vs, Reads level v) {v : Json}
    (hv : Reads level v) {fuel : Nat} {sp : List Char} (hsp : ∀ c ∈ sp, isSpace c)
    (hfuel : (prettyAt level v).toList.length + (prettyItems level vs).toList.length + 2 ≤ fuel)
    (rest : List Char) :
    items? fuel (sp ++ ((prettyAt level v).toList ++
      ((prettyItems level vs).toList ++ ((margin m).toList ++ ']' :: rest)))) =
        some (v :: vs, rest) := by
  induction vs generalizing v fuel sp with
  | nil =>
    obtain ⟨fuel, rfl⟩ : ∃ k, fuel = k + 1 := ⟨fuel - 1, by omega⟩
    have hread := hv fuel _ (ends_prettyItems level [] m (']' :: rest)) (by omega)
    have hclose : skipSpace ((margin m).toList ++ ']' :: rest) = ']' :: rest :=
      skipSpace_margin rfl rest
    rw [items?, value?_append hsp, hread]
    simp [prettyItems, hclose]
  | cons w vs ih =>
    obtain ⟨fuel, rfl⟩ : ∃ k, fuel = k + 1 := ⟨fuel - 1, by omega⟩
    have hread := hv fuel _ (ends_prettyItems level (w :: vs) m (']' :: rest)) (by omega)
    have hcomma : skipSpace ((prettyItems level (w :: vs)).toList ++
        ((margin m).toList ++ ']' :: rest)) =
          ',' :: ((margin level).toList ++ ((prettyAt level w).toList ++
            ((prettyItems level vs).toList ++ ((margin m).toList ++ ']' :: rest)))) := by
      simp [prettyItems, skipSpace, isSpace]
    have hlen : (prettyItems level (w :: vs)).toList.length =
        1 + (margin level).toList.length + (prettyAt level w).toList.length +
          (prettyItems level vs).toList.length := by
      simp [prettyItems]
      omega
    have hmargin : ∀ c ∈ (margin level).toList, isSpace c := fun _ => isSpace_of_mem_margin
    have hrest := ih (fun v hv => hvs v (List.mem_cons_of_mem _ hv)) (hvs w (by simp)) hmargin
      (show _ ≤ fuel by omega)
    rw [items?, value?_append hsp, hread]
    simp only [Option.bind_eq_bind, Option.bind_some, hcomma, hrest, Option.map_some]

theorem skipSpace_textLiteral {sp : List Char} (hsp : ∀ c ∈ sp, isSpace c) (k : String)
    (tail : List Char) : skipSpace (sp ++ ((textLiteral k).toList ++ tail)) =
      '"' :: ((String.join (k.toList.map escapedChar)).toList ++ '"' :: tail) := by
  rw [skipSpace_append hsp]
  simp [textLiteral, skipSpace, isSpace]

/-- Fields up to the closing brace, blanks first. -/
theorem fields?_pretty {level m : Nat} {fs : List (String × Json)}
    (hfs : ∀ f ∈ fs, Reads level f.2) {k : String} {v : Json} (hv : Reads level v) {fuel : Nat}
    {sp : List Char} (hsp : ∀ c ∈ sp, isSpace c)
    (hfuel : (prettyAt level v).toList.length + (prettyFields level fs).toList.length + 2 ≤ fuel)
    (rest : List Char) :
    fields? fuel (sp ++ ((textLiteral k).toList ++ ':' :: ' ' :: ((prettyAt level v).toList ++
      ((prettyFields level fs).toList ++ ((margin m).toList ++ '\x7d' :: rest))))) =
        some ((k, v) :: fs, rest) := by
  have hcolon : ∀ tail, skipSpace (':' :: tail) = ':' :: tail := fun tail => by
    simp [skipSpace, isSpace]
  have hblank : ∀ c ∈ [' '], isSpace c := by simp [isSpace]
  induction fs generalizing k v fuel sp with
  | nil =>
    obtain ⟨fuel, rfl⟩ : ∃ k, fuel = k + 1 := ⟨fuel - 1, by omega⟩
    have hread := hv fuel _ (ends_prettyFields level [] m ('\x7d' :: rest)) (by omega)
    have hclose : skipSpace ((margin m).toList ++ '\x7d' :: rest) = '\x7d' :: rest :=
      skipSpace_margin rfl rest
    rw [← value?_append hblank, List.singleton_append] at hread
    rw [fields?, skipSpace_textLiteral hsp]
    simp only [textBody?_escaped, hcolon, hread, Option.bind_eq_bind, Option.bind_some]
    simp [prettyFields, hclose]
  | cons f fs ih =>
    obtain ⟨k', w⟩ := f
    obtain ⟨fuel, rfl⟩ : ∃ k, fuel = k + 1 := ⟨fuel - 1, by omega⟩
    have hread := hv fuel _ (ends_prettyFields level ((k', w) :: fs) m ('\x7d' :: rest)) (by omega)
    have hcomma : skipSpace ((prettyFields level ((k', w) :: fs)).toList ++
        ((margin m).toList ++ '\x7d' :: rest)) =
          ',' :: ((margin level).toList ++ ((textLiteral k').toList ++ ':' :: ' ' ::
            ((prettyAt level w).toList ++ ((prettyFields level fs).toList ++
              ((margin m).toList ++ '\x7d' :: rest))))) := by
      simp [prettyFields, skipSpace, isSpace]
    have hlen : (prettyFields level ((k', w) :: fs)).toList.length =
        1 + (margin level).toList.length + (textLiteral k').toList.length + 2 +
          (prettyAt level w).toList.length + (prettyFields level fs).toList.length := by
      simp [prettyFields]
      omega
    have hmargin : ∀ c ∈ (margin level).toList, isSpace c := fun _ => isSpace_of_mem_margin
    have hw : Reads level w := hfs (k', w) (by simp)
    have hrest := @ih (fun f hf => hfs f (List.mem_cons_of_mem _ hf)) k' w hw fuel _ hmargin
      (by omega)
    rw [← value?_append hblank, List.singleton_append] at hread
    rw [fields?, skipSpace_textLiteral hsp]
    simp only [textBody?_escaped, hcolon, hread, Option.bind_eq_bind, Option.bind_some, hcomma,
      hrest, if_true, Option.map_some]

/-- The case of a number: a digit is none of the other beginnings. -/
theorem reads_nat (level n : Nat) : Reads level (.nat n) := by
  intro fuel rest hrest hfuel
  obtain ⟨fuel, rfl⟩ : ∃ k, fuel = k + 1 := ⟨fuel - 1, by omega⟩
  obtain ⟨c, cs, hcs, hspace, -⟩ := prettyAt_eq_cons (.nat n) level
  have hdigits : (prettyAt level (.nat n)).toList = (Decimal.digitText n).toList := by
    simp [prettyAt, Json.nat]
  have hc : c.isDigit := by
    refine Nat.isDigit_of_mem_toDigits (b := 10) (n := n) (by omega) (by omega) ?_
    have : c ∈ (Decimal.digitText n).toList := by simp [← hdigits, hcs]
    simpa [Decimal.digitText] using this
  have hbrace : c ≠ '\x7b' := by
    rintro rfl
    simp at hc
  have hnumber := number?_digitText n hrest
  rw [← hdigits, hcs, List.cons_append] at hnumber
  have hskip : skipSpace (c :: (cs ++ rest)) = c :: (cs ++ rest) := by simp [skipSpace, hspace]
  rw [hcs, List.cons_append, value?, hskip]
  split <;> simp_all [Json.nat]

@[simp] theorem word?_append (w : String) (v : Json) (rest : List Char) :
    word? w v (w.toList ++ rest) = some (v, rest) := by
  have hword : w.toList.isPrefixOf? (w.toList ++ rest) = some rest :=
    List.isPrefixOf?_eq_some_iff_append_eq.mpr rfl
  rw [word?, hword, Option.map_some]

theorem value?_prettyAt {v : Json} (h : Plain v) (level : Nat) : Reads level v := by
  induction h generalizing level with
  | nat n => exact reads_nat level n
  | null =>
    intro fuel rest hrest hfuel
    obtain ⟨fuel, rfl⟩ : ∃ k, fuel = k + 1 := ⟨fuel - 1, by omega⟩
    simpa [prettyAt, value?, skipSpace, isSpace] using word?_append "null" .null rest
  | bool b =>
    intro fuel rest hrest hfuel
    obtain ⟨fuel, rfl⟩ : ∃ k, fuel = k + 1 := ⟨fuel - 1, by omega⟩
    cases b with
    | false =>
      simpa [prettyAt, value?, skipSpace, isSpace] using word?_append "false" (.bool false) rest
    | true =>
      simpa [prettyAt, value?, skipSpace, isSpace] using word?_append "true" (.bool true) rest
  | text s =>
    intro fuel rest hrest hfuel
    obtain ⟨fuel, rfl⟩ : ∃ k, fuel = k + 1 := ⟨fuel - 1, by omega⟩
    have hbody := textBody?_escaped s rest
    simp only [String.toList_join] at hbody
    simp [prettyAt, textLiteral, value?, skipSpace, isSpace, hbody]
  | @list vs h ih =>
    intro fuel rest hrest hfuel
    obtain ⟨fuel, rfl⟩ : ∃ k, fuel = k + 1 := ⟨fuel - 1, by omega⟩
    cases vs with
    | nil => simp [prettyAt, value?, skipSpace, isSpace]
    | cons v vs =>
      have htext : (prettyAt level (.list (v :: vs))).toList ++ rest =
          '[' :: ((margin (level + 1)).toList ++ ((prettyAt (level + 1) v).toList ++
            ((prettyItems (level + 1) vs).toList ++ ((margin level).toList ++ ']' :: rest)))) := by
        simp [prettyAt]
      have hlen := congrArg List.length htext
      simp only [List.length_append, List.length_cons] at hlen
      have hv : Reads (level + 1) v := ih v (by simp) (level + 1)
      have hvs : ∀ w ∈ vs, Reads (level + 1) w :=
        fun w hw => ih w (List.mem_cons_of_mem _ hw) (level + 1)
      have hitems := @items?_pretty (level + 1) level vs hvs v hv fuel [] (by simp) (by omega) rest
      obtain ⟨c, cs, hcs, hspace, hclose⟩ := prettyAt_eq_cons (h v (by simp)) (level + 1)
      rw [List.nil_append, hcs, List.cons_append] at hitems
      rw [hcs, List.cons_append] at htext
      have hopen : ∀ tail, skipSpace ('[' :: tail) = '[' :: tail := fun tail => by
        simp [skipSpace, isSpace]
      rw [htext, value?, hopen]
      simp only [skipSpace_margin hspace]
      split
      · rename_i heq
        exact absurd (List.cons.inj heq).1 hclose
      · rw [hitems]
        rfl
  | @object fs h ih =>
    intro fuel rest hrest hfuel
    obtain ⟨fuel, rfl⟩ : ∃ k, fuel = k + 1 := ⟨fuel - 1, by omega⟩
    cases fs with
    | nil => simp [prettyAt, value?, skipSpace, isSpace]
    | cons f fs =>
      obtain ⟨k, v⟩ := f
      have htext : (prettyAt level (.object ((k, v) :: fs))).toList ++ rest =
          '\x7b' :: ((margin (level + 1)).toList ++ ((textLiteral k).toList ++ ':' :: ' ' ::
            ((prettyAt (level + 1) v).toList ++ ((prettyFields (level + 1) fs).toList ++
              ((margin level).toList ++ '\x7d' :: rest))))) := by
        simp [prettyAt]
      have hlen := congrArg List.length htext
      simp only [List.length_append, List.length_cons] at hlen
      have hv : Reads (level + 1) v := ih (k, v) (by simp) (level + 1)
      have hfs : ∀ f ∈ fs, Reads (level + 1) f.2 :=
        fun f hf => ih f (List.mem_cons_of_mem _ hf) (level + 1)
      have hfields := @fields?_pretty (level + 1) level fs hfs k v hv fuel [] (by simp) (by omega)
        rest
      have hmargin : ∀ c ∈ (margin (level + 1)).toList, isSpace c := fun _ => isSpace_of_mem_margin
      have hopen : ∀ tail, skipSpace ('\x7b' :: tail) = '\x7b' :: tail := fun tail => by
        simp [skipSpace, isSpace]
      have hquote : ∀ tail, (textLiteral k).toList ++ tail =
          '"' :: ((String.join (k.toList.map escapedChar)).toList ++ '"' :: tail) := fun tail => by
        simp [textLiteral]
      rw [List.nil_append, hquote] at hfields
      rw [htext, value?, hopen]
      have hskip := skipSpace_textLiteral hmargin k
      simpa [hskip] using hfields

/-- A whole document. -/
theorem parse?_pretty {v : Json} (h : Plain v) : parse? (pretty v) = some v := by
  have hread := value?_prettyAt h 0 ((pretty v).length + 1) [] (by simp [Ends])
    (by simp [pretty, String.length_toList])
  rw [List.append_nil] at hread
  have hfirst : first? (pretty v) = some (v, []) := hread
  simp [parse?, hfirst, skipSpace]

end Deadwood.Json
