import Deadwood.Glob
import Mathlib.Tactic.Common

/-!
# The syntax of shell patterns

A name is compared with a pattern part by part, and the comparison stops to look at the name as soon
as it does not fit. Whether the pattern is malformed is nevertheless found out for every name alike:
there is an answer exactly if the pattern follows its grammar.

## Main definitions

* `Glob.IsPattern`: the grammar of patterns.
* `Glob.reads`: whether a reader comes to the end of a text.

## Main results

* `Glob.reads_plain_iff`: the reader follows the grammar.
* `Glob.reads_cut`: a pattern reads as a whole if each of its parts does.
* `Glob.isSome_match?_iff`: whatever the name, there is an answer exactly for patterns.
-/

namespace Deadwood.Glob

/-! ## The grammar -/

/-- An end of a range: a character that has no meaning of its own in a class, or any character
behind a backslash. -/
inductive IsRangeEnd : List Char → Prop
  | plain {c : Char} (h : c ∉ ['\\', '-', ']']) : IsRangeEnd [c]
  | escaped (c : Char) : IsRangeEnd ['\\', c]

/-- A range of characters, or a single one. -/
inductive IsRange : List Char → Prop
  | single {e : List Char} (h : IsRangeEnd e) : IsRange e
  | between {e e' : List Char} (h : IsRangeEnd e) (h' : IsRangeEnd e') : IsRange (e ++ '-' :: e')

/-- One range or more, and the bracket that closes the class. -/
inductive IsClass : List Char → Prop
  | last {r : List Char} (h : IsRange r) : IsClass (r ++ [']'])
  | more {r k : List Char} (h : IsRange r) (hk : IsClass k) : IsClass (r ++ k)

/-- The texts that are patterns. Stars and question marks are characters like others here. -/
inductive IsPattern : List Char → Prop
  | nil : IsPattern []
  | char {c : Char} {cs : List Char} (hc : c ∉ ['\\', '[']) (hcs : IsPattern cs) :
    IsPattern (c :: cs)
  | escaped (c : Char) {cs : List Char} (hcs : IsPattern cs) : IsPattern ('\\' :: c :: cs)
  /-- A class whose first range does not look like a negation. -/
  | oneOf {k cs : List Char} (hk : IsClass k) (hfirst : k.head? ≠ some '^') (hcs : IsPattern cs) :
    IsPattern ('[' :: (k ++ cs))
  | noneOf {k cs : List Char} (hk : IsClass k) (hcs : IsPattern cs) :
    IsPattern ('[' :: '^' :: (k ++ cs))

/-! ## Reading without a name -/

/-- Whether a reader comes to the end of a text, and stands outside a class there. -/
def reads : Mode → List Char → Bool
  | .plain, [] => true
  | _, [] => false
  | mode, c :: cs =>
    match step mode c with
    | none => false
    | some (_, next) => reads next cs

variable {c : Char} {cs : List Char} {n : Bool} {f : List (Nat × Nat)} {x : Nat} {mode : Mode}

theorem reads_cons {items : List Item} {next : Mode} (h : step mode c = some (items, next)) :
    reads mode (c :: cs) = reads next cs := by
  simp only [reads, h]

theorem reads_cons_of_none (h : step mode c = none) : reads mode (c :: cs) = false := by
  simp only [reads, h]

/-- Whether a part is read does not depend on what it is compared with. -/
@[simp] theorem isSome_compare (mode : Mode) (cs : List Char) (left? : Option Bytes) :
    (compare mode cs left?).isSome = reads mode cs := by
  induction cs generalizing mode left? with
  | nil => cases mode <;> rfl
  | cons c cs ih =>
    simp only [compare, reads]
    cases step mode c with
    | none => rfl
    | some next => exact ih next.2 _

/-! ### Classes -/

theorem reads_member_bracket :
    reads (.member n f) (']' :: cs) = (!f.isEmpty && reads .plain cs) := by
  cases f <;> rfl

theorem reads_member_char (h : c ∉ ['\\', '-', ']']) :
    reads (.member n f) (c :: cs) = reads (.low n f c.toNat) cs := by
  simp only [List.mem_cons, List.not_mem_nil, or_false, not_or] at h
  simp [reads, step, stepMember, h]

/-- Behind the first character of a range, a class may go on as if the range were complete. -/
theorem reads_low_of_reads_member (h : reads (.member n ((x, x) :: f)) cs) :
    reads (.low n f x) cs := by
  cases cs with
  | nil => cases h
  | cons c cs =>
    have hdash : c ≠ '-' := by
      rintro rfl
      cases h
    simpa only [reads, step, if_neg hdash] using h

theorem IsRangeEnd.reads_low {e : List Char} (h : IsRangeEnd e) :
    ∃ x, ∀ n f cs, reads (.member n f) (e ++ cs) = reads (.low n f x) cs := by
  cases h with
  | plain h => exact ⟨_, fun n f cs => reads_member_char h⟩
  | escaped c => exact ⟨c.toNat, fun n f cs => rfl⟩

theorem IsRangeEnd.reads_dash {e : List Char} (h : IsRangeEnd e) :
    ∃ y, ∀ n f x cs, reads (.dash n f x) (e ++ cs) = reads (.member n ((x, y) :: f)) cs := by
  cases h with
  | @plain c h =>
    simp only [List.mem_cons, List.not_mem_nil, or_false, not_or] at h
    exact ⟨c.toNat, fun n f x cs => by simp [reads, step, h]⟩
  | escaped c => exact ⟨c.toNat, fun n f x cs => rfl⟩

/-- A range and then a rest of a class are a rest of a class. -/
theorem IsRange.reads_member {r : List Char} (h : IsRange r) :
    ∃ p, ∀ n f cs, reads (.member n (p :: f)) cs → reads (.member n f) (r ++ cs) := by
  cases h with
  | single h =>
    obtain ⟨x, hx⟩ := h.reads_low
    refine ⟨(x, x), fun n f cs hcs => ?_⟩
    rw [hx]
    exact reads_low_of_reads_member hcs
  | @between e e' h h' =>
    obtain ⟨x, hx⟩ := h.reads_low
    obtain ⟨y, hy⟩ := h'.reads_dash
    refine ⟨(x, y), fun n f cs hcs => ?_⟩
    rw [List.append_assoc, List.cons_append, hx]
    change reads (.dash n f x) (e' ++ cs)
    rwa [hy]

theorem IsClass.ne_nil {k : List Char} (h : IsClass k) : k ≠ [] := by
  induction h with
  | last h => simp
  | more h _ ih => simp [ih]

theorem IsClass.head?_append {k : List Char} (h : IsClass k) (cs : List Char) :
    (k ++ cs).head? = k.head? := by
  obtain ⟨c, k, rfl⟩ := List.exists_cons_of_ne_nil h.ne_nil
  rfl

theorem IsClass.reads_member {k : List Char} (h : IsClass k) (hcs : reads .plain cs) (n : Bool)
    (f : List (Nat × Nat)) : reads (.member n f) (k ++ cs) := by
  induction h generalizing f with
  | last h =>
    obtain ⟨p, hp⟩ := h.reads_member
    rw [List.append_assoc]
    refine hp n f _ ?_
    rw [List.singleton_append, reads_member_bracket, hcs]
    rfl
  | more h _ ih =>
    obtain ⟨p, hp⟩ := h.reads_member
    rw [List.append_assoc]
    exact hp n f _ (ih (p :: f))

theorem exists_rangeEnd_of_reads_member (h : reads (.member n f) cs) :
    (∃ rest, cs = ']' :: rest ∧ f ≠ [] ∧ reads .plain rest) ∨
      ∃ e x rest, IsRangeEnd e ∧ cs = e ++ rest ∧ reads (.low n f x) rest := by
  cases cs with
  | nil => cases h
  | cons c cs =>
    by_cases hspecial : c ∉ ['\\', '-', ']']
    · rw [reads_member_char hspecial] at h
      exact .inr ⟨[c], _, cs, .plain hspecial, rfl, h⟩
    · simp only [List.mem_cons, List.not_mem_nil, or_false, not_not] at hspecial
      obtain rfl | rfl | rfl := hspecial
      · cases cs with
        | nil => cases h
        | cons c cs => exact .inr ⟨['\\', c], c.toNat, cs, .escaped c, rfl, h⟩
      · cases h
      · rw [reads_member_bracket, Bool.and_eq_true] at h
        exact .inl ⟨cs, rfl, by simpa using h.1, h.2⟩

theorem exists_rangeEnd_of_reads_dash (h : reads (.dash n f x) cs) :
    ∃ e y rest, IsRangeEnd e ∧ cs = e ++ rest ∧ reads (.member n ((x, y) :: f)) rest := by
  cases cs with
  | nil => cases h
  | cons c cs =>
    by_cases hspecial : c ∉ ['\\', '-', ']']
    · obtain ⟨y, hy⟩ := (IsRangeEnd.plain hspecial).reads_dash
      refine ⟨[c], y, cs, .plain hspecial, rfl, ?_⟩
      rwa [← hy]
    · simp only [List.mem_cons, List.not_mem_nil, or_false, not_not] at hspecial
      obtain rfl | rfl | rfl := hspecial
      · cases cs with
        | nil => cases h
        | cons c cs => exact ⟨['\\', c], c.toNat, cs, .escaped c, rfl, h⟩
      · cases h
      · cases h

theorem exists_range_of_reads_member (h : reads (.member n f) cs) :
    (∃ rest, cs = ']' :: rest ∧ f ≠ [] ∧ reads .plain rest) ∨
      ∃ r p rest, IsRange r ∧ r ≠ [] ∧ cs = r ++ rest ∧ reads (.member n (p :: f)) rest := by
  obtain hclosed | ⟨e, x, rest, he, rfl, hrest⟩ := exists_rangeEnd_of_reads_member h
  · exact .inl hclosed
  have hnonempty : e ≠ [] := by
    rintro rfl
    cases he
  by_cases hdash : rest.head? = some '-'
  · obtain ⟨rest, rfl⟩ := List.head?_eq_some_iff.mp hdash
    change reads (.dash n f x) rest at hrest
    obtain ⟨e', y, rest', he', rfl, hrest'⟩ := exists_rangeEnd_of_reads_dash hrest
    exact .inr ⟨e ++ '-' :: e', (x, y), rest', .between he he', by simp, by simp, hrest'⟩
  · refine .inr ⟨e, (x, x), rest, .single he, hnonempty, rfl, ?_⟩
    cases rest with
    | nil => cases hrest
    | cons c rest =>
      have hdash : c ≠ '-' := fun h => hdash (congrArg some h)
      simpa only [reads, step, if_neg hdash] using hrest

/-- What a reader inside a class can read is the rest of the class and a pattern behind it. -/
theorem exists_class_of_reads_member {n : Bool} {f : List (Nat × Nat)} {cs : List Char}
    (h : reads (.member n f) cs) :
    (∃ rest, cs = ']' :: rest ∧ f ≠ [] ∧ reads .plain rest) ∨
      ∃ k rest, IsClass k ∧ cs = k ++ rest ∧ reads .plain rest := by
  obtain hclosed | ⟨r, p, rest, hr, hnonempty, rfl, hrest⟩ := exists_range_of_reads_member h
  · exact .inl hclosed
  have hshorter : rest.length < (r ++ rest).length := by
    have := List.length_pos_iff.mpr hnonempty
    rw [List.length_append]
    omega
  obtain ⟨rest', rfl, -, hplain⟩ | ⟨k, rest', hk, rfl, hplain⟩ := exists_class_of_reads_member hrest
  · exact .inr ⟨r ++ [']'], rest', .last hr, by simp, hplain⟩
  · exact .inr ⟨r ++ k, rest', .more hr hk, by simp, hplain⟩
termination_by cs.length

/-! ### Patterns -/

theorem reads_plain_char (h : c ∉ ['\\', '[']) : reads .plain (c :: cs) = reads .plain cs := by
  simp only [List.mem_cons, List.not_mem_nil, or_false, not_or] at h
  by_cases hany : c = '?' <;> simp [reads, step, hany, h]

theorem reads_opened_of_head?_ne (h : cs.head? ≠ some '^') :
    reads .opened cs = reads (.member false []) cs := by
  cases cs with
  | nil => rfl
  | cons c cs =>
    have hc : c ≠ '^' := fun hc => h (congrArg some hc)
    simp only [reads, step, if_neg hc]

/-- Behind the bracket that opens a class, there is a class, negated or not. -/
theorem exists_class_of_reads_opened (h : reads .opened cs) :
    ∃ k rest, IsClass k ∧ reads .plain rest ∧
      (cs = '^' :: (k ++ rest) ∨ k.head? ≠ some '^' ∧ cs = k ++ rest) := by
  by_cases hnegated : cs.head? = some '^'
  · obtain ⟨cs, rfl⟩ := List.head?_eq_some_iff.mp hnegated
    change reads (.member true []) cs at h
    obtain ⟨-, -, hsome, -⟩ | ⟨k, rest, hk, rfl, hrest⟩ := exists_class_of_reads_member h
    · exact absurd rfl hsome
    · exact ⟨k, rest, hk, hrest, .inl rfl⟩
  · rw [reads_opened_of_head?_ne hnegated] at h
    obtain ⟨-, -, hsome, -⟩ | ⟨k, rest, hk, rfl, hrest⟩ := exists_class_of_reads_member h
    · exact absurd rfl hsome
    · rw [hk.head?_append] at hnegated
      exact ⟨k, rest, hk, hrest, .inr ⟨hnegated, rfl⟩⟩

theorem isPattern_of_reads_plain {cs : List Char} (h : reads .plain cs) : IsPattern cs := by
  cases cs with
  | nil => exact .nil
  | cons c cs =>
    by_cases hspecial : c ∉ ['\\', '[']
    · rw [reads_plain_char hspecial] at h
      exact .char hspecial (isPattern_of_reads_plain h)
    · simp only [List.mem_cons, List.not_mem_nil, or_false, not_not] at hspecial
      obtain rfl | rfl := hspecial
      · cases cs with
        | nil => cases h
        | cons c cs =>
          change reads .plain cs at h
          exact .escaped c (isPattern_of_reads_plain h)
      · change reads .opened cs at h
        obtain ⟨k, rest, hk, hrest, rfl | ⟨hfirst, rfl⟩⟩ := exists_class_of_reads_opened h
        · exact .noneOf hk (isPattern_of_reads_plain hrest)
        · exact .oneOf hk hfirst (isPattern_of_reads_plain hrest)
termination_by cs.length

theorem IsPattern.reads_plain (h : IsPattern cs) : reads .plain cs := by
  induction h with
  | nil => rfl
  | char hc _ ih => rwa [reads_plain_char hc]
  | escaped c _ ih => exact ih
  | @oneOf k cs hk hfirst _ ih =>
    change reads .opened (k ++ cs)
    rw [reads_opened_of_head?_ne]
    · exact hk.reads_member ih false []
    · rwa [hk.head?_append]
  | noneOf hk _ ih => exact hk.reads_member ih true []

/-- The reader comes to the end of exactly the patterns. -/
theorem reads_plain_iff : reads .plain cs ↔ IsPattern cs :=
  ⟨isPattern_of_reads_plain, IsPattern.reads_plain⟩

/-! ## Cutting -/

/-- Between whole characters, whether a reader stands inside brackets. Behind a backslash it stands
between no whole characters. -/
def Mode.Tracks : Mode → Bool → Prop
  | .plain, isInside => isInside = false
  | .escape, _ | .lowEscape .., _ | .highEscape .., _ => False
  | _, isInside => isInside = true

/-- Brackets are told apart by themselves as well as by a reader, as long as the text reads. -/
theorem tracks_step {isInside : Bool} {items : List Item} {next : Mode} (h : mode.Tracks isInside)
    (hc : c ≠ '\\') (hstep : step mode c = some (items, next)) :
    next.Tracks (insideBehind c isInside) := by
  cases mode <;> grind [step, stepMember, Mode.Tracks, insideBehind]

theorem tracks_backslash {isInside : Bool} (h : mode.Tracks isInside) (c : Char) :
    ∃ next, next.Tracks isInside ∧
      ∀ cs, reads mode ('\\' :: c :: cs) = reads next cs := by
  cases mode with
  | plain => exact ⟨.plain, h, fun cs => rfl⟩
  | opened => exact ⟨.low false [] c.toNat, h, fun cs => rfl⟩
  | member n f => exact ⟨.low n f c.toNat, h, fun cs => rfl⟩
  | low n f x => exact ⟨.low n ((x, x) :: f) c.toNat, h, fun cs => rfl⟩
  | dash n f x => exact ⟨.member n ((x, c.toNat) :: f), h, fun cs => rfl⟩
  | escape => cases h
  | lowEscape => cases h
  | highEscape => cases h

/-- A text reads exactly if it reads up to the first star and each part behind it reads. -/
theorem reads_cutFrom (isInside : Bool) (cs : List Char) (h : mode.Tracks isInside) :
    reads mode cs ↔ reads mode (cutFrom isInside cs).1 ∧
      ∀ p ∈ (cutFrom isInside cs).2, reads .plain p.text := by
  fun_induction cutFrom isInside cs generalizing mode with
  | case1 => simp
  | case2 isInside c cs text parts hcut ih =>
    obtain ⟨next, hnext, hreads⟩ := tracks_backslash h c
    simpa only [hcut, hreads] using ih hnext
  | case3 isInside c cs _ hstar text parts hcut ih =>
    obtain ⟨rfl, hout⟩ := hstar
    obtain rfl : mode = .plain := by
      cases mode <;> simp_all [Mode.Tracks]
    have hparts : reads .plain cs ↔ _ := ih rfl
    rw [reads_plain_char (by decide), hparts, hcut]
    split
    · rename_i hempty
      obtain rfl : text = [] := by simp_all
      rfl
    · simp [reads]
  | case4 isInside c cs hescape _ text parts hcut ih =>
    by_cases hc : c = '\\'
    · cases cs with
      | nil =>
        cases hcut
        simp
      | cons c' cs => exact (hescape c' cs hc rfl).elim
    · cases hstep : step mode c with
      | none => simp [reads_cons_of_none hstep]
      | some next =>
        have hnext := ih (tracks_step h hc hstep)
        simpa only [hcut, reads_cons hstep] using hnext

/-- A pattern reads as a whole exactly if each of its parts does. -/
theorem reads_cut (cs : List Char) :
    reads .plain cs ↔ ∀ p ∈ cut cs, reads .plain p.text := by
  have hwhole : reads .plain cs ↔ _ := reads_cutFrom false cs rfl
  rw [hwhole, cut]
  generalize cutFrom false cs = found
  cases htext : found.1 <;> simp [htext, reads]

/-- Only the last part may lack characters. -/
theorem pairwise_cutFrom (isInside : Bool) (cs : List Char) :
    (cutFrom isInside cs).2.Pairwise fun p _ => p.text ≠ [] := by
  fun_induction cutFrom isInside cs with
  | case1 => exact .nil
  | case2 isInside c cs text parts hcut ih => rwa [hcut] at ih
  | case3 isInside c cs _ hstar text parts hcut ih =>
    rw [hcut] at ih
    split
    · exact ih
    · rename_i hempty
      refine List.pairwise_cons.mpr ⟨fun p hp htext => hempty ?_, ih⟩
      have hparts := List.ne_nil_of_mem hp
      simp_all
  | case4 isInside c cs hescape _ text parts hcut ih => rwa [hcut] at ih

theorem pairwise_cut (cs : List Char) : (cut cs).Pairwise fun p _ => p.text ≠ [] := by
  have hparts := pairwise_cutFrom false cs
  unfold cut
  generalize cutFrom false cs = found at hparts
  cases htext : found.1 with
  | nil => simpa [htext] using hparts
  | cons c text => simpa [htext] using hparts

/-! ## Comparing -/

@[simp] theorem isSome_attempt (text : List Char) (isLast : Bool) (name : Bytes) :
    (attempt text isLast name).isSome = reads .plain text := by
  rw [attempt, Option.isSome_map, isSome_compare]

@[simp] theorem isSome_search (text : List Char) (isLast : Bool) (name : Bytes) :
    (search text isLast name).isSome = reads .plain text := by
  have hattempt := isSome_attempt text isLast
  induction name with
  | nil => exact hattempt []
  | cons c name ih =>
    have hhere := hattempt (c :: name)
    unfold search
    split
    · rename_i hnone
      rwa [hnone] at hhere
    · rename_i left hleft
      rwa [hleft] at hhere
    · rename_i hmissed
      rw [hmissed] at hhere
      split_ifs
      · exact hhere
      · exact ih

theorem isSome_compareParts {parts : List Part} (h : parts.Pairwise fun p _ => p.text ≠ [])
    (name : Bytes) : (compareParts parts name).isSome ↔ ∀ p ∈ parts, reads .plain p.text := by
  induction parts generalizing name with
  | nil => simp [compareParts]
  | cons part rest ih =>
    obtain ⟨hpart, hrest⟩ := List.pairwise_cons.mp h
    unfold compareParts
    split
    · -- a lone star is the last part
      rename_i hlone
      obtain rfl : rest = [] := by
        by_contra hne
        obtain ⟨p, hp⟩ := List.exists_mem_of_ne_nil rest hne
        simp_all
      simp_all [reads]
    · have hhere : ((if part.star then search else attempt) part.text rest.isEmpty name).isSome =
          reads .plain part.text := by
        split
        · exact isSome_search ..
        · exact isSome_attempt ..
      rw [List.forall_mem_cons, ← hhere]
      split
      · rename_i hnone
        simp [hnone]
      · rename_i left hleft
        simp [hleft, ih hrest]
      · rename_i hmissed
        -- the parts behind are still read, now without the name
        simp [hmissed]

/-- Whatever the name, there is an answer exactly for patterns. -/
theorem isSome_match?_iff (pattern name : String) :
    (match? pattern name).isSome ↔ IsPattern pattern.toList := by
  rw [match?, isSome_compareParts (pairwise_cut _), ← reads_cut, reads_plain_iff]

/-- The class is not closed, which is found out although the name has failed at the first part. -/
example : match? "x*[a-" "b" = none := by decide +kernel

end Deadwood.Glob
