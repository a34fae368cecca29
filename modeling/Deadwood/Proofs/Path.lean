import Deadwood.Path
import Mathlib.Data.List.Basic
import Mathlib.Tactic.SplitIfs

/-!
# The parts of a path

Cutting a path at its slashes and joining the parts again are inverse to each other. From this the
parts of a cleaned path are known: those that are left when `.` and `..` have been resolved.

## Main definitions

* `Path.IsName`: a text that can name an entry of a directory.
* `Path.resolved`: the parts that are left of some parts.

## Main results

* `Path.segments_clean`: the parts of a cleaned path.
* `Path.clean_clean`: cleaning a path twice.
* `Path.parts_join`: names below a path.
-/

namespace Deadwood

namespace Text

@[simp] theorem segments_ne_nil (sep : Char) (s : String) : segments sep s ≠ [] := by
  simp [segments]

/-- No part holds the separator. -/
theorem not_mem_of_mem_splitOn {sep : Char} {cs part : List Char} (h : part ∈ cs.splitOn sep) :
    sep ∉ part := by
  induction cs generalizing part with
  | nil =>
    simp only [List.splitOn_nil, List.mem_singleton] at h
    simp [h]
  | cons c cs ih =>
    rw [List.splitOn_cons_eq_if_modifyHead] at h
    by_cases hc : c = sep
    · simp only [hc, beq_self_eq_true, if_true, List.mem_cons] at h
      rcases h with rfl | h
      · simp
      · exact ih h
    · simp only [beq_iff_eq, hc, if_false] at h
      obtain ⟨first, rest, he⟩ := List.exists_cons_of_ne_nil (List.splitOn_ne_nil sep cs)
      rw [he] at h ih
      simp only [List.modifyHead_cons, List.mem_cons] at h
      rcases h with rfl | h
      · have hf : sep ∉ first := ih (by simp)
        simp [hf, Ne.symm hc]
      · exact ih (by simp [h])

theorem not_mem_of_mem_segments {sep : Char} {s part : String} (h : part ∈ segments sep s) :
    sep ∉ part.toList := by
  obtain ⟨cs, hcs, rfl⟩ := List.mem_map.mp h
  simpa using not_mem_of_mem_splitOn hcs

@[simp] theorem join_segments (s : String) : join "/" (segments '/' s) = s := by
  simp [join, segments, Function.comp_def]

/-- Parts without slashes are found again. -/
theorem segments_join {parts : List String} (hne : parts ≠ [])
    (h : ∀ p ∈ parts, '/' ∉ p.toList) : segments '/' (join "/" parts) = parts := by
  have hsplit : (List.intercalate ['/'] (parts.map String.toList)).splitOn '/' =
      parts.map String.toList :=
    List.splitOn_intercalate '/' (by simpa using h) (by simpa using hne)
  simp [segments, join, hsplit, Function.comp_def]

/-- A slash separates the parts before it from those behind it. -/
@[simp] theorem segments_slash (a b : String) :
    segments '/' (a ++ "/" ++ b) = segments '/' a ++ segments '/' b := by
  have := List.splitOn_append_cons_self (a := '/') a.toList b.toList
  simp [segments, this]

theorem mem_of_mem_segments {sep c : Char} {s part : String} (h : part ∈ segments sep s)
    (hc : c ∈ part.toList) : c ∈ s.toList := by
  obtain ⟨cs, hcs, rfl⟩ := List.mem_map.mp h
  rw [String.toList_ofList] at hc
  have hs : [sep].intercalate (s.toList.splitOn sep) = s.toList := List.intercalate_splitOn sep
  rw [← hs]
  generalize s.toList.splitOn sep = parts at hcs ⊢
  induction parts with
  | nil => simp at hcs
  | cons p parts ih =>
    rcases List.mem_cons.mp hcs with rfl | hcs
    · cases parts <;> simp_all
    · have hne : parts ≠ [] := List.ne_nil_of_mem hcs
      rw [List.intercalate_cons_of_ne_nil hne]
      simp [ih hcs]

theorem mem_join {c : Char} {parts : List String} (h : c ∈ (join "/" parts).toList) :
    c = '/' ∨ ∃ p ∈ parts, c ∈ p.toList := by
  rw [join, String.toList_ofList] at h
  induction parts with
  | nil => simp at h
  | cons p parts ih =>
    cases parts with
    | nil => exact .inr ⟨p, by simp, by simpa using h⟩
    | cons q parts =>
      rw [List.map_cons, List.map_cons, List.intercalate_cons_cons] at h
      simp only [List.append_assoc, List.mem_append] at h
      rcases h with h | h | h
      · exact .inr ⟨p, by simp, h⟩
      · exact .inl (by simpa using h)
      · rcases ih h with h | ⟨r, hr, hc⟩
        · exact .inl h
        · exact .inr ⟨r, List.mem_cons_of_mem _ hr, hc⟩

theorem segments_eq_singleton {s : String} (h : '/' ∉ s.toList) : segments '/' s = [s] := by
  simp [segments, List.splitOn_eq_singleton h]

end Text

namespace Path

open Text

/-- A text that can name an entry of a directory. -/
structure IsName (s : String) : Prop where
  nonempty : s ≠ ""
  notHere : s ≠ "."
  notUp : s ≠ ".."
  noSlash : '/' ∉ s.toList

instance (s : String) : Decidable (IsName s) :=
  decidable_of_iff (s ≠ "" ∧ s ≠ "." ∧ s ≠ ".." ∧ '/' ∉ s.toList)
    ⟨fun ⟨a, b, c, d⟩ => ⟨a, b, c, d⟩, fun ⟨a, b, c, d⟩ => ⟨a, b, c, d⟩⟩

/-- The parts that are left of some parts, the last one first. -/
def resolved (rooted : Bool) (names : List String) : List String :=
  names.foldl (push rooted) []

theorem push_name {rooted : Bool} {kept : List String} {s : String} (h : IsName s) :
    push rooted kept s = s :: kept := by
  simp [push, h.nonempty, h.notHere, h.notUp]

theorem push_skip {rooted : Bool} {kept : List String} {s : String} (h : s = "" ∨ s = ".") :
    push rooted kept s = kept := by
  simp [push, h]

theorem resolved_append_name {rooted : Bool} {names : List String} {s : String} (h : IsName s) :
    resolved rooted (names ++ [s]) = s :: resolved rooted names := by
  simp [resolved, push_name h]

/-- What is left of a part list is `..` or a name, and none of it is empty. -/
theorem mem_push {rooted : Bool} {kept : List String} {s t : String}
    (h : t ∈ push rooted kept s) : t ∈ kept ∨ (t = s ∧ s ≠ "" ∧ s ≠ ".") := by
  by_cases h₁ : s = "" ∨ s = "."
  · rw [push_skip h₁] at h
    exact .inl h
  have hs : s ≠ "" ∧ s ≠ "." := not_or.mp h₁
  unfold push at h
  rw [if_neg h₁] at h
  by_cases h₂ : s = ".."
  · rw [if_pos h₂] at h
    match kept with
    | [] =>
      cases rooted
      · exact .inr ⟨by simpa using h, hs⟩
      · simp at h
    | last :: rest =>
      by_cases hl : last = ".."
      · rcases List.mem_cons.mp (by simpa only [hl, if_true] using h) with h | h
        · exact .inr ⟨h, hs⟩
        · exact .inl (hl ▸ h)
      · exact .inl (List.mem_cons_of_mem _ (by simpa only [hl, if_false] using h))
  · rw [if_neg h₂] at h
    rcases List.mem_cons.mp h with h | h
    · exact .inr ⟨h, hs⟩
    · exact .inl h

theorem mem_foldl_push {rooted : Bool} {names kept : List String} {t : String}
    (h : t ∈ names.foldl (push rooted) kept) : t ∈ kept ∨ (t ∈ names ∧ t ≠ "" ∧ t ≠ ".") := by
  induction names generalizing kept with
  | nil => exact .inl h
  | cons s names ih =>
    rcases ih h with h | ⟨h, hne⟩
    · rcases mem_push h with h | ⟨rfl, hne⟩
      · exact .inl h
      · exact .inr ⟨by simp, hne⟩
    · exact .inr ⟨List.mem_cons_of_mem _ h, hne⟩

theorem mem_resolved {rooted : Bool} {names : List String} {t : String}
    (h : t ∈ resolved rooted names) : t ∈ names ∧ t ≠ "" ∧ t ≠ "." := by
  rcases mem_foldl_push h with h | h
  · simp at h
  · exact h

theorem parts_eq (p : String) :
    parts p = (resolved (isAbsolute p) (segments '/' p)).reverse := rfl

/-- A path is absolute if its first part is empty and there are more. -/
theorem isAbsolute_append {p q : String} (h : p ≠ "") : isAbsolute (p ++ q) = isAbsolute p := by
  have hne : p.toList ≠ [] := by simpa using h
  obtain ⟨c, cs, hcs⟩ := List.exists_cons_of_ne_nil hne
  simp [isAbsolute, startsWith, hcs, List.isPrefixOf]

@[simp] theorem isAbsolute_slash (p : String) : isAbsolute ("/" ++ p) = true := by
  simp [isAbsolute, startsWith]

theorem join_eq_empty {ps : List String} (h : ∀ s ∈ ps, s ≠ "") :
    Text.join "/" ps = "" ↔ ps = [] := by
  constructor
  · intro he
    cases ps with
    | nil => rfl
    | cons p ps =>
      have hp : p.toList ≠ [] := by simpa using h p (by simp)
      have hl : List.intercalate ['/'] ((p :: ps).map String.toList) = [] := by
        simpa [Text.join] using he
      cases ps with
      | nil => simp at hl; exact absurd (by simpa using hl) hp
      | cons q qs => simp [List.intercalate_cons_cons] at hl
  · rintro rfl
    rfl

theorem segments_clean (p : String) :
    segments '/' (clean p) =
      if isAbsolute p then "" :: (if parts p = [] then [""] else parts p)
      else if parts p = [] then ["."] else parts p := by
  have hparts : ∀ s ∈ parts p, s ≠ "" ∧ '/' ∉ s.toList := by
    intro s hs
    rw [parts_eq, List.mem_reverse] at hs
    obtain ⟨hmem, hne, -⟩ := mem_resolved hs
    exact ⟨hne, not_mem_of_mem_segments hmem⟩
  have hbody : segments '/' (Text.join "/" (parts p)) =
      if parts p = [] then [""] else parts p := by
    split_ifs with h
    · simp [h, Text.join, segments]
    · exact segments_join h fun s hs => (hparts s hs).2
  have hempty : Text.join "/" (parts p) = "" ↔ parts p = [] :=
    join_eq_empty fun s hs => (hparts s hs).1
  unfold clean
  by_cases ha : isAbsolute p
  · have : "/" ++ Text.join "/" (parts p) = "" ++ "/" ++ Text.join "/" (parts p) := by simp
    simp only [ha, if_true]
    rw [this, segments_slash, hbody]
    rfl
  · simp only [ha, if_false, Bool.false_eq_true]
    by_cases he : parts p = []
    · simp [he]
      decide
    · simp [hempty, he, hbody]

theorem mem_segments_clean {p s : String} (h : s ∈ parts p) : s ∈ segments '/' (clean p) := by
  have hne : parts p ≠ [] := List.ne_nil_of_mem h
  rw [segments_clean]
  split_ifs
  · exact List.mem_cons_of_mem _ h
  · exact h

theorem clean_ne_empty (p : String) : clean p ≠ "" := by
  have := segments_clean p
  intro h
  rw [h] at this
  have hparts : "" ∉ parts p := by
    intro hm
    rw [parts_eq, List.mem_reverse] at hm
    exact (mem_resolved hm).2.1 rfl
  have hs : segments '/' "" = [""] := rfl
  rw [hs] at this
  split_ifs at this with h₁ h₂ h₃
  · simp at this
  · exact h₂ (List.cons.inj this).2.symm
  · simp at this
  · exact hparts (this ▸ List.mem_singleton.mpr rfl)

@[simp] theorem isAbsolute_clean (p : String) : isAbsolute (clean p) = isAbsolute p := by
  unfold clean
  by_cases ha : isAbsolute p
  · simp [ha]
  · simp only [ha, if_false, Bool.false_eq_true]
    split_ifs with he
    · decide
    -- a text that starts with a slash has an empty first part
    · by_contra habs
      have hne : parts p ≠ [] := fun h => he (by rw [h]; rfl)
      have hseg := segments_clean p
      simp only [ha, if_false, Bool.false_eq_true, hne] at hseg
      simp only [clean, ha, if_false, Bool.false_eq_true, he] at hseg
      have habs' : isAbsolute (Text.join "/" (parts p)) = true := by simpa using habs
      obtain ⟨rest, hrest⟩ := List.isPrefixOf_iff_prefix.mp habs'
      have hcut : Text.join "/" (parts p) = "" ++ "/" ++ String.ofList rest := by
        apply String.toList_injective
        simpa using hrest.symm
      rw [hcut, segments_slash] at hseg
      have : "" ∈ parts p := by
        rw [← hseg]
        exact List.mem_append_left _ (by decide)
      rw [parts_eq, List.mem_reverse] at this
      exact (mem_resolved this).2.1 rfl

theorem mem_clean {p : String} {c : Char} (h : c ∈ (clean p).toList) :
    c ∈ p.toList ∨ c = '/' ∨ c = '.' := by
  have hbody : ∀ {c}, c ∈ (Text.join "/" (parts p)).toList → c ∈ p.toList ∨ c = '/' := by
    intro c hc
    rcases mem_join hc with hc | ⟨s, hs, hc⟩
    · exact .inr hc
    · rw [parts_eq, List.mem_reverse] at hs
      exact .inl (mem_of_mem_segments (mem_resolved hs).1 hc)
  unfold clean at h
  simp only at h
  split_ifs at h
  · rw [String.toList_append, List.mem_append] at h
    rcases h with h | h
    · exact .inr (.inl (by simpa using h))
    · exact (hbody h).imp_right .inl
  · exact .inr (.inr (by simpa using h))
  · exact (hbody h).imp_right .inl

/-! ## Names at the end of a path -/

theorem resolved_append_names {rooted : Bool} {names : List String}
    (h : ∀ s ∈ names, IsName s) (pre : List String) :
    resolved rooted (pre ++ names) = names.reverse ++ resolved rooted pre := by
  induction names generalizing pre with
  | nil => simp
  | cons s names ih =>
    have hs : IsName s := h s (by simp)
    have := ih (fun t ht => h t (List.mem_cons_of_mem _ ht)) (pre ++ [s])
    rw [resolved_append_name hs] at this
    simpa using this

theorem segments_clean_suffix {p : String} {pre names : List String}
    (h : segments '/' p = pre ++ names) (hn : ∀ s ∈ names, IsName s) (hne : names ≠ []) :
    ∃ pre', segments '/' (clean p) = pre' ++ names := by
  have hparts : parts p = (resolved (isAbsolute p) pre).reverse ++ names := by
    rw [parts_eq, h, resolved_append_names hn]
    simp
  have hnil : parts p ≠ [] := by simp [hparts, hne]
  rw [segments_clean]
  simp only [hnil, if_false]
  split_ifs
  · exact ⟨"" :: (resolved (isAbsolute p) pre).reverse, by simp [hparts]⟩
  · exact ⟨_, hparts⟩

/-- One path below another ends in the names at the end of both. -/
theorem segments_join_suffix {p q : String} {pre above names : List String}
    (hp : segments '/' p = pre ++ above) (h : segments '/' q = names)
    (hn : ∀ s ∈ above ++ names, IsName s) :
    ∃ pre', segments '/' (Path.join p q) = pre' ++ (above ++ names) := by
  have hne : above ++ names ≠ [] := by
    simp [← h]
  have hempty : segments '/' "" = [""] := rfl
  unfold Path.join
  split_ifs with hp₀ hq₀
  · subst hq₀
    rw [hempty] at h
    exact absurd rfl (hn "" (by simp [← h])).nonempty
  · -- the empty path has no name
    subst hp₀
    have habove : above = [] := by
      rcases List.eq_nil_or_concat above with ha | ⟨init, last, ha⟩
      · exact ha
      · have hlast : last = "" := by
          have := congrArg List.getLast? hp
          simpa [hempty, ha, eq_comm] using this
        exact absurd hlast (hn last (by simp [ha])).nonempty
    subst habove
    exact segments_clean_suffix (h.trans (List.nil_append _).symm) hn hne
  · exact segments_clean_suffix (by rw [segments_slash, h, hp, List.append_assoc]) hn hne

/-! ## Cleaned paths -/

/-- Parts that are left as they are when they are resolved stay so with one more part. -/
theorem resolved_reverse_push {rooted : Bool} {kept : List String}
    (h : resolved rooted kept.reverse = kept) (s : String) :
    resolved rooted (push rooted kept s).reverse = push rooted kept s := by
  have hlast : ∀ (kept : List String) (s : String),
      resolved rooted (s :: kept).reverse = push rooted (resolved rooted kept.reverse) s := by
    intro kept s
    simp [resolved]
  by_cases hskip : s = "" ∨ s = "."
  · rwa [push_skip hskip]
  by_cases hup : s = ".."
  · subst hup
    cases kept with
    | nil => cases rooted <;> simp [push, resolved]
    | cons last rest =>
      by_cases hl : last = ".."
      · have hkeep : push rooted (last :: rest) ".." = ".." :: last :: rest := by simp [push, hl]
        rw [hkeep, hlast, h, hkeep]
      -- a name and the `..` behind it are both gone
      · have hdrop : push rooted (last :: rest) ".." = rest := by simp [push, hl]
        have hne := (mem_resolved (h.symm ▸ List.mem_cons_self :
          last ∈ resolved rooted (last :: rest).reverse)).2
        rw [hlast] at h
        unfold push at h
        rw [if_neg (not_or.mpr hne), if_neg hl] at h
        rw [hdrop]
        exact (List.cons.inj h).2
  · have hkeep : push rooted kept s = s :: kept := by simp [push, hskip, hup]
    rw [hkeep, hlast, h, hkeep]

@[simp] theorem resolved_reverse_resolved (rooted : Bool) (names : List String) :
    resolved rooted (resolved rooted names).reverse = resolved rooted names := by
  have hrun : ∀ kept, resolved rooted kept.reverse = kept →
      resolved rooted (names.foldl (push rooted) kept).reverse =
        names.foldl (push rooted) kept := by
    induction names with
    | nil => exact fun kept h => h
    | cons s names ih => exact fun kept h => ih _ (resolved_reverse_push h s)
  exact hrun [] rfl

@[simp] theorem parts_clean (p : String) : parts (clean p) = parts p := by
  have hskip : ∀ (rooted : Bool) (s : String) (names : List String), s = "" ∨ s = "." →
      resolved rooted (s :: names) = resolved rooted names := by
    intro rooted s names hs
    simp [resolved, push_skip hs]
  have hagain : (resolved (isAbsolute p) (parts p)).reverse = parts p := by
    rw [parts_eq, resolved_reverse_resolved]
  rw [parts_eq, isAbsolute_clean, segments_clean]
  by_cases ha : isAbsolute p <;> by_cases hp : parts p = []
  · rw [hp] at hagain
    simpa [ha, hp, hskip] using hagain
  · simpa [ha, hp, hskip] using hagain
  · rw [hp] at hagain
    simpa [ha, hp, hskip] using hagain
  · simpa [ha, hp] using hagain

theorem clean_congr {p q : String} (hparts : parts p = parts q)
    (habs : isAbsolute p = isAbsolute q) : clean p = clean q := by
  unfold clean
  rw [hparts, habs]

@[simp] theorem clean_clean (p : String) : clean (clean p) = clean p :=
  clean_congr (parts_clean p) (isAbsolute_clean p)

/-! ## Names below a path -/

section Below

variable {p q : String}

theorem join_eq_clean (hp : p ≠ "") : Path.join p q = clean (p ++ "/" ++ q) :=
  if_neg hp

theorem join_ne_empty_of_ne (hp : p ≠ "") : Path.join p q ≠ "" :=
  join_eq_clean hp ▸ clean_ne_empty _

theorem clean_join (hp : p ≠ "") : clean (Path.join p q) = Path.join p q := by
  rw [join_eq_clean hp, clean_clean]

theorem isAbsolute_join (hp : p ≠ "") : isAbsolute (Path.join p q) = isAbsolute p := by
  rw [join_eq_clean hp, isAbsolute_clean, String.append_assoc, isAbsolute_append hp]

theorem parts_join (hp : p ≠ "") (hq : ∀ s ∈ segments '/' q, IsName s) :
    parts (Path.join p q) = parts p ++ segments '/' q := by
  have habs : isAbsolute (p ++ "/" ++ q) = isAbsolute p := by
    rw [String.append_assoc, isAbsolute_append hp]
  rw [join_eq_clean hp, parts_clean, parts_eq, habs, segments_slash, resolved_append_names hq,
    parts_eq]
  simp

theorem join_here (hq : isAbsolute q = false) : Path.join "." q = clean q := by
  have hsegments : segments '/' ("." ++ "/" ++ q) = "." :: segments '/' q := by
    rw [segments_slash]
    rfl
  have habs : isAbsolute ("." ++ "/" ++ q) = isAbsolute q := by
    rw [String.append_assoc, isAbsolute_append (by decide), hq]
    decide
  rw [join_eq_clean (by decide)]
  refine clean_congr ?_ habs
  rw [parts_eq, habs, hsegments, parts_eq]
  simp [resolved, push_skip]

/-- Joining parts puts the later ones behind the earlier ones. -/
theorem exists_join_append (ps qs : List String) :
    ∃ rest, Text.join "/" (ps ++ qs) = Text.join "/" ps ++ rest := by
  have hcons : ∀ (a b : String) (rest : List String),
      Text.join "/" (a :: b :: rest) = a ++ "/" ++ Text.join "/" (b :: rest) := by
    intro a b rest
    apply String.toList_injective
    simp [Text.join, List.intercalate_cons_cons]
  have hone : ∀ a : String, Text.join "/" [a] = a := by
    intro a
    simp [Text.join]
  induction ps with
  | nil => exact ⟨Text.join "/" qs, by simp [Text.join]⟩
  | cons a ps ih =>
    cases ps with
    | nil =>
      cases qs with
      | nil => exact ⟨"", by simp⟩
      | cons b qs =>
        exact ⟨"/" ++ Text.join "/" (b :: qs), by simp [hcons, hone, String.append_assoc]⟩
    | cons b ps =>
      obtain ⟨rest, hrest⟩ := ih
      refine ⟨rest, ?_⟩
      rw [List.cons_append, List.cons_append, hcons, hcons, ← List.cons_append, hrest]
      simp [String.append_assoc]

/-- A path is written as its beginning and something behind it, unless the beginning is `.`. -/
theorem clean_eq_here_or_join_eq (hp : p ≠ "") (hq : ∀ s ∈ segments '/' q, IsName s) :
    clean p = "." ∨ ∃ rest, Path.join p q = clean p ++ rest := by
  obtain ⟨rest, hrest⟩ := exists_join_append (parts p) (segments '/' q)
  rw [← clean_join hp]
  unfold clean
  rw [parts_join hp hq, isAbsolute_join hp, hrest]
  by_cases ha : isAbsolute p
  · simp only [ha, if_true]
    exact .inr ⟨rest, String.append_assoc.symm⟩
  · by_cases hbody : Text.join "/" (parts p) = ""
    · exact .inl (by simp [ha, hbody])
    · have hmore : Text.join "/" (parts p) ++ rest ≠ "" := by simp [hbody]
      simp only [ha, hbody, hmore, if_false, Bool.false_eq_true]
      exact .inr ⟨rest, rfl⟩

theorem utf8ByteSize_clean_le (hp : p ≠ "") (hq : ∀ s ∈ segments '/' q, IsName s) :
    (clean p).utf8ByteSize ≤ (Path.join p q).utf8ByteSize := by
  rcases clean_eq_here_or_join_eq hp hq with hhere | ⟨rest, hrest⟩
  · have hone : ".".utf8ByteSize = 1 := by decide
    have hpos : (Path.join p q).utf8ByteSize ≠ 0 := by simpa using join_ne_empty_of_ne hp
    rw [hhere]
    omega
  · rw [hrest, String.utf8ByteSize_append]
    omega

/-- A path has no characters but those of its beginning and of its names. -/
theorem mem_join_names (hp : p ≠ "") (hq : ∀ s ∈ segments '/' q, IsName s) {c : Char}
    (h : c ∈ (Path.join p q).toList) : c ∈ (clean p).toList ∨ c ∈ q.toList ∨ c = '/' := by
  have hparts := parts_join hp hq
  have hne : parts (Path.join p q) ≠ [] := by simp [hparts]
  rw [← join_segments (Path.join p q)] at h
  rcases mem_join h with hslash | ⟨s, hs, hc⟩
  · exact .inr (.inr hslash)
  · rw [← clean_join hp, segments_clean] at hs
    have hs : s = "" ∨ s ∈ parts (Path.join p q) := by
      simp only [hne, if_false] at hs
      split_ifs at hs
      · exact List.mem_cons.mp hs
      · exact .inr hs
    rcases hs with rfl | hs
    · simp at hc
    · rw [hparts, List.mem_append] at hs
      rcases hs with hs | hs
      · exact .inl (mem_of_mem_segments (mem_segments_clean hs) hc)
      · exact .inr (.inl (mem_of_mem_segments hs hc))

/-- All characters of the names are there. -/
theorem mem_join_of_mem (hp : p ≠ "") (hq : ∀ s ∈ segments '/' q, IsName s) {c : Char}
    (h : c ∈ q.toList) : c ∈ (Path.join p q).toList ∨ c = '/' := by
  rw [← join_segments q] at h
  rcases mem_join h with hslash | ⟨s, hs, hc⟩
  · exact .inr hslash
  · have hpart : s ∈ parts (Path.join p q) := by
      rw [parts_join hp hq]
      exact List.mem_append_right _ hs
    exact .inl (mem_of_mem_segments (clean_join hp ▸ mem_segments_clean hpart) hc)

/-- Names below names below a path. -/
theorem join_join {r : String} (hp : p ≠ "") (hq : ∀ s ∈ segments '/' q, IsName s)
    (hr : ∀ s ∈ segments '/' r, IsName s) :
    Path.join (Path.join p q) r = Path.join p (q ++ "/" ++ r) := by
  have hpq : Path.join p q ≠ "" := join_ne_empty_of_ne hp
  have hqr : ∀ s ∈ segments '/' (q ++ "/" ++ r), IsName s := by
    rw [segments_slash]
    exact List.forall_mem_append.mpr ⟨hq, hr⟩
  have hparts : parts (Path.join (Path.join p q) r) = parts (Path.join p (q ++ "/" ++ r)) := by
    rw [parts_join hpq hr, parts_join hp hq, parts_join hp hqr, segments_slash, List.append_assoc]
  have habs : isAbsolute (Path.join (Path.join p q) r) =
      isAbsolute (Path.join p (q ++ "/" ++ r)) := by
    rw [isAbsolute_join hpq, isAbsolute_join hp, isAbsolute_join hp]
  calc Path.join (Path.join p q) r
      = clean (Path.join (Path.join p q) r) := (clean_join hpq).symm
    _ = clean (Path.join p (q ++ "/" ++ r)) := clean_congr hparts habs
    _ = Path.join p (q ++ "/" ++ r) := clean_join hp

theorem not_isAbsolute_of_names (hq : ∀ s ∈ segments '/' q, IsName s) : isAbsolute q = false := by
  by_contra habs
  rw [Bool.not_eq_false] at habs
  obtain ⟨rest, hrest⟩ := List.isPrefixOf_iff_prefix.mp habs
  have hcut : q = "" ++ "/" ++ String.ofList rest := by
    apply String.toList_injective
    simpa using hrest.symm
  rw [hcut, segments_slash] at hq
  exact (hq "" (List.mem_append_left _ (by decide))).nonempty rfl

theorem clean_eq_self_of_names (hq : ∀ s ∈ segments '/' q, IsName s) : clean q = q := by
  have hparts : parts q = segments '/' q := by
    rw [parts_eq, ← List.nil_append (segments '/' q), resolved_append_names hq []]
    simp [resolved]
  have hne : q ≠ "" := by
    rintro rfl
    exact (hq "" (by decide)).nonempty rfl
  unfold clean
  rw [hparts, not_isAbsolute_of_names hq, join_segments]
  simp [hne]

end Below

end Path

end Deadwood
