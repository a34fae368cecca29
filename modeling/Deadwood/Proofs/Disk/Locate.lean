import Deadwood.Proofs.Disk.Frame
import Deadwood.Proofs.Path

/-!
# Where paths lead

Cleaning a path does not change where it leads, because `..` behind a name goes back to the place
that the name was looked up in. So the directory of a path that leads to a file is the place right
above that file.

## Main results

* `Disk.locate_clean`: a cleaned path leads to the same place.
* `Disk.find_dir`: the directory of a path.
* `Disk.suffix_of_locate`: names at the end of a path are names at the end of its place.
* `Disk.locate_join_eq_ok`, `Disk.locate_join_of_locate_eq`: paths with names behind them.
-/

namespace Deadwood.Disk

open Text Deadwood.Path

variable {d : Disk} {start cur l m : Location} {name path : String} {names : List String}

/-! ## One name -/

theorem directory_of_follow (h : d.follow start (name :: names) = .ok l) :
    d.node? start = some .directory := by
  unfold follow at h
  split at h
  · simp at h
  · simp at h
  · assumption

theorem follow_skip (hs : name = "" ∨ name = ".") (hd : d.node? start = some .directory) :
    d.follow start (name :: names) = d.follow start names := by
  rcases hs with rfl | rfl <;> simp [follow, hd]

theorem follow_up (hd : d.node? start = some .directory) :
    d.follow start (".." :: names) = d.follow start.dropLast names := by
  simp [follow, hd]

theorem follow_name (hn : IsName name) (h : d.follow start (name :: names) = .ok l) :
    d.follow (start ++ [name]) names = .ok l := by
  have hd := directory_of_follow h
  unfold follow at h
  rw [hd] at h
  simp only [hn.nonempty, hn.notHere, hn.notUp, decide_false, Bool.or_false, if_false,
    Bool.false_eq_true] at h
  split_ifs at h
  exact h

theorem follow_append (xs ys : List String) :
    d.follow start (xs ++ ys) = (d.follow start xs).bind fun m => d.follow m ys := by
  induction xs generalizing start with
  | nil => rfl
  | cons x xs ih =>
    simp only [List.cons_append, follow]
    split
    · rfl
    · rfl
    · split_ifs <;> first | exact ih | rfl

theorem follow_append_eq_ok {xs ys : List String} :
    d.follow start (xs ++ ys) = .ok l ↔
      ∃ m, d.follow start xs = .ok m ∧ d.follow m ys = .ok l := by
  rw [follow_append]
  cases d.follow start xs <;> simp [Except.bind]

theorem follow_append_name (hn : IsName name) (h : d.follow start (names ++ [name]) = .ok l) :
    ∃ m, d.follow start names = .ok m ∧ d.node? m = some .directory ∧ l = m ++ [name] := by
  obtain ⟨m, hm, hl⟩ := follow_append_eq_ok.mp h
  refine ⟨m, hm, directory_of_follow hl, ?_⟩
  have := follow_name hn hl
  simpa [follow] using this.symm

/-! ## Places above a place -/

/-- All places above a place are directories. -/
def HasParents (d : Disk) (l : Location) : Prop :=
  ∀ pre s, pre ++ [s] <+: l → d.node? pre = some .directory

theorem HasParents.dropLast (h : HasParents d l) : HasParents d l.dropLast :=
  fun pre s hp => h pre s (hp.trans (List.dropLast_prefix l))

theorem HasParents.append_name (h : HasParents d l) (hd : d.node? l = some .directory)
    (s : String) : HasParents d (l ++ [s]) := by
  intro pre t hp
  rcases List.prefix_concat_iff.mp hp with he | hp
  · obtain ⟨rfl, -⟩ := List.append_inj' he rfl
    exact hd
  · exact h pre t hp

theorem HasParents.follow (hs : HasParents d start) (h : d.follow start names = .ok l) :
    HasParents d l := by
  induction names generalizing start with
  | nil =>
    cases h
    exact hs
  | cons name names ih =>
    have hd := directory_of_follow h
    unfold Disk.follow at h
    rw [hd] at h
    simp only at h
    split_ifs at h
    · exact ih hs h
    · exact ih hs.dropLast h
    · exact ih (hs.append_name hd name) h

theorem hasParents_workDir (d : Disk) : HasParents d d.workDir := by
  intro pre s hp
  exact node?_of_isPrefixOf (List.isPrefixOf_iff_prefix.mpr ((List.prefix_append _ _).trans hp))

theorem hasParents_root (d : Disk) : HasParents d [] := by
  intro pre s hp
  simp at hp

/-- The place where following a path begins. -/
def startOf (d : Disk) (path : String) : Location :=
  if isAbsolute path then [] else d.workDir

theorem hasParents_startOf (d : Disk) (path : String) : HasParents d (d.startOf path) := by
  unfold startOf
  split_ifs
  · exact hasParents_root d
  · exact hasParents_workDir d

@[simp] theorem node?_startOf (d : Disk) (path : String) :
    d.node? (d.startOf path) = some .directory := by
  unfold startOf
  split_ifs
  · exact node?_root
  · exact node?_workDir

theorem locate_eq_ok :
    d.locate path = .ok l ↔
      path ≠ "" ∧ '\x00' ∉ path.toList ∧ byteLength path ≤ pathLimit ∧
        d.follow (d.startOf path) (segments '/' path) = .ok l := by
  unfold locate startOf
  by_cases h₁ : path = ""
  · simp [h₁]
  by_cases h₂ : '\x00' ∈ path.toList
  · simp [h₁, h₂]
  by_cases h₃ : pathLimit < byteLength path
  · have hlong : ¬ byteLength path ≤ pathLimit := Nat.not_le_of_lt h₃
    simp [h₁, h₂, h₃, hlong]
  · have hshort : byteLength path ≤ pathLimit := Nat.le_of_not_lt h₃
    simp [h₁, h₂, h₃, hshort]

/-! ## Cleaned paths -/

/-- Following what is left after one more part leads to where that part leads. -/
theorem follow_push {rooted : Bool} {kept : List String}
    (hr : rooted = true → start = []) (hkept : ∀ t ∈ kept, t ≠ "" ∧ t ≠ "." ∧ '/' ∉ t.toList)
    (hcur : d.follow start kept.reverse = .ok cur) (h : d.follow cur [name] = .ok l) :
    d.follow start (push rooted kept name).reverse = .ok l := by
  have hd := directory_of_follow h
  by_cases h₁ : name = "" ∨ name = "."
  · rw [push_skip h₁]
    rw [follow_skip h₁ hd] at h
    cases h
    exact hcur
  by_cases h₂ : name = ".."
  · subst h₂
    rw [follow_up hd] at h
    obtain rfl : cur.dropLast = l := by simpa [Disk.follow] using h
    unfold push
    rw [if_neg h₁, if_pos rfl]
    cases kept with
    | nil =>
      obtain rfl : start = cur := by simpa [Disk.follow] using hcur
      cases rooted
      · simp [follow_up hd, Disk.follow]
      · simp [hr rfl, Disk.follow]
    | cons last rest =>
      by_cases hl : last = ".."
      · simp only [hl, if_true, List.reverse_cons] at hcur ⊢
        exact follow_append_eq_ok.mpr ⟨cur, hcur, by rw [follow_up hd]; rfl⟩
      -- going up from behind a name undoes that name
      · obtain ⟨hne, hhere, hslash⟩ := hkept last (by simp)
        rw [List.reverse_cons] at hcur
        obtain ⟨m, hm, -, rfl⟩ := follow_append_name ⟨hne, hhere, hl, hslash⟩ hcur
        simpa [hl] using hm
  · unfold push
    rw [if_neg h₁, if_neg h₂, List.reverse_cons]
    exact follow_append_eq_ok.mpr ⟨cur, hcur, h⟩

theorem follow_foldl_push {rooted : Bool} {kept : List String}
    (hr : rooted = true → start = []) (hkept : ∀ t ∈ kept, t ≠ "" ∧ t ≠ "." ∧ '/' ∉ t.toList)
    (hnames : ∀ t ∈ names, '/' ∉ t.toList)
    (hcur : d.follow start kept.reverse = .ok cur) (h : d.follow cur names = .ok l) :
    d.follow start (names.foldl (push rooted) kept).reverse = .ok l := by
  induction names generalizing kept cur with
  | nil =>
    cases h
    exact hcur
  | cons name names ih =>
    rw [← List.singleton_append] at h
    obtain ⟨m, hm, hl⟩ := follow_append_eq_ok.mp h
    refine ih ?_ (fun t ht => hnames t (List.mem_cons_of_mem _ ht))
      (follow_push hr hkept hcur hm) hl
    intro t ht
    rcases mem_push ht with ht | ⟨rfl, hne⟩
    · exact hkept t ht
    · exact ⟨hne.1, hne.2, hnames t (by simp)⟩

/-- The parts of a path and those that are left of them lead to the same place. -/
theorem follow_parts (h : d.follow (d.startOf path) (segments '/' path) = .ok l) :
    d.follow (d.startOf path) (parts path) = .ok l := by
  have hstart : d.follow (d.startOf path) ([] : List String).reverse = .ok (d.startOf path) := rfl
  refine follow_foldl_push ?_ (by simp) (fun t ht => not_mem_of_mem_segments ht) hstart h
  intro ha
  simp [startOf, ha]

theorem locate_clean_eq_ok :
    d.locate (clean path) = .ok l ↔ '\x00' ∉ (clean path).toList ∧
      byteLength (clean path) ≤ pathLimit ∧ d.follow (d.startOf path) (parts path) = .ok l := by
  have hstart : d.startOf (clean path) = d.startOf path := by simp [startOf]
  have hfollow : d.follow (d.startOf path) (segments '/' (clean path)) =
      d.follow (d.startOf path) (parts path) := by
    have hd := node?_startOf d path
    rw [segments_clean]
    by_cases ha : isAbsolute path <;> by_cases hp : parts path = []
    · simp [ha, hp, Disk.follow, hd]
    · simp [ha, hp, follow_skip, hd]
    · simp [ha, hp, follow_skip, hd]
    · simp [ha, hp]
  rw [locate_eq_ok, hstart, hfollow]
  exact and_iff_right (clean_ne_empty path)

/-- Cleaning a path does not change where it leads. -/
theorem locate_clean (h : d.follow (d.startOf path) (segments '/' path) = .ok l)
    (hnul : '\x00' ∉ path.toList) (hlen : byteLength (clean path) ≤ pathLimit) :
    d.locate (clean path) = .ok l := by
  refine locate_clean_eq_ok.mpr ⟨fun hc => ?_, hlen, follow_parts h⟩
  rcases mem_clean hc with hc | hc | hc
  · exact hnul hc
  · exact absurd hc (by decide)
  · exact absurd hc (by decide)

/-! ## The directory of a path -/

/-- The last part of a path that does not lead to a directory is a name. -/
theorem isName_of_follow (hs : HasParents d m) (hslash : '/' ∉ name.toList)
    (h : d.follow m [name] = .ok l) (hl : d.node? l ≠ some .directory) : IsName name := by
  have hd := directory_of_follow h
  refine ⟨?_, ?_, ?_, hslash⟩
  · rintro rfl
    rw [follow_skip (.inl rfl) hd] at h
    cases h
    exact hl hd
  · rintro rfl
    rw [follow_skip (.inr rfl) hd] at h
    cases h
    exact hl hd
  · rintro rfl
    rw [follow_up hd] at h
    cases h
    rcases List.eq_nil_or_concat m with rfl | ⟨pre, s, rfl⟩
    · exact hl node?_root
    · rw [List.concat_eq_append, List.dropLast_concat] at hl
      exact hl (hs pre s (by simp))

@[simp] theorem find_here : d.find "." = .ok (d.workDir, .directory) := by
  refine find_eq_ok.mpr ⟨locate_eq_ok.mpr ⟨by decide, by decide, by decide, ?_⟩, node?_workDir⟩
  have hs : segments '/' "." = ["."] := by decide
  have ha : isAbsolute "." = false := by decide
  rw [hs, startOf, ha, if_neg (by simp), follow_skip (.inr rfl) node?_workDir]
  rfl

/-- The directory of a path that leads to something else than a directory is found right above. -/
theorem find_dir (h : d.locate path = .ok l) (hl : d.node? l ≠ some .directory)
    (hlen : byteLength (Path.dir path) ≤ pathLimit) :
    d.find (Path.dir path) = .ok (l.dropLast, .directory) := by
  obtain ⟨-, hnul, -, hf⟩ := locate_eq_ok.mp h
  obtain ⟨above, last, hseg⟩ := (List.eq_nil_or_concat (segments '/' path)).resolve_left
    (segments_ne_nil '/' path)
  rw [List.concat_eq_append] at hseg
  rw [hseg] at hf
  obtain ⟨m, hm, hlast⟩ := follow_append_eq_ok.mp hf
  have hmp : HasParents d m := (hasParents_startOf d path).follow hm
  have hname : IsName last :=
    isName_of_follow hmp (not_mem_of_mem_segments (s := path) (by simp [hseg])) hlast hl
  obtain ⟨m', hm', hd, rfl⟩ := follow_append_name hname hf
  obtain rfl : m = m' := by simpa using hm.symm.trans hm'
  rw [List.dropLast_concat]
  unfold Path.dir at hlen ⊢
  rw [hseg, List.dropLast_concat] at hlen ⊢
  match habove : above with
  | [] =>
    -- a path of one part is not absolute
    have hrel : isAbsolute path = false := by
      have : path = last := by rw [← join_segments path, hseg]; simp [Text.join]
      rw [this]
      cases hla : isAbsolute last with
      | false => rfl
      | true =>
        obtain ⟨rest, hrest⟩ := List.isPrefixOf_iff_prefix.mp hla
        exact absurd (by simp [← hrest]) hname.noSlash
    have : d.workDir = m := by simpa [Disk.follow, startOf, hrel] using hm
    rw [← this]
    exact find_here
  | a :: above' =>
    simp only at hlen ⊢
    have hslash : ∀ p ∈ a :: above', '/' ∉ p.toList := fun p hp =>
      not_mem_of_mem_segments (s := path) (by rw [hseg]; exact List.mem_append_left _ hp)
    have hq : segments '/' (Text.join "/" (a :: above') ++ "/") = (a :: above') ++ [""] := by
      have hcut := segments_slash (Text.join "/" (a :: above')) ""
      have hend : segments '/' "" = [""] := rfl
      rwa [segments_join (by simp) hslash, hend, String.append_empty] at hcut
    have hpath : path = Text.join "/" (a :: above') ++ "/" ++ last := by
      rw [← join_segments path, hseg, ← join_segments (Text.join "/" (a :: above') ++ "/" ++ last),
        segments_slash, segments_join (by simp) hslash, segments_eq_singleton hname.noSlash]
    have hstart : d.startOf (Text.join "/" (a :: above') ++ "/") = d.startOf path := by
      have hne : Text.join "/" (a :: above') ++ "/" ≠ "" := by
        intro he
        have := congrArg String.toList he
        simp at this
      unfold startOf
      rw [hpath, isAbsolute_append hne]
    refine find_eq_ok.mpr ⟨locate_clean ?_ ?_ hlen, hd⟩
    · rw [hstart, hq]
      exact follow_append_eq_ok.mpr ⟨m, hm, by rw [follow_skip (.inl rfl) hd]; rfl⟩
    · intro hc
      apply hnul
      rw [hpath, String.toList_append]
      exact List.mem_append_left _ hc

/-! ## Names at the end of a path -/

theorem suffix_of_follow (hn : ∀ s ∈ names, IsName s)
    (h : d.follow start names = .ok l) : l = start ++ names := by
  induction names generalizing start with
  | nil => simpa [Disk.follow] using h.symm
  | cons name names ih =>
    have := ih (fun s hs => hn s (List.mem_cons_of_mem _ hs)) (follow_name (hn name (by simp)) h)
    simpa using this

/-- Names at the end of a path are names at the end of the place that it leads to. -/
theorem suffix_of_locate {pre : List String} (hseg : segments '/' path = pre ++ names)
    (hn : ∀ s ∈ names, IsName s) (h : d.locate path = .ok l) : names <:+ l := by
  obtain ⟨-, -, -, hf⟩ := locate_eq_ok.mp h
  rw [hseg] at hf
  obtain ⟨m, -, hm⟩ := follow_append_eq_ok.mp hf
  exact ⟨m, (suffix_of_follow hn hm).symm⟩

/-- A place on a path consists of names that its start and the path have. -/
theorem mem_of_follow {s : String} (h : d.follow start names = .ok l) (hs : s ∈ l) :
    s ∈ start ∨ s ∈ names := by
  induction names generalizing start with
  | nil =>
    cases h
    exact .inl hs
  | cons name names ih =>
    have hd := directory_of_follow h
    unfold follow at h
    rw [hd] at h
    simp only at h
    split_ifs at h
    · exact (ih h).imp_right (List.mem_cons_of_mem _)
    · exact (ih h).imp (List.dropLast_subset _ ·) (List.mem_cons_of_mem _)
    · rcases ih h with hs | hs
      · rcases List.mem_append.mp hs with hs | hs
        · exact .inl hs
        · exact .inr (by simp_all)
      · exact .inr (List.mem_cons_of_mem _ hs)

/-- A path that does not mention a name leads to places without it. -/
theorem not_mem_of_locate {s : String} (hwork : s ∉ d.workDir) (hpath : s ∉ segments '/' path)
    (h : d.locate path = .ok l) : s ∉ l := by
  obtain ⟨-, -, -, hf⟩ := locate_eq_ok.mp h
  intro hs
  rcases mem_of_follow hf hs with hs | hs
  · unfold startOf at hs
    split_ifs at hs
    · simp at hs
    · exact hwork hs
  · exact hpath hs

/-! ## Names below a path -/

section Below

variable {p q : String}

/-- A path that can be followed leads to where it leads once it is cleaned. -/
theorem eq_of_locate_clean (hm : d.locate (clean p) = .ok m) (hl : d.locate p = .ok l) : m = l := by
  obtain ⟨-, hnul, -, hf⟩ := locate_eq_ok.mp hl
  have h := locate_clean hf hnul (locate_clean_eq_ok.mp hm).2.1
  exact Except.ok.inj (hm.symm.trans h)

theorem locate_join_iff (hp : p ≠ "") (hq : ∀ s ∈ segments '/' q, IsName s) :
    d.locate (Path.join p q) = .ok l ↔ '\x00' ∉ (Path.join p q).toList ∧
      byteLength (Path.join p q) ≤ pathLimit ∧
        d.follow (d.startOf p) (parts p ++ segments '/' q) = .ok l := by
  have hstart : d.startOf (Path.join p q) = d.startOf p := by simp [startOf, isAbsolute_join hp]
  have h : d.locate (clean (Path.join p q)) = .ok l ↔ _ := locate_clean_eq_ok
  rwa [clean_join hp, hstart, parts_join hp hq] at h

/-- A path with names behind it can be followed only if the path can. -/
theorem locate_join_eq_ok (hp : p ≠ "") (hq : ∀ s ∈ segments '/' q, IsName s)
    (h : d.locate (Path.join p q) = .ok l) :
    ∃ m, d.locate (clean p) = .ok m ∧ d.follow m (segments '/' q) = .ok l := by
  obtain ⟨hnul, hlen, hf⟩ := (locate_join_iff hp hq).mp h
  obtain ⟨m, hm, hl⟩ := follow_append_eq_ok.mp hf
  have hlen' : byteLength (clean p) ≤ pathLimit := Nat.le_trans (utf8ByteSize_clean_le hp hq) hlen
  refine ⟨m, locate_clean_eq_ok.mpr ⟨?_, hlen', hm⟩, hl⟩
  rcases clean_eq_here_or_join_eq hp hq with hhere | ⟨rest, hrest⟩
  · rw [hhere]
    decide
  · rw [hrest] at hnul
    exact fun hc => hnul (by simp [hc])

theorem locate_join_name (hp : p ≠ "") (hn : IsName name)
    (h : d.locate (Path.join p name) = .ok l) :
    ∃ m, d.locate (clean p) = .ok m ∧ d.node? m = some .directory ∧ l = m ++ [name] := by
  have hseg : segments '/' name = [name] := segments_eq_singleton hn.noSlash
  obtain ⟨m, hm, hl⟩ := locate_join_eq_ok hp (by simpa [hseg] using hn) h
  rw [hseg] at hl
  exact ⟨m, hm, directory_of_follow hl, suffix_of_follow (by simpa using hn) hl⟩

/-- Where names can be followed below one path, they can be below another one that leads to the same
place, as long as it is not too long. -/
theorem locate_join_of_locate_eq {p' : String} (hp : p ≠ "") (hp' : p' ≠ "")
    (hq : ∀ s ∈ segments '/' q, IsName s) (h : d.locate (Path.join p q) = .ok l)
    (hsame : d.locate (clean p') = d.locate (clean p))
    (hlen : byteLength (Path.join p' q) ≤ pathLimit) : d.locate (Path.join p' q) = .ok l := by
  obtain ⟨hnul, -, -⟩ := (locate_join_iff hp hq).mp h
  obtain ⟨m, hm, hl⟩ := locate_join_eq_ok hp hq h
  obtain ⟨hnul', -, hf⟩ := locate_clean_eq_ok.mp (hsame.trans hm)
  refine (locate_join_iff hp' hq).mpr ⟨fun hc => ?_, hlen, follow_append_eq_ok.mpr ⟨m, hf, hl⟩⟩
  rcases mem_join_names hp' hq hc with hc | hc | hc
  · exact hnul' hc
  · rcases mem_join_of_mem hp hq hc with hc | hc
    · exact hnul hc
    · exact absurd hc (by decide)
  · exact absurd hc (by decide)

end Below

end Deadwood.Disk
