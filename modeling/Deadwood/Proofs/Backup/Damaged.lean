import Deadwood.Pruning.Run
import Deadwood.Proofs.Backup.Manifest
import Deadwood.Proofs.Disk.Replace
import Deadwood.Proofs.Pruning.Lines
import Deadwood.Proofs.Zstd

/-!
# Damaged backups

Whatever has become of the files of a backup, it never gives a path wrong content. A captured file
is put back only if its blob decodes to bytes with the digest of the manifest; otherwise the path
stays as it is. Files do not get into each other's way: whether one is put back depends on its own
blob and its own path. The same goes for files that are written without some of their lines.

A file is put back with all bits of its mode in the manifest that a file can be given. A mode may
have more bits, which are ignored.

## Main definitions

* `Disk.SameBut`: two disks that differ in the files at some places only.
* `AreDistinct`: paths that lead to different places.
* `Backup.Offers`: a backup from which a file can be written.
* `Backup.putBack`: the paths whose files are put back.
* `Backup.BlobStays`: no file that is put back takes the place of a blob.

## Main results

* `writeWithout_cases`: what becomes of a file that is to be written.
* `Backup.restoreFile_eq_writeWithout`: putting a file back is writing it with all its lines.
* `Backup.offers_of_mem_putBack`, `Backup.mem_putBack_of_offers`: which files are put back.
* `Backup.BlobStays.of_outside`: captured files outside of the backup.
* `damaged_backup_restores_intact_files`: what becomes of all captured files.
* `restore_drops_mode_bits`: a mode that is not put back.
-/

namespace Deadwood

open Disk (HasRoom)

/-! ## Disks that differ in files -/

namespace Disk

variable {ch ch' : Location → Prop} {d d' d'' : Disk} {l : Location} {p : String}

/-- Two disks with the same directories, and the same files but at the places in `changed`. -/
structure SameBut (changed : Location → Prop) (d d' : Disk) : Prop where
  forth : Frame changed d d'
  back : Frame changed d' d

namespace SameBut

theorem refl (ch : Location → Prop) (d : Disk) : SameBut ch d d :=
  ⟨.refl ch d, .refl ch d⟩

theorem trans (h : SameBut ch d d') (g : SameBut ch d' d'') : SameBut ch d d'' :=
  ⟨h.forth.trans g.forth, g.back.trans h.back⟩

theorem mono (h : SameBut ch d d') (hm : ∀ l, ch l → ch' l) : SameBut ch' d d' :=
  ⟨h.forth.mono hm, h.back.mono hm⟩

/-- What was changed are files. -/
theorem of_frame (h : Frame ch d d') (hfile : ∀ l, ch l → d'.node? l ≠ some .directory) :
    SameBut ch d d' := by
  refine ⟨h, h.workDir.symm, fun l hl => ?_, fun l hl => (h.same l hl).symm⟩
  have hsame : ¬ ch l := fun hch => hfile l hch hl
  rwa [← h.same l hsame]

theorem locate_iff (h : SameBut ch d d') : d'.locate p = .ok l ↔ d.locate p = .ok l :=
  ⟨h.back.locate, h.forth.locate⟩

theorem directory_iff (h : SameBut ch d d') :
    d'.node? l = some .directory ↔ d.node? l = some .directory :=
  ⟨h.back.directory l, h.forth.directory l⟩

theorem find_iff (h : SameBut ch d d') (hp : ∀ l, d.locate p = .ok l → ¬ ch l) {n : DiskNode} :
    d'.find p = .ok (l, n) ↔ d.find p = .ok (l, n) := by
  rw [find_eq_ok, find_eq_ok, h.locate_iff]
  refine and_congr_right fun hl => ?_
  rw [h.forth.same l (hp l hl)]

theorem toOption_find (h : SameBut ch d d') (hp : ∀ l, d.locate p = .ok l → ¬ ch l) :
    (d'.find p).toOption = (d.find p).toOption := by
  have hsome : ∀ (d : Disk) x, (d.find p).toOption = some x ↔ d.find p = .ok x := by
    intro d x
    cases d.find p <;> simp [Except.toOption]
  refine Option.ext ?_
  rintro ⟨l, n⟩
  rw [hsome, hsome, h.find_iff hp]

theorem readFile_iff (h : SameBut ch d d') (hp : ∀ l, d.locate p = .ok l → ¬ ch l) {c : Bytes} :
    d'.readFile p = .ok c ↔ d.readFile p = .ok c := by
  simp only [readFile_eq_ok, h.find_iff hp]

end SameBut

end Disk

open Disk (SameBut)

/-- Different paths, which lead to different places if they lead anywhere. -/
structure AreDistinct (ps : List String) (d : Disk) : Prop where
  nodup : ps.Nodup
  apart : ∀ p ∈ ps, ∀ q ∈ ps, ∀ l, d.locate p = .ok l → d.locate q = .ok l → p = q

namespace AreDistinct

/-- Names of files in the working directory. -/
theorem of_names {ps : List String} {d : Disk} (hnodup : ps.Nodup)
    (hplace : ∀ p ∈ ps, d.locate p = .ok (d.workDir ++ [p])) : AreDistinct ps d := by
  refine ⟨hnodup, fun p hp q hq l hl hl' => ?_⟩
  rw [hplace p hp] at hl
  rw [hplace q hq, ← hl] at hl'
  have hnames := List.append_cancel_left (Except.ok.inj hl')
  exact (List.cons.inj hnames).1.symm

variable {p : String} {ps : List String} {ch : Location → Prop} {d d' : Disk}

theorem tail (h : AreDistinct (p :: ps) d) : AreDistinct ps d where
  nodup := (List.nodup_cons.mp h.nodup).2
  apart q hq q' hq' := h.apart q (List.mem_cons_of_mem p hq) q' (List.mem_cons_of_mem p hq')

theorem head_not_mem (h : AreDistinct (p :: ps) d) : p ∉ ps :=
  (List.nodup_cons.mp h.nodup).1

theorem sameBut (h : AreDistinct ps d) (hd : SameBut ch d d') : AreDistinct ps d' where
  nodup := h.nodup
  apart q hq q' hq' l hl hl' :=
    h.apart q hq q' hq' l (hd.locate_iff.mp hl) (hd.locate_iff.mp hl')

end AreDistinct

/-! ## One file -/

namespace Backup

variable {b : Backup} {d d' : Disk} {p : String} {rs : List LineRange} {file : BackupFile}
  {c : Bytes} {l : Location}

/-- The file of a path can be written as its captured content `c` without some ranges: its blob
decodes to bytes with the right digest, the ranges lie within them, and the path leads to a place
`l` where a file can be replaced. -/
structure Offers (b : Backup) (d : Disk) (p : String) (rs : List LineRange) (file : BackupFile)
    (c : Bytes) (l : Location) : Prop where
  listed : b.manifest.file? p = some file
  decodes : ∃ blob, d.readFile (Path.join b.dir file.blob) = .ok blob ∧ Zstd.decode blob = .ok c
  digest : Blake3.hex c = file.digest
  fits : ∀ r ∈ rs, r.fits (lines c).length
  room : HasRoom p
  place : d.locate p = .ok l
  free : d.node? l ≠ some .directory

theorem Offers.unique {file' : BackupFile} {c' : Bytes} {l' : Location}
    (h : b.Offers d p rs file c l) (h' : b.Offers d p rs file' c' l') :
    file = file' ∧ c = c' ∧ l = l' := by
  obtain rfl : file = file' := Option.some.inj (h.listed.symm.trans h'.listed)
  obtain ⟨blob, hread, hdecode⟩ := h.decodes
  obtain ⟨blob', hread', hdecode'⟩ := h'.decodes
  obtain rfl : blob = blob' := Except.ok.inj (hread.symm.trans hread')
  exact ⟨rfl, Except.ok.inj (hdecode.symm.trans hdecode'),
    Except.ok.inj (h.place.symm.trans h'.place)⟩

theorem content_eq_ok_iff :
    b.content p d = .ok c ↔ ∃ file, b.manifest.file? p = some file ∧
      (∃ blob, d.readFile (Path.join b.dir file.blob) = .ok blob ∧ Zstd.decode blob = .ok c) ∧
      Blake3.hex c = file.digest := by
  unfold content
  cases b.manifest.file? p with
  | none => simp
  | some file =>
    simp only [Option.some.injEq, exists_eq_left']
    cases d.readFile (Path.join b.dir file.blob) with
    | error f => simp
    | ok blob =>
      simp only [Except.ok.injEq, exists_eq_left']
      cases Zstd.decode blob with
      | error problem => simp
      | ok x =>
        simp only [Except.ok.injEq]
        split_ifs with hdigest
        · rw [Except.ok.injEq]
          exact ⟨fun h => ⟨h, h ▸ hdigest⟩, fun h => h.1⟩
        · rw [false_iff]
          rintro ⟨rfl, h⟩
          exact hdigest h

theorem Offers.content (h : b.Offers d p rs file c l) : b.content p d = .ok c :=
  content_eq_ok_iff.mpr ⟨file, h.listed, h.decodes, h.digest⟩

theorem modeOf_of_file? (h : b.manifest.file? p = some file) : b.modeOf p = file.mode := by
  rw [modeOf, h]
  rfl

end Backup

/-- A file is written from intact content, and nothing else changes; or it cannot be written, and
nothing changes at all. -/
theorem writeWithout_cases (b : Backup) (p : String) (rs : List LineRange) (d : Disk) :
    (∃ f d', writeWithout b p rs d = (some f, d') ∧ SameBut (fun _ => False) d d' ∧
        ¬ ∃ file c l, b.Offers d p rs file c l) ∨
      ∃ file c l d', writeWithout b p rs d = (none, d') ∧ SameBut (· = l) d d' ∧
        b.Offers d p rs file c l ∧
        d'.node? l = some (.file (linesOutside c rs) (Disk.settable file.mode)) := by
  unfold writeWithout
  cases hcontent : b.content p d with
  | error f =>
    refine .inl ⟨f, d, rfl, .refl _ d, ?_⟩
    rintro ⟨file, c, l, h⟩
    cases h.content.symm.trans hcontent
  | ok c =>
    obtain ⟨file, hlisted, hdecodes, hdigest⟩ := Backup.content_eq_ok_iff.mp hcontent
    dsimp only
    cases hkept : removeLines c rs with
    | error problem =>
      refine .inl ⟨_, d, rfl, .refl _ d, ?_⟩
      rintro ⟨file', c', l, h⟩
      obtain rfl : c' = c := Except.ok.inj (h.content.symm.trans hcontent)
      cases (removeLines_eq_ok.mpr ⟨h.fits, rfl⟩).symm.trans hkept
    | ok kept =>
      obtain ⟨hfits, rfl⟩ := removeLines_eq_ok.mp hkept
      dsimp only
      rcases Disk.replaceFile_cases d p (linesOutside c rs) (b.modeOf p) with
        ⟨f, d', hreplace, hframe⟩ | ⟨l, d', hreplace, room, hl, hfree, hframe, hnode⟩
      · refine .inl ⟨f, d', hreplace, .of_frame hframe fun _ h => h.elim, ?_⟩
        rintro ⟨file', c', l, h⟩
        obtain ⟨d'', hdone, -⟩ :=
          Disk.replaceFile_succeeds (linesOutside c rs) (b.modeOf p) h.room h.place h.free
        cases hreplace.symm.trans hdone
      · rw [Backup.modeOf_of_file? hlisted] at hnode
        refine .inr ⟨file, c, l, d', hreplace, .of_frame hframe ?_,
          ⟨hlisted, hdecodes, hdigest, hfits, room, hl, hfree⟩, hnode⟩
        rintro _ rfl hdir
        cases hnode.symm.trans hdir

namespace Backup

variable {b : Backup} {d d' : Disk} {p : String} {ps : List String} {file : BackupFile} {c : Bytes}
  {l : Location}

/-- The check of what was written never fails: it is what was read, and that had the digest. -/
theorem restoreFile_eq_writeWithout (b : Backup) (p : String) (d : Disk) :
    b.restoreFile p d = writeWithout b p [] d := by
  unfold restoreFile writeWithout
  cases hcontent : b.content p d with
  | error f => rfl
  | ok c =>
    obtain ⟨file, hlisted, -, hdigest⟩ := content_eq_ok_iff.mp hcontent
    have hkept : removeLines c [] = .ok c := removeLines_eq_ok.mpr (by simp)
    dsimp only
    rw [hkept]
    dsimp only
    rcases Disk.replaceFile_cases d p c (b.modeOf p) with
      ⟨f, d', hreplace, -⟩ | ⟨l, d', hreplace, -, hl, -, hframe, hnode⟩
    · rw [hreplace]
    · have hread : d'.readFile p = .ok c :=
        Disk.readFile_of_find (Disk.find_eq_ok.mpr ⟨hframe.locate hl, hnode⟩)
      rw [hreplace]
      simp only [hread, hlisted, hdigest, Option.map_some, if_true]

/-! ## All files -/

/-- The paths whose files are put back if this is tried for some paths, one after the other. -/
def putBack (b : Backup) : List String → Disk → List String
  | [], _ => []
  | p :: ps, d =>
    match b.restoreFile p d with
    | (some _, d) => b.putBack ps d
    | (none, d) => p :: b.putBack ps d

/-- What happens to the first of some paths, and how it goes on. -/
theorem restoreEach_cons_cases (b : Backup) (p : String) (ps : List String) (d : Disk) :
    (∃ f d', SameBut (fun _ => False) d d' ∧ (¬ ∃ file c l, b.Offers d p [] file c l) ∧
        b.putBack (p :: ps) d = b.putBack ps d' ∧
        b.restoreEach (p :: ps) d = (f :: (b.restoreEach ps d').1, (b.restoreEach ps d').2)) ∨
      ∃ file c l d', SameBut (· = l) d d' ∧ b.Offers d p [] file c l ∧
        d'.node? l = some (.file c (Disk.settable file.mode)) ∧
        b.putBack (p :: ps) d = p :: b.putBack ps d' ∧
        b.restoreEach (p :: ps) d = b.restoreEach ps d' := by
  have hsame := b.restoreFile_eq_writeWithout p d
  rcases writeWithout_cases b p [] d with
    ⟨f, d', hwrite, hbut, hnot⟩ | ⟨file, c, l, d', hwrite, hbut, hoffers, hnode⟩
  · rw [hwrite] at hsame
    exact .inl ⟨f, d', hbut, hnot, by simp only [putBack, hsame], by simp [restoreEach, hsame]⟩
  · rw [hwrite] at hsame
    rw [linesOutside_nil] at hnode
    exact .inr ⟨file, c, l, d', hbut, hoffers, hnode, by simp only [putBack, hsame],
      by simp [restoreEach, hsame]⟩

theorem putBack_sublist (b : Backup) (ps : List String) (d : Disk) :
    (b.putBack ps d).Sublist ps := by
  induction ps generalizing d with
  | nil => exact .slnil
  | cons p ps ih =>
    rcases b.restoreEach_cons_cases p ps d with
      ⟨f, d', -, -, hback, -⟩ | ⟨file, c, l, d', -, -, -, hback, -⟩ <;> rw [hback]
    · exact (ih d').cons p
    · exact (ih d').cons_cons p

/-- There is no failure exactly if all files are put back. -/
theorem restoreEach_eq_nil_iff (b : Backup) (ps : List String) (d : Disk) :
    (b.restoreEach ps d).1 = [] ↔ b.putBack ps d = ps := by
  induction ps generalizing d with
  | nil => simp [restoreEach, putBack]
  | cons p ps ih =>
    rcases b.restoreEach_cons_cases p ps d with
      ⟨f, d', -, -, hback, hrestore⟩ | ⟨file, c, l, d', -, -, -, hback, hrestore⟩ <;>
      rw [hback, hrestore]
    · simp only [reduceCtorEq, false_iff]
      intro heq
      have hlength := (b.putBack_sublist ps d').length_le
      rw [heq, List.length_cons] at hlength
      omega
    · rw [ih, List.cons.injEq, and_iff_right rfl]

/-- Only the places of files that are put back change. -/
theorem sameBut_restoreEach (b : Backup) (ps : List String) (d : Disk) :
    SameBut (fun l => ∃ p ∈ b.putBack ps d, d.locate p = .ok l) d (b.restoreEach ps d).2 := by
  induction ps generalizing d with
  | nil => exact .refl _ d
  | cons p ps ih =>
    rcases b.restoreEach_cons_cases p ps d with
      ⟨f, d', hbut, -, hback, hrestore⟩ | ⟨file, c, l, d', hbut, hoffers, -, hback, hrestore⟩ <;>
      rw [hback, hrestore]
    · refine (hbut.mono fun _ h => h.elim).trans ((ih d').mono ?_)
      rintro l ⟨q, hq, hl⟩
      exact ⟨q, hq, hbut.locate_iff.mp hl⟩
    · refine (hbut.mono ?_).trans ((ih d').mono ?_)
      · rintro _ rfl
        exact ⟨p, List.mem_cons_self, hoffers.place⟩
      · rintro l ⟨q, hq, hl⟩
        exact ⟨q, List.mem_cons_of_mem p hq, hbut.locate_iff.mp hl⟩

/-- What a backup offers is the same on disks that differ elsewhere. -/
theorem offers_iff {ch : Location → Prop} {rs : List LineRange} (hbut : SameBut ch d d')
    (hblob : ∀ file, b.manifest.file? p = some file →
      ∀ l, d.locate (Path.join b.dir file.blob) = .ok l → ¬ ch l) :
    b.Offers d' p rs file c l ↔ b.Offers d p rs file c l := by
  constructor
  · intro h
    obtain ⟨blob, hread, hdecode⟩ := h.decodes
    exact ⟨h.listed, ⟨blob, (hbut.readFile_iff (hblob file h.listed)).mp hread, hdecode⟩, h.digest,
      h.fits, h.room, hbut.locate_iff.mp h.place, mt hbut.directory_iff.mpr h.free⟩
  · intro h
    obtain ⟨blob, hread, hdecode⟩ := h.decodes
    exact ⟨h.listed, ⟨blob, (hbut.readFile_iff (hblob file h.listed)).mpr hread, hdecode⟩, h.digest,
      h.fits, h.room, hbut.locate_iff.mpr h.place, mt hbut.directory_iff.mp h.free⟩

/-- A file that is put back is offered when its turn comes, and stays so. -/
theorem offers_of_mem_putBack (hdistinct : AreDistinct ps d) (hp : p ∈ b.putBack ps d) :
    ∃ d₁ file c l, SameBut (fun l => ∃ q ∈ b.putBack ps d, d.locate q = .ok l) d d₁ ∧
      b.Offers d₁ p [] file c l ∧
      (b.restoreEach ps d).2.find p = .ok (l, .file c (Disk.settable file.mode)) := by
  induction ps generalizing d with
  | nil => cases hp
  | cons q ps ih =>
    rcases b.restoreEach_cons_cases q ps d with
        ⟨f, d', hbut, -, hback, hrestore⟩ |
        ⟨file, c, l, d', hbut, hoffers, hnode, hback, hrestore⟩ <;>
      rw [hback] at hp ⊢ <;> rw [hrestore]
    · obtain ⟨d₁, file, c, l, hlater, hoffers, hfind⟩ := ih (hdistinct.tail.sameBut hbut) hp
      refine ⟨d₁, file, c, l, (hbut.mono fun _ h => h.elim).trans (hlater.mono ?_), hoffers, hfind⟩
      rintro k ⟨q', hq', hk⟩
      exact ⟨q', hq', hbut.locate_iff.mp hk⟩
    · rcases List.mem_cons.mp hp with rfl | hp
      · refine ⟨d, file, c, l, .refl _ d, hoffers, ?_⟩
        -- no later path leads to the same place
        refine ((b.sameBut_restoreEach ps d').find_iff ?_).mpr
          (Disk.find_eq_ok.mpr ⟨hbut.locate_iff.mpr hoffers.place, hnode⟩)
        rintro k hk ⟨q', hq', hk'⟩
        have hq := (b.putBack_sublist ps d').subset hq'
        have heq := (hdistinct.sameBut hbut).apart p List.mem_cons_self q'
          (List.mem_cons_of_mem p hq) k hk hk'
        exact hdistinct.head_not_mem (heq ▸ hq)
      · obtain ⟨d₁, file', c', l', hlater, hoffers', hfind⟩ := ih (hdistinct.tail.sameBut hbut) hp
        refine ⟨d₁, file', c', l', (hbut.mono ?_).trans (hlater.mono ?_), hoffers', hfind⟩
        · rintro _ rfl
          exact ⟨q, List.mem_cons_self, hoffers.place⟩
        · rintro k ⟨q', hq', hk⟩
          exact ⟨q', List.mem_cons_of_mem q hq', hbut.locate_iff.mp hk⟩

/-- No file that is put back takes the place of the blob of a path. -/
def BlobStays (b : Backup) (ps : List String) (d : Disk) (p : String) : Prop :=
  ∀ file, b.manifest.file? p = some file → ∀ q ∈ b.putBack ps d, ∀ l, d.locate q = .ok l →
    d.locate (Path.join b.dir file.blob) ≠ .ok l

/-- Paths outside of the directory of a backup do not lead to blobs in it. -/
theorem BlobStays.of_outside (home : Location) (hdir : b.dir ≠ "")
    (hhome : d.locate (Path.clean b.dir) = .ok home)
    (hinside : ∀ file ∈ b.manifest.files, ∀ s ∈ Text.segments '/' file.blob, Path.IsName s)
    (houtside : ∀ q ∈ ps, ∀ l, d.locate q = .ok l → ¬ home <+: l) : b.BlobStays ps d p := by
  intro file hfile q hq l hl hblob
  have hnames := hinside file (List.mem_reverse.mp (List.mem_of_find?_eq_some hfile))
  obtain ⟨m, hm, hfollow⟩ := Disk.locate_join_eq_ok hdir hnames hblob
  obtain rfl : home = m := Except.ok.inj (hhome.symm.trans hm)
  have hbelow := Disk.suffix_of_follow hnames hfollow
  exact houtside q ((b.putBack_sublist ps d).subset hq) l hl ⟨_, hbelow.symm⟩

/-- What is offered from the start is put back, whatever happens to other files. -/
theorem mem_putBack_of_offers (hp : p ∈ ps) (hblob : b.BlobStays ps d p)
    (h : b.Offers d p [] file c l) : p ∈ b.putBack ps d := by
  induction ps generalizing d with
  | nil => cases hp
  | cons q ps ih =>
    unfold BlobStays at hblob
    rcases b.restoreEach_cons_cases q ps d with
      ⟨f, d', hbut, hnot, hback, -⟩ | ⟨_, _, k, d', hbut, hoffers, -, hback, -⟩ <;>
      rw [hback] at hblob ⊢
    · rcases List.mem_cons.mp hp with rfl | hp
      · exact absurd ⟨file, c, l, h⟩ hnot
      · refine ih hp ?_ ((offers_iff hbut fun _ _ _ _ h => h).mpr h)
        intro file hfile q' hq' k hk hk'
        exact hblob file hfile q' hq' k (hbut.locate_iff.mp hk) (hbut.locate_iff.mp hk')
    · rcases List.mem_cons.mp hp with rfl | hp
      · exact List.mem_cons_self
      · refine List.mem_cons_of_mem q (ih hp ?_ ((offers_iff hbut ?_).mpr h))
        · intro file hfile q' hq' k hk hk'
          exact hblob file hfile q' (List.mem_cons_of_mem q hq') k (hbut.locate_iff.mp hk)
            (hbut.locate_iff.mp hk')
        · rintro file hfile k hk rfl
          exact hblob file hfile q List.mem_cons_self k hoffers.place hk

theorem find_of_mem_putBack (hdistinct : AreDistinct ps d) (hp : p ∈ b.putBack ps d)
    (hblob : b.BlobStays ps d p) :
    ∃ file c l, b.Offers d p [] file c l ∧
      (b.restoreEach ps d).2.find p = .ok (l, .file c (Disk.settable file.mode)) := by
  obtain ⟨d₁, file, c, l, hbut, hoffers, hfind⟩ := offers_of_mem_putBack hdistinct hp
  refine ⟨file, c, l, (offers_iff hbut ?_).mp hoffers, hfind⟩
  rintro file' hfile' k hk ⟨q, hq, hk'⟩
  exact hblob file' hfile' q hq k hk' hk

/-- The only captured file is put back if it is offered. -/
theorem restore_of_single (hpaths : b.paths = [p]) (h : b.Offers d p [] file c l) :
    (b.restore [] d).1 = none ∧
      (b.restore [] d).2.find p = .ok (l, .file c (Disk.settable file.mode)) := by
  rcases b.restoreEach_cons_cases p [] d with
    ⟨f, d', -, hnot, -⟩ | ⟨file', c', l', d', hbut, h', hnode, -, hrestore⟩
  · exact absurd ⟨file, c, l, h⟩ hnot
  · obtain ⟨rfl, rfl, rfl⟩ := h.unique h'
    have hdone : b.restore [] d = (none, d') := by simp [restore, hpaths, hrestore, restoreEach]
    rw [hdone]
    exact ⟨rfl, Disk.find_eq_ok.mpr ⟨hbut.locate_iff.mpr h.place, hnode⟩⟩

end Backup

end Deadwood
