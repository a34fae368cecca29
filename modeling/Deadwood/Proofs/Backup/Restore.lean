import Deadwood.Proofs.Backup.Create
import Deadwood.Proofs.Backup.Manifest

/-!
# Putting captured files back

A backup lasts as long as its own files can be read and the places of the captured files can be
reached. Putting the files back then gives every one of them its captured content and mode, unless
there is no room for the name of a temporary file beside it. Nothing else changes.

## Main definitions

* `Backup.Lasts`: a later disk on which a backup can still be used.
* `Backup.Returned`: a file that is as it was captured.

## Main results

* `Backup.open_eq_ok`: a backup that lasts can be opened.
* `Backup.Stands.restoreFile_cases`: putting one file back.
* `Backup.Stands.restoreEach_spec`: putting many back.
-/

namespace Deadwood.Backup

open Disk (HasRoom)

/-- On the later disk, the backup that was made on `d₀` can be read, and the captured paths lead to
where they led, whatever file is there now. -/
structure Lasts (b : Backup) (paths : List String) (d₀ d : Disk) : Prop where
  parts : ∀ name, IsPart name → ∀ x, d₀.readFile (Path.join b.dir name) = .ok x →
    d.readFile (Path.join b.dir name) = .ok x
  places : ∀ p ∈ paths, ∀ l, d₀.locate p = .ok l →
    d.locate p = .ok l ∧ d.node? l ≠ some .directory

variable {b : Backup} {paths : List String} {d₀ d d' : Disk} {p : String} {l : Location} {c : Bytes}
  {m : Nat}

/-- A backup lasts where it was made. -/
theorem IsCopyOf.lasts (copy : b.IsCopyOf paths d₀) : b.Lasts paths d₀ d₀ := by
  refine ⟨fun _ _ _ h => h, fun p hp l hl => ⟨hl, ?_⟩⟩
  obtain ⟨l', c, m, hfind, -⟩ := copy.exists_file hp
  obtain ⟨hl', hn⟩ := Disk.find_eq_ok.mp hfind
  obtain rfl : l' = l := Except.ok.inj (hl'.symm.trans hl)
  simp [hn]

/-- It outlasts changes to the captured files. -/
theorem Lasts.frame {ch : Location → Prop} (lasts : b.Lasts paths d₀ d)
    (stands : b.IsApart paths d₀) (hframe : Disk.Frame ch d d')
    (hplace : ∀ l, ch l → ∃ p ∈ paths, d₀.locate p = .ok l)
    (hfile : ∀ l, ch l → d'.node? l ≠ some .directory) : b.Lasts paths d₀ d' := by
  refine ⟨fun name hname x hx => ?_, fun p hp l hl => ?_⟩
  · obtain ⟨l, m, hfind⟩ := Disk.readFile_eq_ok.mp (lasts.parts name hname x hx)
    refine Disk.readFile_of_find (hframe.find hfind fun hch => ?_)
    obtain ⟨p, hp, hl⟩ := hplace l hch
    exact stands.outside p hp l hl d name hname (Disk.find_eq_ok.mp hfind).1
  · obtain ⟨hl', hn⟩ := lasts.places p hp l hl
    refine ⟨hframe.locate hl', ?_⟩
    by_cases hch : ch l
    · exact hfile l hch
    · rwa [hframe.same l hch]

theorem Lasts.replaceFile (lasts : b.Lasts paths d₀ d) (stands : b.IsApart paths d₀)
    (hp : p ∈ paths) (content : Bytes) (mode : Nat) :
    b.Lasts paths d₀ (d.replaceFile p content mode).2 := by
  obtain ⟨l, c, m, hfind, -⟩ := stands.copy.exists_file hp
  have hl := (Disk.find_eq_ok.mp hfind).1
  rcases Disk.replaceFile_cases d p content mode with
    ⟨f, d', hreplace, hframe⟩ | ⟨l', d', hreplace, -, hl', -, hframe, hnode⟩ <;> rw [hreplace]
  · exact lasts.frame stands hframe (fun _ h => h.elim) (fun _ h => h.elim)
  · obtain rfl : l = l' := Except.ok.inj ((lasts.places p hp l hl).1.symm.trans hl')
    refine lasts.frame stands hframe ?_ ?_ <;> rintro _ rfl
    · exact ⟨p, hp, hl⟩
    · simp [hnode]

/-! ## One file -/

/-- Putting a captured file back works if there is room, and otherwise changes nothing. -/
theorem Stands.restoreFile_cases (stands : b.Stands paths d₀) (lasts : b.Lasts paths d₀ d)
    (hp : p ∈ paths) (h : d₀.find p = .ok (l, .file c m)) :
    (¬ HasRoom p ∧ ∃ f d', b.restoreFile p d = (some f, d') ∧
        Disk.Frame (fun _ => False) d d') ∨
      HasRoom p ∧ ∃ d', b.restoreFile p d = (none, d') ∧ Disk.Frame (· = l) d d' ∧
        d'.node? l = some (.file c (m % 512)) := by
  obtain ⟨hl, hn⟩ := lasts.places p hp l (Disk.find_eq_ok.mp h).1
  obtain ⟨lb, mb, z, hblob, hz⟩ := stands.holds p hp c (Disk.readFile_of_find h)
  have hcontent := stands.content_eq hp h
    (lasts.parts _ (.inr ⟨c, rfl⟩) _ (Disk.readFile_of_find hblob)) hz
  have hfile := stands.copy.file?_eq hp h
  have hmode : b.modeOf p = m % 512 := stands.copy.modeOf_eq hp h
  unfold restoreFile
  simp only [hcontent, hmode]
  by_cases room : HasRoom p
  · obtain ⟨d', hreplace, hframe, hnode⟩ := Disk.replaceFile_succeeds c (m % 512) room hl hn
    rw [Disk.settable_mod] at hnode
    have hread : d'.readFile p = .ok c :=
      Disk.readFile_of_find (Disk.find_eq_ok.mpr ⟨hframe.locate hl, hnode⟩)
    refine .inr ⟨room, d', ?_, hframe, hnode⟩
    simp [hreplace, hread, hfile, entry]
  · rcases Disk.replaceFile_cases d p c (m % 512) with
      ⟨f, d', hreplace, hframe⟩ | ⟨_, _, -, hroom, -⟩
    · exact .inl ⟨room, f, d', by simp only [hreplace], hframe⟩
    · exact absurd hroom room

/-! ## Many files -/

/-- The file of a path is as it was on `d₀`, with the permissions of its mode. -/
def Returned (d₀ : Disk) (p : String) (d : Disk) : Prop :=
  ∀ l c m, d₀.find p = .ok (l, .file c m) → d.find p = .ok (l, .file c (m % 512))

/-- The place of one of some paths that have room. -/
def IsRoomyPlace (d₀ : Disk) (ps : List String) (l : Location) : Prop :=
  ∃ p ∈ ps, HasRoom p ∧ d₀.locate p = .ok l

/-- A file that was put back stays so while other files of the same disk are. -/
theorem Returned.frame {ps : List String} (h : Returned d₀ p d)
    (hframe : Disk.Frame (IsRoomyPlace d₀ ps) d d')
    (hps : ∀ q ∈ ps, HasRoom q → Returned d₀ q d') : Returned d₀ p d' := by
  intro l c m hfind
  have hfound := h l c m hfind
  by_cases hplace : IsRoomyPlace d₀ ps l
  -- another path leads to the same file
  · obtain ⟨q, hq, room, hl⟩ := hplace
    have hnode := (Disk.find_eq_ok.mp hfind).2
    have hq' := hps q hq room l c m (Disk.find_eq_ok.mpr ⟨hl, hnode⟩)
    exact Disk.find_eq_ok.mpr
      ⟨hframe.locate (Disk.find_eq_ok.mp hfound).1, (Disk.find_eq_ok.mp hq').2⟩
  · exact hframe.find hfound hplace

/-- Putting captured files back one after the other. -/
theorem Stands.restoreEach_spec (stands : b.Stands paths d₀) {ps : List String}
    (hps : ∀ p ∈ ps, p ∈ paths) (lasts : b.Lasts paths d₀ d) :
    ((b.restoreEach ps d).1 = [] ↔ ∀ p ∈ ps, HasRoom p) ∧
      Disk.Frame (IsRoomyPlace d₀ ps) d (b.restoreEach ps d).2 ∧
      ∀ p ∈ ps, HasRoom p → Returned d₀ p (b.restoreEach ps d).2 := by
  induction ps generalizing d with
  | nil => exact ⟨by simp [restoreEach], .refl _ d, by simp⟩
  | cons p ps ih =>
    have hp := hps p (by simp)
    obtain ⟨l, c, m, hfind, -⟩ := stands.copy.exists_file hp
    have hl := (Disk.find_eq_ok.mp hfind).1
    have htail : ∀ l, IsRoomyPlace d₀ ps l → IsRoomyPlace d₀ (p :: ps) l :=
      fun _ ⟨q, hq, h⟩ => ⟨q, List.mem_cons_of_mem _ hq, h⟩
    simp only [restoreEach]
    rcases stands.restoreFile_cases lasts hp hfind with
      ⟨room, f, d', hrestore, hframe⟩ | ⟨room, d', hrestore, hframe, hnode⟩
    · have lasts' := lasts.frame stands.toIsApart hframe (fun _ h => h.elim) (fun _ h => h.elim)
      obtain ⟨hfaults, hrest, hreturned⟩ := ih (fun q hq => hps q (by simp [hq])) lasts'
      simp only [hrestore]
      refine ⟨by simp [room], (hframe.mono fun _ h => h.elim).trans (hrest.mono htail), ?_⟩
      refine List.forall_mem_cons.mpr ⟨fun h => absurd h room, hreturned⟩
    · have lasts' : b.Lasts paths d₀ d' := by
        refine lasts.frame stands.toIsApart hframe ?_ ?_ <;> rintro _ rfl
        · exact ⟨p, hp, hl⟩
        · simp [hnode]
      obtain ⟨hfaults, hrest, hreturned⟩ := ih (fun q hq => hps q (by simp [hq])) lasts'
      have hreturned' : Returned d₀ p d' := by
        intro l' c' m' hfind'
        obtain ⟨rfl, rfl, rfl⟩ : l = l' ∧ c = c' ∧ m = m' := by simpa [hfind] using hfind'
        exact Disk.find_eq_ok.mpr ⟨(lasts'.places p hp l hl).1, hnode⟩
      simp only [hrestore]
      refine ⟨by simpa [room] using hfaults, ?_, ?_⟩
      · refine (hframe.mono ?_).trans (hrest.mono htail)
        rintro _ rfl
        exact ⟨p, by simp, room, hl⟩
      · exact List.forall_mem_cons.mpr ⟨fun _ => hreturned'.frame hrest hreturned, hreturned⟩

/-! ## Opening a backup -/

theorem open_eq_ok {means : BackupMeans} {id : String} {now : Timestamp} {root snapshotId : String}
    {functions : List String} (new : IsNewName id paths d)
    (h : create means id now root snapshotId functions paths d = (.ok b, d₀))
    (small : ∀ p ∈ paths, ∀ c, d₀.readFile p = .ok c → c.length < Word.bound)
    (lasts : b.Lasts paths d₀ d') : open_ b.dir d' = .ok b := by
  obtain ⟨⟨files, hb⟩, hwritable, copy, hmanifest, -⟩ := create_eq_ok new h
  have hread := lasts.parts "manifest.json" (.inl rfl) _ hmanifest
  have readable : b.manifest.IsReadable := by
    refine ⟨by rw [hb]; rfl, by rw [hb]; exact hwritable, fun f hf => ?_⟩
    obtain ⟨l, c, m, hfind, hentry⟩ := copy.entries f hf
    have hp : f.path ∈ paths := by
      rw [← mem_distinctTexts, ← copy.paths_eq]
      exact List.mem_map_of_mem hf
    have hlen := small f.path hp c (Disk.readFile_of_find hfind)
    rw [hentry]
    refine ⟨⟨c.length, rfl, hlen⟩, ?_⟩
    have : m % 512 < 512 := Nat.mod_lt m (by decide)
    simp only [entry]
    omega
  unfold open_
  simp only [manifestPath, hread, Manifest.parse?_pretty readable]

end Deadwood.Backup
