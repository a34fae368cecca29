import Deadwood.Backup
import Deadwood.Proofs.Disk.Replace
import Deadwood.Proofs.Sorted
import Deadwood.Proofs.Zstd

/-!
# What a new backup holds

Making a backup writes below a directory with a name of its own, so no other file changes, whatever
the system refuses meanwhile. The manifest then describes every captured file, and its content can
be read from the backup, as long as different contents have different digests and compressed
contents can be told.

## Main definitions

* `IsNewName`: a name for the directory of a backup that nothing else uses.
* `BackupStep.IsNeeded`: a step without which there is no backup.
* `Backup.Holds`: a backup directory that holds a content.
* `Backup.IsCopyOf`: a backup that describes the files of a disk.
* `Backup.IsApart`, `Backup.Stands`: such a backup, apart from the files, and with their contents.

## Main results

* `Backup.create_frame`: what making a backup leaves alone.
* `Backup.create_eq_ok`: what it brings about.
* `Backup.granted_of_create`: what was not refused then.
* `Backup.content_eq_ok`: reading a captured content, also from a later disk.
* `Backup.stands_of_create`: a backup that was made stands.
-/

namespace Deadwood

open Text Deadwood.Path

/-! ## The names in a backup -/

theorem Text.slash_not_mem_toDigits (n : Nat) : '/' ∉ Nat.toDigits 16 n := by
  induction n using Nat.strongRecOn with
  | ind n ih =>
    rw [Nat.toDigits_eq_if (by omega)]
    split_ifs with h
    · simp
    · simpa using ih (n / 16) (by omega)

theorem Blake3.slash_not_mem_hex (content : Bytes) : '/' ∉ (Blake3.hex content).toList := by
  have hword : ∀ w, '/' ∉ (Blake3.wordHex w).toList := by
    intro w h
    simp only [Blake3.wordHex, String.toList_join, List.mem_flatMap, List.mem_map] at h
    obtain ⟨_, ⟨k, -, rfl⟩, h⟩ := h
    simp only [hexDigits, Decimal.zeros, String.toList_append, String.toList_ofList,
      List.mem_append, List.mem_replicate] at h
    rcases h with ⟨-, h⟩ | h
    · exact absurd h (by decide)
    · exact slash_not_mem_toDigits _ h
  intro h
  simp only [Blake3.hex, String.toList_join, List.mem_flatMap, List.mem_map] at h
  obtain ⟨_, ⟨w, -, rfl⟩, h⟩ := h
  exact hword w h

/-- A name for the directory of a backup: nothing on the disk has it, and no path mentions it. -/
structure IsNewName (id : String) (paths : List String) (d : Disk) : Prop where
  isName : IsName id
  unused : ∀ l, id ∈ l → d.node? l = none
  unmentioned : ∀ p ∈ paths, id ∉ segments '/' p

/-- A name is new if it occurs in no place that the disk knows. -/
theorem IsNewName.of_unused {id : String} {paths : List String} {d : Disk} (isName : IsName id)
    (work : id ∉ d.workDir) (nodes : ∀ e ∈ d.nodes, id ∉ e.1)
    (unmentioned : ∀ p ∈ paths, id ∉ segments '/' p) : IsNewName id paths d := by
  refine ⟨isName, fun l hid => ?_, unmentioned⟩
  have hway : l.isPrefixOf d.workDir = false :=
    Bool.eq_false_iff.mpr fun h => work ((List.isPrefixOf_iff_prefix.mp h).subset hid)
  have hlookup : d.nodes.lookup l = none := by
    refine List.lookup_eq_none_iff.mpr fun e he => ?_
    simp only [bne_iff_ne]
    rintro rfl
    exact nodes e he hid
  simp [Disk.node?, hway, hlookup]

/-- The steps of capturing the file of a path. -/
def BackupStep.Concerns (path : String) : BackupStep → Prop
  | .stat p | .openFile p | .read p => p = path
  | .blob p step => p = path ∧ step ∈ [ReplaceStep.create, .write, .sync, .close]
  | .makeDir _ | .manifest _ => False

/-- A step without which no backup of some files can be made in a directory. -/
def BackupStep.IsNeeded (dir : String) (paths : List String) (step : BackupStep) : Prop :=
  (∃ p ∈ paths, step.Concerns p) ∨ (∃ p ∈ Disk.pathsTo (Path.join dir "files"), step = .makeDir p) ∨
    ∃ s, s ≠ .remove ∧ step = .manifest s

/-- Compressed contents of files can be told. -/
def BackupMeans.Faithful (means : BackupMeans) (paths : List String) (d : Disk) : Prop :=
  ∀ p ∈ paths, ∀ c, d.readFile p = .ok c → Zstd.decode (means.compress c) = .ok c

namespace Backup

/-- Where a content lies in a backup. -/
def blobName (content : Bytes) : String :=
  "files/" ++ Blake3.hex content ++ ".zst"

/-- The last name of `blobName`. -/
def blobFile (content : Bytes) : String :=
  Blake3.hex content ++ ".zst"

theorem isName_blobFile (content : Bytes) : IsName (blobFile content) := by
  have hlen : 4 ≤ (blobFile content).toList.length := by simp [blobFile]
  refine ⟨?_, ?_, ?_, ?_⟩
  · intro h
    simp [h] at hlen
  · intro h
    simp [h] at hlen
  · intro h
    simp [h] at hlen
  · simpa [blobFile] using Blake3.slash_not_mem_hex content

@[simp] theorem segments_blobName (content : Bytes) :
    segments '/' (blobName content) = ["files", blobFile content] := by
  have hname : blobName content = "files" ++ "/" ++ blobFile content := by
    apply String.toList_injective
    simp [blobName, blobFile]
  rw [hname, segments_slash, segments_eq_singleton (isName_blobFile content).noSlash]
  rfl

theorem blobFile_ne_manifest (content : Bytes) : blobFile content ≠ "manifest.json" := by
  intro h
  have := congrArg (fun s => s.toList.getLast?) h
  simp [blobFile] at this

theorem hex_eq_of_blobFile_eq {c c' : Bytes} (h : blobFile c = blobFile c') :
    Blake3.hex c = Blake3.hex c' := by
  have := congrArg String.toList h
  simp only [blobFile, String.toList_append, List.append_cancel_right_eq] at this
  exact String.toList_injective this

variable {d d' : Disk} {root id path : String} {l : Location}

/-- A path below the directory of a backup leads below its name. -/
theorem suffix_of_locate_below {name : String} {names : List String} (hid : IsName id)
    (hname : segments '/' name = names) (hn : ∀ s ∈ names, IsName s)
    (h : d.locate (Path.join (Path.join root id) name) = .ok l) : id :: names <:+ l := by
  have hroot : segments '/' root = segments '/' root ++ [] := (List.append_nil _).symm
  obtain ⟨pre, hdir⟩ :=
    segments_join_suffix hroot (segments_eq_singleton hid.noSlash) (by simpa using hid)
  obtain ⟨pre', hpath⟩ := segments_join_suffix hdir hname (by simpa using ⟨hid, hn⟩)
  exact Disk.suffix_of_locate hpath (by simpa using ⟨hid, hn⟩) h

theorem suffix_of_locate_blob {content : Bytes} (hid : IsName id)
    (h : d.locate (Path.join (Path.join root id) (blobName content)) = .ok l) :
    [id, "files", blobFile content] <:+ l :=
  suffix_of_locate_below hid (segments_blobName content)
    (by simpa using ⟨by decide, isName_blobFile content⟩) h

theorem suffix_of_locate_manifest (hid : IsName id)
    (h : d.locate (manifestPath (Path.join root id)) = .ok l) : [id, "manifest.json"] <:+ l :=
  suffix_of_locate_below hid rfl (by decide) h

/-! ## Capturing files -/

/-- The entry of a captured file. -/
def entry (path : String) (content : Bytes) (mode : Nat) : BackupFile :=
  { path
    digest := Blake3.hex content
    size := content.length
    mode := mode % 512
    blob := blobName content }

/-- A backup directory that holds a content. -/
def Holds (dir : String) (content : Bytes) (d : Disk) : Prop :=
  ∃ l m z, d.find (Path.join dir (blobName content)) = .ok (l, .file z m) ∧
    Zstd.decode z = .ok content

theorem Holds.frame {ch : Location → Prop} {dir : String} {c : Bytes} (h : Holds dir c d)
    (hframe : Disk.Frame ch d d')
    (hplace : ∀ l, d.locate (Path.join dir (blobName c)) = .ok l → ¬ ch l) : Holds dir c d' := by
  obtain ⟨l, m, z, hfind, hz⟩ := h
  exact ⟨l, m, z, hframe.find hfind (hplace l (Disk.find_eq_ok.mp hfind).1), hz⟩

/-- Capturing a file changes nothing, or what lies at the place of its blob. If it does not fail,
the file has its entry and its content is there, and no step was refused. -/
theorem capture_cases (means : BackupMeans) (dir path : String) (d : Disk) :
    (∃ f, capture means dir path d = (.error f, d)) ∨
      ∃ r l c m lb mb z, capture means dir path d = (r, d.put lb (.file z mb)) ∧
        d.find path = .ok (l, .file c m) ∧ d.locate (Path.join dir (blobName c)) = .ok lb ∧
        d.node? lb ≠ some .directory ∧
        ∀ file, r = .ok file → file = entry path c m ∧ z = means.compress c ∧
          ∀ step : BackupStep, step.Concerns path → means.refused step = none := by
  unfold capture
  cases hstat : Refusal.orElse (means.refused (.stat path)) "stat" path (d.stat path) with
  | error f => exact .inl ⟨_, rfl⟩
  | ok node =>
    obtain ⟨hstat, hnode⟩ := Refusal.orElse_eq_ok.mp hstat
    dsimp only
    cases hread : Refusal.orElse (means.refused (.openFile path)) "open" path
        (Refusal.orElse (means.refused (.read path)) "read" path (d.readFile path)) with
    | error f => exact .inl ⟨_, rfl⟩
    | ok c =>
      obtain ⟨hopen, hread⟩ := Refusal.orElse_eq_ok.mp hread
      obtain ⟨hread, hc⟩ := Refusal.orElse_eq_ok.mp hread
      obtain ⟨l, m, hfind⟩ := Disk.readFile_eq_ok.mp hc
      obtain rfl : node = .file c m := by simpa [Disk.stat, hfind, eq_comm] using hnode
      rcases Disk.writeSynced_cases (means.refused <| .blob path ·) d (Path.join dir (blobName c))
          (means.compress c) with ⟨f, hw⟩ | ⟨failure, lb, mb, z, hw, hlb, hdir, hdone⟩ <;>
        simp only [blobName] at hw <;> simp only [hw]
      · exact .inl ⟨f, rfl⟩
      · cases failure with
        | some f => exact .inr ⟨_, l, c, m, lb, mb, z, rfl, hfind, hlb, hdir, by simp⟩
        | none =>
          obtain ⟨hz, hgranted⟩ := hdone rfl
          refine .inr ⟨_, l, c, m, lb, mb, z, rfl, hfind, hlb, hdir, fun file hfile => ?_⟩
          refine ⟨(Except.ok.inj hfile).symm, hz, fun step hstep => ?_⟩
          cases step with
          | stat p => rwa [show p = path from hstep]
          | openFile p => rwa [show p = path from hstep]
          | read p => rwa [show p = path from hstep]
          | blob p step =>
            obtain ⟨rfl, hstep⟩ := hstep
            exact hgranted step hstep
          | makeDir p => exact hstep.elim
          | manifest step => exact hstep.elim

theorem capture_frame (means : BackupMeans) (hid : IsName id) (root path : String) (d : Disk) :
    Disk.Frame (id ∈ ·) d (capture means (Path.join root id) path d).2 := by
  rcases capture_cases means (Path.join root id) path d with
    ⟨f, h⟩ | ⟨r, l, c, m, lb, mb, z, h, -, hlb, hdir, -⟩
  · rw [h]
    exact .refl _ d
  · rw [h]
    refine (Disk.frame_put _ hdir).mono ?_
    rintro _ rfl
    exact (suffix_of_locate_blob hid hlb).subset (by simp)

theorem captureAll_frame (means : BackupMeans) (hid : IsName id) (root : String)
    (paths : List String) (d : Disk) :
    Disk.Frame (id ∈ ·) d (captureAll means (Path.join root id) paths d).2 := by
  induction paths generalizing d with
  | nil => exact .refl _ d
  | cons p ps ih =>
    have hp := capture_frame means hid root p d
    unfold captureAll
    generalize capture means (Path.join root id) p d = r at hp ⊢
    obtain ⟨f | file, d₁⟩ := r
    · exact hp
    · have hps := ih d₁
      simp only
      generalize captureAll means (Path.join root id) ps d₁ = r at hps ⊢
      obtain ⟨f | files, d₂⟩ := r <;> exact hp.trans hps

/-- Capturing a file does not damage a content unless another one has its digest. -/
theorem capture_holds {means : BackupMeans} {c : Bytes} {file : BackupFile} (hid : IsName id)
    (h : capture means (Path.join root id) path d = (.ok file, d'))
    (hc : Holds (Path.join root id) c d ∨ d.readFile path = .ok c)
    (faithful : ∀ c', d.readFile path = .ok c' → Zstd.decode (means.compress c') = .ok c')
    (apart : ∀ c', d.readFile path = .ok c' → Blake3.hex c' = Blake3.hex c → c' = c) :
    Holds (Path.join root id) c d' := by
  rcases capture_cases means (Path.join root id) path d with
    ⟨f, hf⟩ | ⟨r, l, c', m, lb, mb, z, hf, hfind, hlb, hdir, hdone⟩
  · simp [hf] at h
  · obtain ⟨rfl, rfl⟩ := Prod.mk.inj (hf.symm.trans h)
    obtain ⟨-, rfl, -⟩ := hdone file rfl
    have hframe := Disk.frame_put (d := d) (l := lb) (.file (means.compress c') mb) hdir
    have hread := Disk.readFile_of_find hfind
    by_cases heq : Blake3.hex c' = Blake3.hex c
    · obtain rfl := apart c' hread heq
      exact ⟨lb, mb, _, Disk.find_eq_ok.mpr ⟨hframe.locate hlb, Disk.node?_put_same _ hdir⟩,
        faithful c' hread⟩
    · rcases hc with hc | hc
      · refine hc.frame hframe ?_
        rintro _ hlc rfl
        -- the last name of the place tells the digests apart
        have hlc := suffix_of_locate_blob hid hlc
        have hlb := suffix_of_locate_blob hid hlb
        have := (List.suffix_of_suffix_length_le hlc hlb (by simp)).eq_of_length (by simp)
        exact heq (hex_eq_of_blobFile_eq (by simpa using this.symm))
      · exact absurd (by simpa using hread.symm.trans hc) fun he : c' = c => heq (he ▸ rfl)

/-- What capturing files one after the other brings about: every file has its entry, no step was
refused, and every content is held unless another one has its digest. -/
theorem captureAll_eq_ok {means : BackupMeans} {paths : List String} {files : List BackupFile}
    (hid : IsName id) (hwork : id ∉ d.workDir) (hpaths : ∀ p ∈ paths, id ∉ segments '/' p)
    (h : captureAll means (Path.join root id) paths d = (.ok files, d')) :
    files.map (·.path) = paths ∧
      (∀ f ∈ files, ∃ l c m, d'.find f.path = .ok (l, .file c m) ∧ f = entry f.path c m) ∧
      (∀ p ∈ paths, ∀ step : BackupStep, step.Concerns p → means.refused step = none) ∧
      (means.Faithful paths d' →
        ∀ c, (Holds (Path.join root id) c d ∨ ∃ p ∈ paths, d'.readFile p = .ok c) →
          (∀ p ∈ paths, ∀ c', d'.readFile p = .ok c' → Blake3.hex c' = Blake3.hex c → c' = c) →
            Holds (Path.join root id) c d') := by
  induction paths generalizing d files with
  | nil =>
    cases h
    simp
  | cons p ps ih =>
    rcases capture_cases means (Path.join root id) p d with
      ⟨f, hf⟩ | ⟨r, l, c, m, lb, mb, z, hf, hfind, hlb, hdir, hdone⟩
    · simp [captureAll, hf] at h
    have hframe : Disk.Frame (id ∈ ·) d (d.put lb (.file z mb)) := by
      simpa [hf] using capture_frame means hid root p d
    have htail := captureAll_frame means hid root ps (d.put lb (.file z mb))
    obtain f | file := r
    · simp [captureAll, hf] at h
    obtain ⟨rfl, rfl, hgranted⟩ := hdone file rfl
    simp only [captureAll, hf] at h
    generalize hrest : captureAll means (Path.join root id) ps
      (d.put lb (.file (means.compress c) mb)) = r at h htail
    obtain ⟨f | rest, d₂⟩ := r
    · simp at h
    obtain ⟨rfl, rfl⟩ : entry p c m :: rest = files ∧ d₂ = d' := by simpa using h
    obtain ⟨hpath, hentry, hgranted', hholds⟩ :=
      ih (by simpa using hwork) (fun q hq => hpaths q (List.mem_cons_of_mem _ hq)) hrest
    -- the file itself lies outside the backup and stays as it is
    have hl : id ∉ l :=
      Disk.not_mem_of_locate hwork (hpaths p (by simp)) (Disk.find_eq_ok.mp hfind).1
    have hlast : d₂.find p = .ok (l, .file c m) := htail.find (hframe.find hfind hl) hl
    have hread : ∀ c', d.readFile p = .ok c' → d₂.readFile p = .ok c' := by
      intro c' hc'
      rwa [Disk.readFile_of_find hlast, ← Disk.readFile_of_find hfind]
    refine ⟨by simp [hpath, entry], List.forall_mem_cons.mpr ⟨⟨l, c, m, hlast, rfl⟩, hentry⟩,
      List.forall_mem_cons.mpr ⟨hgranted, hgranted'⟩, fun faithful c₀ hc₀ apart => ?_⟩
    refine hholds (fun q hq => faithful q (List.mem_cons_of_mem _ hq)) c₀ ?_
      fun q hq => apart q (List.mem_cons_of_mem _ hq)
    have hheld : Holds (Path.join root id) c₀ d ∨ d.readFile p = .ok c₀ →
        Holds (Path.join root id) c₀ (d.put lb (.file (means.compress c) mb)) := by
      exact fun h => capture_holds hid hf h (fun c' hc' => faithful p (by simp) c' (hread c' hc'))
        fun c' hc' => apart p (by simp) c' (hread c' hc')
    rcases hc₀ with hc₀ | ⟨q, hq, hc₀⟩
    · exact .inl (hheld (.inl hc₀))
    · rcases List.mem_cons.mp hq with rfl | hq
      · have : c = c₀ := by simpa [Disk.readFile_of_find hlast] using hc₀
        exact .inl (hheld (.inr (this ▸ Disk.readFile_of_find hfind)))
      · exact .inr ⟨q, hq, hc₀⟩

/-! ## Whole backups -/

/-- Only the set of the paths matters. -/
theorem create_congr {paths paths' : List String} (h : distinctTexts paths = distinctTexts paths')
    (means : BackupMeans) (id : String) (now : Timestamp) (root snapshotId : String)
    (functions : List String) (d : Disk) :
    create means id now root snapshotId functions paths d =
      create means id now root snapshotId functions paths' d := by
  rw [create, h]
  rfl

/-- The manifest of a new backup. -/
def newManifest (id : String) (now : Timestamp) (snapshotId : String) (functions : List String)
    (files : List BackupFile) : Manifest :=
  { id, snapshotId, createdAt := now.utc, functions := some functions, fileList := some files }

variable {means : BackupMeans} {now : Timestamp} {snapshotId : String} {functions : List String}
  {paths : List String} {b : Backup}

/-- Making a backup fails and only adds to what was there, or its directories are made, its files
are captured and its manifest is put in its place. -/
theorem create_cases (new : IsNewName id paths d) (means : BackupMeans) (now : Timestamp)
    (root snapshotId : String) (functions : List String) :
    (∃ f d', create means id now root snapshotId functions paths d = (.error f, d') ∧
        Disk.Frame (d.node? · = none) d d') ∨
      ∃ files d₁ d₂ lm,
        create means id now root snapshotId functions paths d =
          (.ok ⟨Path.join root id, newManifest id now snapshotId functions files⟩,
            d₂.put lm (.file
              (Text.utf8 (newManifest id now snapshotId functions files).toJson.pretty) 0o644)) ∧
        d.makeEach (means.refused <| .makeDir ·)
            (Disk.pathsTo (Path.join (Path.join root id) "files"))
          = (none, d₁) ∧
        captureAll means (Path.join root id) (distinctTexts paths) d₁ = (.ok files, d₂) ∧
        now.utc.isWritable ∧
        Disk.Replaceable (means.refused <| .manifest ·) Disk.tempDigits d₂
          (manifestPath (Path.join root id)) lm ∧
        Disk.Frame (d.node? · = none) d d₂ := by
  have h₁ := Disk.frame_makeEach (means.refused <| .makeDir ·)
    (Disk.pathsTo (Path.join (Path.join root id) "files")) d
  unfold create
  simp only
  generalize Disk.makeEach _ _ d = r at h₁ ⊢
  obtain ⟨_ | f, d₁⟩ := r
  swap
  · exact .inl ⟨_, _, rfl, h₁⟩
  have h₂ := captureAll_frame means new.isName root (distinctTexts paths) d₁
  simp only at h₁ ⊢
  generalize hall : captureAll means (Path.join root id) (distinctTexts paths) d₁ = r at h₂ ⊢
  have h₁₂ := h₁.trans (h₂.mono new.unused)
  obtain ⟨f | files, d₂⟩ := r
  · exact .inl ⟨_, _, rfl, h₁₂⟩
  simp only
  split_ifs with htime
  · exact .inl ⟨_, _, rfl, h₁₂⟩
  rcases Disk.replaceFileUnder_cases (means.refused <| .manifest ·) Disk.tempDigits d₂
      (manifestPath (Path.join root id))
      (Text.utf8 (newManifest id now snapshotId functions files).toJson.pretty) 0o644 with
    ⟨lm, hw, hlm⟩ | ⟨step, cause, left, hw, -, hleft, -⟩ <;>
    simp only [newManifest] at hw <;> simp only [hw]
  · exact .inr ⟨files, d₁, d₂, lm, rfl, rfl, hall, by simpa using htime, hlm, h₁₂⟩
  · refine .inl ⟨_, _, rfl, h₁₂.trans (hleft.frame.mono fun l hl => ?_)⟩
    -- what is free when the manifest is written was free before
    by_contra hne
    exact hne ((h₁₂.same l hne).symm.trans hl)

/-- Making a backup, whether it fails or not, only adds to what was there. -/
theorem create_frame (new : IsNewName id paths d) (means : BackupMeans) (now : Timestamp)
    (root snapshotId : String) (functions : List String) :
    Disk.Frame (d.node? · = none) d (create means id now root snapshotId functions paths d).2 := by
  rcases create_cases new means now root snapshotId functions with
    ⟨f, d', h, hframe⟩ | ⟨files, d₁, d₂, lm, h, -, -, -, hlm, hframe⟩
  · rwa [h]
  · rw [h]
    refine hframe.trans ((Disk.frame_put _ hlm.free).mono ?_)
    rintro l rfl
    exact new.unused l ((suffix_of_locate_manifest new.isName hlm.place).subset (by simp))

/-- A backup that was made has made files below its directory only. -/
theorem file_of_create (new : IsNewName id paths d)
    (h : create means id now root snapshotId functions paths d = (.ok b, d')) (hl : id ∉ l)
    {c : Bytes} {m : Nat} (hfile : d'.node? l = some (.file c m)) :
    d.node? l = some (.file c m) := by
  rcases create_cases new means now root snapshotId functions with
    ⟨f, d', hno, -⟩ | ⟨files, d₁, d₂, lm, hok, hdirs, hall, -, hlm, -⟩
  · simp [hno] at h
  obtain ⟨-, rfl⟩ := Prod.mk.inj (hok.symm.trans h)
  have hmem : id ∈ lm := (suffix_of_locate_manifest new.isName hlm.place).subset (by simp)
  have hne : l ≠ lm := fun he => hl (he ▸ hmem)
  rw [Disk.node?_put_of_ne _ hne] at hfile
  have hframe := captureAll_frame means new.isName root (distinctTexts paths) d₁
  rw [hall] at hframe
  rw [hframe.same l hl] at hfile
  refine Disk.file_of_makeEach (means.refused <| .makeDir ·)
    (Disk.pathsTo (Path.join (Path.join root id) "files")) ?_
  rwa [hdirs]

/-- If a backup was made, nothing that it needs was refused. -/
theorem granted_of_create (new : IsNewName id paths d)
    (h : create means id now root snapshotId functions paths d = (.ok b, d')) {step : BackupStep}
    (hstep : step.IsNeeded (Path.join root id) paths) : means.refused step = none := by
  have hwork : id ∉ d.workDir := fun hid => by simpa using new.unused _ hid
  rcases create_cases new means now root snapshotId functions with
    ⟨f, d', hno, -⟩ | ⟨files, d₁, d₂, lm, -, hdirs, hall, -, hlm, -⟩
  · simp [hno] at h
  have hframe := Disk.frame_makeEach (means.refused <| .makeDir ·)
    (Disk.pathsTo (Path.join (Path.join root id) "files")) d
  rw [hdirs] at hframe
  rcases hstep with ⟨p, hp, hstep⟩ | ⟨p, hp, rfl⟩ | ⟨s, hs, rfl⟩
  · obtain ⟨-, -, hgranted, -⟩ := captureAll_eq_ok new.isName (by rwa [hframe.workDir])
      (fun p hp => new.unmentioned p (mem_distinctTexts.mp hp)) hall
    exact hgranted p (mem_distinctTexts.mpr hp) step hstep
  · exact Disk.granted_of_makeEach hdirs p hp
  · exact hlm.granted s hs

/-- The digests of different contents of some files differ. -/
def DigestsDiffer (paths : List String) (d : Disk) : Prop :=
  ∀ p ∈ paths, ∀ q ∈ paths, ∀ c c', d.readFile p = .ok c → d.readFile q = .ok c' →
    Blake3.hex c = Blake3.hex c' → c = c'

/-- A backup that describes files as they are on a disk. -/
structure IsCopyOf (b : Backup) (paths : List String) (d : Disk) : Prop where
  paths_eq : b.paths = distinctTexts paths
  entries : ∀ f ∈ b.manifest.files,
    ∃ l c m, d.find f.path = .ok (l, .file c m) ∧ f = entry f.path c m

theorem IsCopyOf.exists_file (copy : b.IsCopyOf paths d) (hp : path ∈ paths) :
    ∃ l c m, d.find path = .ok (l, .file c m) ∧ entry path c m ∈ b.manifest.files := by
  have hmem : path ∈ b.manifest.files.map (·.path) := by
    rw [← Backup.paths, copy.paths_eq]
    exact mem_distinctTexts.mpr hp
  obtain ⟨f, hf, rfl⟩ := List.mem_map.mp hmem
  obtain ⟨l, c, m, hfind, hf'⟩ := copy.entries f hf
  exact ⟨l, c, m, hfind, hf' ▸ hf⟩

/-- What a backup that was made brings about. -/
theorem create_eq_ok (new : IsNewName id paths d)
    (h : create means id now root snapshotId functions paths d = (.ok b, d')) :
    (∃ files, b = ⟨Path.join root id, newManifest id now snapshotId functions files⟩) ∧
      now.utc.isWritable ∧ b.IsCopyOf paths d' ∧
      d'.readFile (manifestPath b.dir) = .ok (Text.utf8 b.manifest.toJson.pretty) ∧
      (DigestsDiffer paths d' → means.Faithful paths d' →
        ∀ p ∈ paths, ∀ c, d'.readFile p = .ok c → Holds b.dir c d') := by
  have hwork : id ∉ d.workDir := fun hid => by simpa using new.unused _ hid
  rcases create_cases new means now root snapshotId functions with
    ⟨f, d', hno, -⟩ | ⟨files, d₁, d₂, lm, hok, hdirs, hall, htime, hlm, hframe₂⟩
  · simp [hno] at h
  obtain ⟨hb, rfl⟩ := Prod.mk.inj (hok.symm.trans h)
  obtain rfl := Except.ok.inj hb
  have hframe₁ := Disk.frame_makeEach (means.refused <| .makeDir ·)
    (Disk.pathsTo (Path.join (Path.join root id) "files")) d
  rw [hdirs] at hframe₁
  obtain ⟨hpaths, hentries, -, hholds⟩ := captureAll_eq_ok new.isName (by rwa [hframe₁.workDir])
    (fun p hp => new.unmentioned p (mem_distinctTexts.mp hp)) hall
  have hwork₂ : id ∉ d₂.workDir := by rwa [hframe₂.workDir]
  have hsuffix := suffix_of_locate_manifest new.isName hlm.place
  have hframe := Disk.frame_put (d := d₂) (l := lm) (.file
    (Text.utf8 (newManifest id now snapshotId functions files).toJson.pretty) 0o644) hlm.free
  -- the manifest is neither a captured file nor a blob
  have hfiles : ∀ p ∈ paths, ∀ l, d₂.locate p = .ok l → l ≠ lm := by
    rintro p hp l hl rfl
    exact Disk.not_mem_of_locate hwork₂ (new.unmentioned p hp) hl (hsuffix.subset (by simp))
  have hblobs : ∀ c l, d₂.locate (Path.join (Path.join root id) (blobName c)) = .ok l → l ≠ lm := by
    rintro c l hl rfl
    obtain ⟨s, hs⟩ := hsuffix
    obtain ⟨t, ht⟩ := suffix_of_locate_blob new.isName hl
    have := congrArg List.getLast? (ht.trans hs.symm)
    exact blobFile_ne_manifest c (by simpa using this)
  have copy : IsCopyOf ⟨Path.join root id, newManifest id now snapshotId functions files⟩ paths
      d₂ := ⟨hpaths, hentries⟩
  have hread : ∀ p ∈ paths, (d₂.put lm (.file
      (Text.utf8 (newManifest id now snapshotId functions files).toJson.pretty) 0o644)).readFile p =
        d₂.readFile p := by
    intro p hp
    obtain ⟨l, c, m, hfind, -⟩ := copy.exists_file hp
    have hl := hfiles p hp l (Disk.find_eq_ok.mp hfind).1
    rw [Disk.readFile_of_find hfind, Disk.readFile_of_find (hframe.find hfind hl)]
  refine ⟨⟨files, rfl⟩, htime, ⟨hpaths, fun f hf => ?_⟩, ?_, fun differ faithful p hp c hc => ?_⟩
  · obtain ⟨l, c, m, hfind, hentry⟩ := hentries f hf
    have hp : f.path ∈ paths := by
      rw [← mem_distinctTexts, ← hpaths]
      exact List.mem_map_of_mem hf
    exact ⟨l, c, m, hframe.find hfind (hfiles _ hp l (Disk.find_eq_ok.mp hfind).1), hentry⟩
  · exact Disk.readFile_of_find
      (Disk.find_eq_ok.mpr ⟨hframe.locate hlm.place, Disk.node?_put_same _ hlm.free⟩)
  · rw [hread p hp] at hc
    refine Holds.frame (hholds ?_ c (.inr ⟨p, mem_distinctTexts.mpr hp, hc⟩) ?_) hframe (hblobs c)
    · exact fun q hq c' hc' =>
        faithful q (mem_distinctTexts.mp hq) c' ((hread q (mem_distinctTexts.mp hq)).trans hc')
    · exact fun q hq c' hc' => differ q (mem_distinctTexts.mp hq) p hp c' c
        ((hread q (mem_distinctTexts.mp hq)).trans hc') ((hread p hp).trans hc)

/-! ## Reading a backup -/

theorem file?_of_mem {m : Manifest} {f : BackupFile} (hnodup : (m.files.map (·.path)).Nodup)
    (hf : f ∈ m.files) : m.file? f.path = some f := by
  unfold Manifest.file?
  cases hfind : m.files.reverse.find? (·.path = f.path) with
  | none => simpa using List.find?_eq_none.mp hfind f (by simpa using hf)
  | some g =>
    have hg : g ∈ m.files := by simpa using List.mem_of_find?_eq_some hfind
    have hpath : g.path = f.path := by simpa using List.find?_some hfind
    rw [List.inj_on_of_nodup_map hnodup hg hf hpath]

/-- A captured content can be read wherever its blob can. -/
theorem content_eq_ok {c z : Bytes} {m : Nat}
    (hfile : b.manifest.file? path = some (entry path c m))
    (hblob : d.readFile (Path.join b.dir (blobName c)) = .ok z) (hz : Zstd.decode z = .ok c) :
    b.content path d = .ok c := by
  have hname : (entry path c m).blob = blobName c := rfl
  have hdigest : (entry path c m).digest = Blake3.hex c := rfl
  unfold content
  simp only [hfile, hname, hblob, hz, hdigest, if_true]

namespace IsCopyOf

variable {c : Bytes} {m : Nat}

theorem file?_eq (copy : b.IsCopyOf paths d) (hp : path ∈ paths)
    (h : d.find path = .ok (l, .file c m)) : b.manifest.file? path = some (entry path c m) := by
  obtain ⟨l', c', m', h', hmem⟩ := copy.exists_file hp
  obtain ⟨rfl, rfl, rfl⟩ : l = l' ∧ c = c' ∧ m = m' := by simpa [h] using h'
  refine file?_of_mem (f := entry path c m) ?_ hmem
  rw [← Backup.paths, copy.paths_eq]
  exact nodup_distinctTexts paths

theorem modeOf_eq (copy : b.IsCopyOf paths d) (hp : path ∈ paths)
    (h : d.find path = .ok (l, .file c m)) : b.modeOf path = m % 512 := by
  simp [modeOf, copy.file?_eq hp h, entry]

end IsCopyOf

/-! ## Backups to build on -/

/-- The names of the files in a backup. -/
def IsPart (name : String) : Prop :=
  name = "manifest.json" ∨ ∃ c, name = blobName c

/-- A backup that was made on the disk `d₀`, and none of whose files is a captured file. -/
structure IsApart (b : Backup) (paths : List String) (d₀ : Disk) : Prop where
  copy : b.IsCopyOf paths d₀
  outside : ∀ p ∈ paths, ∀ l, d₀.locate p = .ok l →
    ∀ d name, IsPart name → Disk.locate d (Path.join b.dir name) ≠ .ok l

/-- A backup from which every captured file can be told. -/
structure Stands (b : Backup) (paths : List String) (d₀ : Disk) : Prop
    extends b.IsApart paths d₀ where
  holds : ∀ p ∈ paths, ∀ c, d₀.readFile p = .ok c → Holds b.dir c d₀

/-- A captured content can be read on a later disk that still has its blob. -/
theorem IsApart.content_eq {d₀ : Disk} {c z : Bytes} {m : Nat} (stands : b.IsApart paths d₀)
    (hp : path ∈ paths) (h : d₀.find path = .ok (l, .file c m))
    (hblob : d.readFile (Path.join b.dir (blobName c)) = .ok z) (hz : Zstd.decode z = .ok c) :
    b.content path d = .ok c :=
  content_eq_ok (stands.copy.file?_eq hp h) hblob hz

theorem mem_of_locate_part {name : String} (hid : IsName id) (hname : IsPart name)
    (h : d.locate (Path.join (Path.join root id) name) = .ok l) : id ∈ l := by
  rcases hname with rfl | ⟨c, rfl⟩
  · exact (suffix_of_locate_manifest hid h).subset (by simp)
  · exact (suffix_of_locate_blob hid h).subset (by simp)

/-- A backup that was made lies apart from the captured files. -/
theorem isApart_of_create (new : IsNewName id paths d)
    (h : create means id now root snapshotId functions paths d = (.ok b, d')) :
    b.IsApart paths d' := by
  obtain ⟨⟨files, rfl⟩, -, copy, -⟩ := create_eq_ok new h
  have hframe := create_frame new means now root snapshotId functions
  rw [h] at hframe
  have hwork : id ∉ d'.workDir := by
    rw [hframe.workDir]
    intro hid
    simpa using new.unused _ hid
  refine ⟨copy, fun p hp l hl d₂ name hname hpart => ?_⟩
  exact Disk.not_mem_of_locate hwork (new.unmentioned p hp) hl
    (mem_of_locate_part new.isName hname hpart)

/-- A backup that was made stands. -/
theorem stands_of_create (new : IsNewName id paths d)
    (h : create means id now root snapshotId functions paths d = (.ok b, d'))
    (differ : DigestsDiffer paths d') (faithful : means.Faithful paths d') : b.Stands paths d' := by
  obtain ⟨-, -, -, -, hholds⟩ := create_eq_ok new h
  exact ⟨isApart_of_create new h, hholds differ faithful⟩

end Backup

/-- Contents that are not too long are told from plain blocks. -/
theorem BackupMeans.faithful_of_small {means : BackupMeans} (h : means.compress = Zstd.encode)
    {paths : List String} {d : Disk}
    (small : ∀ p ∈ paths, ∀ c, d.readFile p = .ok c → c.length < 2 ^ 64) :
    means.Faithful paths d := by
  intro p hp c hc
  rw [h, Zstd.decode_encode (small p hp c hc)]

end Deadwood
