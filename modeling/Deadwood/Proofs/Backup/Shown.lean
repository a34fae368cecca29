import Deadwood.CommandLine.Deletion
import Deadwood.Proofs.Pruning.Safeguard

/-!
# Which backups are listed

A deletion run puts its backup below a directory of the settings, and the backups in a directory of
the settings are listed. Both look for that directory below the root that was asked for, if there is
one. Otherwise the run looks for it below the root of the snapshot and the listing in the working
directory, so that the backup is found only if this is the same.

## Main definitions

* `Disk.HasNames`: all entries of a disk have names.
* `Backup.IsAmong`: a backup is one of those listed, under any of its paths.

## Main results

* `Backup.place_of_open`: where a backup lies.
* `Backup.exists_mem_all`: the backups below a directory.
* `created_backup_listed_iff`: when the backup of a run is listed.
-/

namespace Deadwood

open Text Deadwood.Path

/-! ## Directories -/

namespace Disk

variable {d : Disk} {l : Location} {name : String} {n : DiskNode}

/-- All entries of a disk have proper names. -/
def HasNames (d : Disk) : Prop :=
  ∀ e ∈ d.nodes, ∀ s ∈ e.1, IsName s

instance : Decidable d.HasNames :=
  inferInstanceAs (Decidable (∀ e ∈ d.nodes, ∀ s ∈ e.1, IsName s))

/-- What an operation returned, and the disk with proper names that it left. -/
theorem exists_eq_ok_of_names {α : Type} {r : Except Fault α × Disk}
    (h : (r.1.isOk && decide r.2.HasNames) = true) :
    ∃ a d, r = (.ok a, d) ∧ d.HasNames := by
  obtain ⟨x, d⟩ := r
  obtain ⟨hok, hnames⟩ := (Bool.and_eq_true _ _).mp h
  obtain ⟨a, rfl⟩ := exists_eq_ok hok
  exact ⟨a, d, rfl, of_decide_eq_true hnames⟩

end Disk

/-! ## Backups below a directory -/

namespace Backup

variable {d : Disk} {dir dir' root id : String} {b : Backup} {l : Location}

/-- The names that lead from the directory of a backup to its manifest. -/
theorem isName_of_mem_manifest (hid : IsName id) :
    ∀ s ∈ segments '/' (id ++ "/" ++ "manifest.json"), IsName s := by
  have hlast : segments '/' "manifest.json" = ["manifest.json"] := by decide
  have hname : IsName "manifest.json" := by decide
  rw [segments_slash, segments_eq_singleton hid.noSlash, hlast]
  simp [hid, hname]

theorem manifestPath_join (hroot : root ≠ "") (hid : IsName id) :
    manifestPath (Path.join root id) = Path.join root (id ++ "/" ++ "manifest.json") := by
  refine join_join hroot ?_ (by decide)
  simpa [segments_eq_singleton hid.noSlash] using hid

/-- A backup can be opened below another path that leads to the same directory. -/
theorem open_of_same_directory {other : String} (hroot : root ≠ "") (hother : other ≠ "")
    (hid : IsName id) (h : open_ (Path.join root id) d = .ok b)
    (hsame : d.locate (clean other) = d.locate (clean root))
    (room : byteLength (manifestPath (Path.join other id)) ≤ Disk.pathLimit) :
    open_ (Path.join other id) d = .ok ⟨Path.join other id, b.manifest⟩ := by
  obtain ⟨-, bs, hread, hparse⟩ := open_eq_ok_iff.mp h
  obtain ⟨l, m, hfind⟩ := Disk.readFile_eq_ok.mp hread
  obtain ⟨hl, hn⟩ := Disk.find_eq_ok.mp hfind
  rw [manifestPath_join hroot hid] at hl
  rw [manifestPath_join hother hid] at room
  have hl' := Disk.locate_join_of_locate_eq hroot hother (isName_of_mem_manifest hid) hl hsame room
  rw [← manifestPath_join hother hid] at hl'
  have hfind' := Disk.find_eq_ok.mpr ⟨hl', hn⟩
  exact open_eq_ok_iff.mpr ⟨rfl, bs, Disk.readFile_of_find hfind', hparse⟩

/-- The place of a backup that can be opened. -/
theorem place_of_open (hroot : root ≠ "") (hid : IsName id)
    (h : open_ (Path.join root id) d = .ok b) :
    ∃ m, d.locate (clean root) = .ok m ∧ d.node? m = some .directory ∧
      d.locate (Path.join root id) = .ok (m ++ [id]) ∧
      d.node? (m ++ [id]) = some .directory ∧
      d.locate (manifestPath (Path.join root id)) = .ok (m ++ [id] ++ ["manifest.json"]) := by
  obtain ⟨-, bs, hread, -⟩ := open_eq_ok_iff.mp h
  obtain ⟨l, _, hfind⟩ := Disk.readFile_eq_ok.mp hread
  have hl := (Disk.find_eq_ok.mp hfind).1
  obtain ⟨m', hm', hdir', rfl⟩ :=
    Disk.locate_join_name (Path.join_ne_empty hid.nonempty) (by decide) hl
  rw [clean_join hroot] at hm'
  obtain ⟨m, hm, hdir, rfl⟩ := Disk.locate_join_name hroot hid hm'
  exact ⟨m, hm, hdir, hm', hdir', hl⟩

/-- The backups below a directory are those that can be opened there. -/
theorem exists_mem_all : (∃ bs, all root d = .ok bs ∧ b ∈ bs) ↔
    ∃ l name, d.find root = .ok (l, .directory) ∧ (l ++ [name], .directory) ∈ d.nodes ∧
      open_ (Path.join root name) d = .ok b := by
  have hnothing : ∀ (f g : Fault) (bs : List Backup),
      (if f.isMissing then Except.ok [] else .error g) = .ok bs → b ∉ bs := by
    intro f g bs h
    split_ifs at h
    obtain rfl := Except.ok.inj h
    exact List.not_mem_nil
  unfold all Disk.list
  constructor
  · rintro ⟨bs, hbs, hb⟩
    cases hfind : d.find root with
    | error e =>
      rw [hfind] at hbs
      exact absurd hb (hnothing _ _ _ hbs)
    | ok found =>
      rw [hfind] at hbs
      obtain ⟨l, content | _⟩ := found
      · exact absurd hb (hnothing _ _ _ hbs)
      · obtain rfl := Except.ok.inj hbs
        obtain ⟨⟨name, n⟩, hchild, hopened⟩ := List.mem_filterMap.mp (mem_sortedBy.mp hb)
        cases n with
        | file content mode => cases hopened
        | directory =>
          refine ⟨l, name, rfl, Disk.mem_children.mp hchild, ?_⟩
          cases hopen : open_ (Path.join root name) d with
          | error f => simp [hopen, Except.toOption] at hopened
          | ok b' => simpa [hopen, Except.toOption] using hopened
  · rintro ⟨l, name, hfind, hmem, hopen⟩
    rw [hfind]
    refine ⟨_, rfl, mem_sortedBy.mpr (List.mem_filterMap.mpr ?_)⟩
    exact ⟨(name, .directory), Disk.mem_children.mpr hmem, by simp [hopen, Except.toOption]⟩

/-- A backup is in a listing: one that is listed has its manifest and lies in the same place. -/
def IsAmong (b : Backup) (d : Disk) (listing : Except Fault (List Backup)) : Prop :=
  ∃ bs, listing = .ok bs ∧ ∃ b' ∈ bs, b'.manifest = b.manifest ∧ d.locate b'.dir = d.locate b.dir

/-- A backup is listed with the directory in which it lies. -/
theorem isAmong_all (hroot : root ≠ "") (hid : IsName id) (hwork : id ∉ d.workDir)
    (hl : d.locate root = .ok l) (hplace : d.locate b.dir = .ok (l ++ [id]))
    (hopen : open_ (Path.join root id) d = .ok ⟨Path.join root id, b.manifest⟩) :
    b.IsAmong d (all root d) := by
  obtain ⟨m, hm, hdir, hjoin, hdir', -⟩ := place_of_open hroot hid hopen
  obtain rfl := Disk.eq_of_locate_clean hm hl
  have hway : (m ++ [id]).isPrefixOf d.workDir = false := by
    refine Bool.eq_false_iff.mpr fun h => hwork ?_
    exact (List.isPrefixOf_iff_prefix.mp h).subset (by simp)
  obtain ⟨bs, hbs, hmem⟩ := exists_mem_all.mpr
    ⟨m, id, Disk.find_eq_ok.mpr ⟨hl, hdir⟩, Disk.mem_of_node? hdir' hway, hopen⟩
  exact ⟨bs, hbs, _, hmem, rfl, hjoin.trans hplace.symm⟩

/-- A backup below one directory is listed with another one exactly if both are the same. -/
theorem isAmong_all_iff {other : String} (hroot : root ≠ "") (hid : IsName id)
    (hwork : id ∉ d.workDir) (hnames : d.HasNames) (hopen : open_ (Path.join root id) d = .ok b)
    (room : byteLength (manifestPath (Path.join other id)) ≤ Disk.pathLimit) :
    b.IsAmong d (all other d) ↔
      ∃ l, d.locate other = .ok l ∧ d.locate (Path.join root id) = .ok (l ++ [id]) := by
  obtain ⟨m, hm, hdir, hjoin, hdir', hmanifest⟩ := place_of_open hroot hid hopen
  have hb : b.dir = Path.join root id := (open_eq_ok_iff.mp hopen).1
  constructor
  · rintro ⟨bs, hbs, b', hb', hsame, hplace⟩
    obtain ⟨l, name, hfind, hmem, hopen'⟩ := exists_mem_all.mp ⟨bs, hbs, hb'⟩
    have hl := (Disk.find_eq_ok.mp hfind).1
    rw [(open_eq_ok_iff.mp hopen').1, hb, hjoin] at hplace
    obtain ⟨m', hm', -, heq⟩ := Disk.locate_join_name (Disk.locate_eq_ok.mp hl).1
      (hnames _ hmem name (by simp)) hplace
    obtain rfl := Disk.eq_of_locate_clean hm' hl
    obtain ⟨rfl, -⟩ := List.append_inj' heq rfl
    exact ⟨m, hl, hjoin⟩
  · rintro ⟨l, hl, hplace⟩
    have hother := (Disk.locate_eq_ok.mp hl).1
    obtain ⟨rfl, -⟩ := List.append_inj' (Except.ok.inj (hplace.symm.trans hjoin)) rfl
    have hclean : d.locate (clean other) = .ok l := by
      obtain ⟨-, hnul, -, hf⟩ := Disk.locate_eq_ok.mp hl
      have hlen := utf8ByteSize_clean_le hother (isName_of_mem_manifest hid)
      rw [← manifestPath_join hother hid] at hlen
      exact Disk.locate_clean hf hnul (Nat.le_trans hlen room)
    have hopen' := open_of_same_directory hroot hother hid hopen (hclean.trans hm.symm) room
    exact isAmong_all hother hid hwork hl (hb ▸ hplace) hopen'

theorem isAmong_all_of_clean (hroot : root ≠ "") (hclean : clean root = root) (hid : IsName id)
    (hwork : id ∉ d.workDir) (hopen : open_ (Path.join root id) d = .ok b) :
    b.IsAmong d (all root d) := by
  obtain ⟨m, hm, -, hjoin, -⟩ := place_of_open hroot hid hopen
  obtain ⟨dir, manifest⟩ := b
  obtain rfl : dir = Path.join root id := (open_eq_ok_iff.mp hopen).1
  exact isAmong_all hroot hid hwork (hclean ▸ hm) hjoin hopen

/-- A backup below some names of another directory is listed with these names exactly if that
directory is the working directory. -/
theorem isAmong_all_below_iff {top below : String} (htop : top ≠ "")
    (hbelow : ∀ s ∈ segments '/' below, IsName s) (hid : IsName id) (hwork : id ∉ d.workDir)
    (hnames : d.HasNames) (hopen : open_ (Path.join (Path.join top below) id) d = .ok b)
    (room : byteLength (manifestPath (Path.join below id)) ≤ Disk.pathLimit) :
    b.IsAmong d (all below d) ↔ d.locate (clean top) = .ok d.workDir := by
  have hroot : Path.join top below ≠ "" := join_ne_empty_of_ne htop
  have hne : below ≠ "" := by
    rintro rfl
    exact (hbelow "" (by decide)).nonempty rfl
  have hstart : d.startOf below = d.workDir := by
    simp [Disk.startOf, not_isAbsolute_of_names hbelow]
  obtain ⟨m, hm, -, hjoin, -⟩ := place_of_open hroot hid hopen
  rw [clean_join htop] at hm
  obtain ⟨place, hplace, hfollow⟩ := Disk.locate_join_eq_ok htop hbelow hm
  have heq : m = place ++ segments '/' below := Disk.suffix_of_follow hbelow hfollow
  rw [isAmong_all_iff hroot hid hwork hnames hopen room, hplace, hjoin]
  constructor
  · rintro ⟨l, hl, hlast⟩
    obtain ⟨-, -, -, hf⟩ := Disk.locate_eq_ok.mp hl
    rw [hstart] at hf
    obtain ⟨rfl, -⟩ := List.append_inj' (Except.ok.inj hlast) rfl
    rw [heq] at hf
    exact congrArg Except.ok (List.append_cancel_right (Disk.suffix_of_follow hbelow hf))
  · intro hwhere
    obtain rfl := Except.ok.inj hwhere
    refine ⟨m, Disk.locate_eq_ok.mpr ⟨hne, fun hnul => ?_, ?_, hstart ▸ hfollow⟩, rfl⟩
    · rcases mem_join_of_mem htop hbelow hnul with hnul | hnul
      · exact (Disk.locate_eq_ok.mp hm).2.1 hnul
      · exact absurd hnul (by decide)
    · have hlen := utf8ByteSize_clean_le hne (isName_of_mem_manifest hid)
      rw [clean_eq_self_of_names hbelow, ← manifestPath_join hne hid] at hlen
      exact Nat.le_trans hlen room

end Backup

/-! ## The commands -/

namespace CommandLine

variable {flags flags' : Given} {ws : Workspace} {settings : Settings}

theorem sourceRoot_ne_empty (snapshot : SnapshotInfo) (flags : Given) :
    sourceRoot snapshot flags ≠ "" := by
  unfold sourceRoot
  split_ifs with hflag hrecorded
  · exact hflag
  · exact hrecorded
  · decide

/-- Where a deletion run keeps backups. -/
theorem resolve_backupDir (flags : Given) (ws : Workspace) :
    let o := pruneOptions flags ws
    let dir := ws.settings.deletion.backupDir
    o.resolve o.backupDir =
      if isAbsolute dir then dir else Path.join (sourceRoot ws.snapshot flags) dir := by
  intro o dir
  have hroot : o.rootDir ≠ "" := sourceRoot_ne_empty ws.snapshot flags
  have hresolve : o.resolve o.backupDir =
      if isAbsolute dir || o.rootDir = "" then dir else Path.join o.rootDir dir := rfl
  rw [hresolve]
  simp only [hroot, decide_false, Bool.or_false]
  rfl

theorem resolve_backupDir_ne_empty (flags : Given) (ws : Workspace) :
    (pruneOptions flags ws).resolve (pruneOptions flags ws).backupDir ≠ "" := by
  rw [resolve_backupDir]
  split_ifs with habs
  · rintro hempty
    rw [hempty] at habs
    cases habs
  · exact join_ne_empty_of_ne (sourceRoot_ne_empty ws.snapshot flags)

/-- Where backups are looked for if no directory is named. -/
theorem backupRoot_eq (root : flags'.text "root" = flags.text "root") (dir : flags'.text "dir" = "")
    (same : settings.deletion.backupDir = ws.settings.deletion.backupDir) :
    backupRoot flags' settings =
      if flags.text "root" ≠ "" ∧ isAbsolute ws.settings.deletion.backupDir = false then
        Path.join (flags.text "root") ws.settings.deletion.backupDir
      else ws.settings.deletion.backupDir := by
  simp [backupRoot, root, dir, same]

/-- With a clean directory in the settings, a run and a listing mean the same path unless only the
snapshot has a root. -/
theorem backupRoot_eq_resolve (root : flags'.text "root" = flags.text "root")
    (dir : flags'.text "dir" = "")
    (same : settings.deletion.backupDir = ws.settings.deletion.backupDir)
    (hclean : clean ws.settings.deletion.backupDir = ws.settings.deletion.backupDir)
    (h : flags.text "root" ≠ "" ∨ isAbsolute ws.settings.deletion.backupDir ∨
      ws.snapshot.rootDir = "") :
    backupRoot flags' settings =
        (pruneOptions flags ws).resolve (pruneOptions flags ws).backupDir ∧
      clean (backupRoot flags' settings) = backupRoot flags' settings := by
  rw [backupRoot_eq root dir same, resolve_backupDir]
  cases habs : isAbsolute ws.settings.deletion.backupDir with
  | true => simp [hclean]
  | false =>
    by_cases hflag : flags.text "root" = ""
    · have hrecorded : ws.snapshot.rootDir = "" := by simpa [hflag, habs] using h
      have hhere : sourceRoot ws.snapshot flags = "." := by simp [sourceRoot, hflag, hrecorded]
      simp [hflag, hhere, join_here habs, hclean]
    · have hasked : sourceRoot ws.snapshot flags = flags.text "root" := by simp [sourceRoot, hflag]
      simp [hflag, hasked, clean_join hflag]

/-- The functions that a deletion run would delete. -/
def Workspace.candidates (flags : Given) (ws : Workspace) : List (Candidate Float) :=
  (select (pruneOptions flags ws) ws.functions ws.edges (some (evidenceFor flags ws))).candidates

theorem dir_of_attempt {means : BackupMeans} {o : PruneOptions Float} {id : String}
    {now : Timestamp} {candidates : List (Candidate Float)} {d : Disk} {b : Backup}
    (new : IsNewName id (touchedFiles o candidates) d)
    (hmade : attempt means o id now candidates d = .ok b) :
    b.dir = Path.join (o.resolve o.backupDir) id := by
  obtain ⟨⟨_, rfl⟩, -⟩ := Backup.create_eq_ok new (makeBackup_of_attempt hmade)
  rfl

/-- A deletion run that is not refused, and whose backup can be made of files that can be read, has
it from then on. -/
theorem exists_open_of_create {s : Session} {root : String} {ids files : List String} {b : Backup}
    {d : Disk} (hroot : (pruneOptions flags ws).resolve (pruneOptions flags ws).backupDir = root)
    (hids : (ws.candidates flags).map (·.function.id) = ids)
    (hfiles : touchedFiles (pruneOptions flags ws) (ws.candidates flags) = files)
    (new : IsNewName s.freshId files s.disk)
    (allowed : ¬ IsRefused (surroundings flags ws s.input) (pruneOptions flags ws)
      (ws.candidates flags) "")
    (small : ∀ p ∈ files, ∃ c, s.disk.readFile p = .ok c ∧ c.length < Word.bound)
    (made : Backup.create {} s.freshId s.now root ws.snapshot.id ids files s.disk = (.ok b, d)) :
    d.workDir = s.disk.workDir ∧ ∃ out, (deletionRun flags ws s).outcome = some out ∧
      out.backupPath = Path.join root s.freshId ∧ Backup.open_ out.backupPath d = .ok b := by
  subst hroot hids hfiles
  have hready :
      backedUp {} (pruneOptions flags ws) s.freshId s.now (ws.candidates flags) s.disk = d :=
    congrArg Prod.snd made
  have hb : attempt {} (pruneOptions flags ws) s.freshId s.now (ws.candidates flags) s.disk =
      .ok b := congrArg Prod.fst made
  have hframe := Backup.create_frame new {} s.now
    ((pruneOptions flags ws).resolve (pruneOptions flags ws).backupDir) ws.snapshot.id
    ((ws.candidates flags).map (·.function.id))
  rw [made] at hframe
  obtain ⟨-, out, -, hout, -, hpath, -⟩ := prune_of_attempt_ok allowed hb
  obtain ⟨-, -, copy, -⟩ := Backup.create_eq_ok new made
  refine ⟨hframe.workDir, out, hout, hpath.trans (dir_of_attempt new hb), ?_⟩
  rw [hpath]
  refine Backup.open_eq_ok new made (fun p hp c hc => ?_) copy.lasts
  obtain ⟨c', hc', hlen⟩ := small p hp
  rw [← hready, readFile_backedUp new hc'] at hc
  rwa [← Except.ok.inj hc]

end CommandLine

open CommandLine

/-- A deletion run has made a backup, and the backups are listed later with the same root and the
same settings. If the directory of the settings is clean, and it is absolute, a root was asked for
or the snapshot has none, then the backup is listed. In general it is listed exactly if the path
that is looked at leads to the directory in which the backup lies. So if only the snapshot has a
root, and the directory of the settings consists of names, it is listed exactly if that root is the
working directory. The backup is there at the end of the run if the checks leave it alone. -/
theorem created_backup_listed_iff {flags flags' : Given} {ws : Workspace} {settings : Settings}
    {s : Session} {out : PruneOutcome Float} (root : flags'.text "root" = flags.text "root")
    (dir : flags'.text "dir" = "")
    (same : settings.deletion.backupDir = ws.settings.deletion.backupDir)
    (new : IsNewName s.freshId (touchedFiles (pruneOptions flags ws) (ws.candidates flags)) s.disk)
    (ended : (deletionRun flags ws s).outcome = some out) (created : out.backupPath ≠ "") :
    let o := pruneOptions flags ws
    let backupDir := ws.settings.deletion.backupDir
    let looked := backupRoot flags' settings
    let files := touchedFiles o (ws.candidates flags)
    let env := surroundings flags ws s.input
    let ready := backedUp env.means o s.freshId s.now (ws.candidates flags) s.disk
    (∀ d b, d.workDir = s.disk.workDir → Backup.open_ out.backupPath d = .ok b →
      (clean backupDir = backupDir →
        flags.text "root" ≠ "" ∨ isAbsolute backupDir ∨ ws.snapshot.rootDir = "" →
          b.IsAmong d (shownBackups flags' settings d)) ∧
      (d.HasNames →
        byteLength (Backup.manifestPath (Path.join looked s.freshId)) ≤ Disk.pathLimit →
        (b.IsAmong d (shownBackups flags' settings d) ↔
          ∃ l, d.locate looked = .ok l ∧ d.locate out.backupPath = .ok (l ++ [s.freshId])) ∧
        (flags.text "root" = "" → ws.snapshot.rootDir ≠ "" →
          (∀ n ∈ segments '/' backupDir, IsName n) →
            (b.IsAmong d (shownBackups flags' settings d) ↔
              d.locate (clean ws.snapshot.rootDir) = .ok d.workDir)))) ∧
    ((∀ p ∈ files, ∀ c, ready.readFile p = .ok c → c.length < Word.bound) →
      (∀ b, env.Keeps b files ready) →
        ∃ b, Backup.open_ out.backupPath (deletionRun flags ws s).disk = .ok b) := by
  intro o backupDir looked files env ready
  obtain ⟨hidle, -⟩ | ⟨-, hallowed, made, hmade, hpath⟩ := prune_idle_or_executed new ended
  · exact absurd hidle.backupPath created
  have hdir : out.backupPath = Path.join (o.resolve o.backupDir) s.freshId :=
    hpath.trans (dir_of_attempt new hmade)
  have hroot : o.resolve o.backupDir ≠ "" := resolve_backupDir_ne_empty flags ws
  refine ⟨fun d b hworkDir hopen => ?_, fun small checks => ?_⟩
  · have hwork : s.freshId ∉ d.workDir := by
      rw [hworkDir]
      intro hid
      simpa using new.unused _ hid
    rw [hdir] at hopen ⊢
    refine ⟨fun hclean hsame => ?_, fun hnames room => ⟨?_, fun hflag hrecorded hplain => ?_⟩⟩
    · obtain ⟨hlooked, hclean⟩ := backupRoot_eq_resolve root dir same hclean hsame
      rw [← hlooked] at hroot hopen
      exact Backup.isAmong_all_of_clean hroot hclean new.isName hwork hopen
    · exact Backup.isAmong_all_iff hroot new.isName hwork hnames hopen room
    · have hlooked : looked = backupDir := by
        simp [looked, backupRoot_eq root dir same, hflag, backupDir]
      have hresolve : o.resolve o.backupDir = Path.join ws.snapshot.rootDir backupDir := by
        have habs : isAbsolute ws.settings.deletion.backupDir = false :=
          not_isAbsolute_of_names hplain
        simp [o, resolve_backupDir, habs, sourceRoot, hflag, hrecorded, backupDir]
      rw [hresolve] at hopen
      rw [hlooked] at room
      have hiff := Backup.isAmong_all_below_iff hrecorded hplain new.isName hwork hnames hopen room
      rwa [← hlooked] at hiff
  · exact ⟨made, hpath ▸ open_backup_of_prune new small hallowed hmade (checks made)⟩

/-- The snapshot has a root below the working directory, and no other root is asked for. The backup
of the run is not listed. -/
theorem created_backup_listed_iff_root_of_snapshot :
    let flags : Given := [("execute", .toggle true), ("yes", .toggle true)]
    let ws : Workspace :=
      { settings := { deletion := { backupDir := "b" } }, database := {}
        snapshot := { id := "s", rootDir := "src" }
        functions :=
          [{ id := "f", name := "dead", filePath := "a.go", startLine := 1, endLine := 1 }]
        edges := [] }
    let s : Session :=
      { disk := { nodes := [(["work", "src", "a.go"], .file [97, 10] 0o644),
          (["work", "src"], .directory)] }
        freshId := "b1", now := .zero }
    ∃ out b d, (deletionRun flags ws s).outcome = some out ∧ out.backupPath = "src/b/b1" ∧
      Backup.open_ out.backupPath d = .ok b ∧ ¬ b.IsAmong d (shownBackups [] ws.settings d) := by
  obtain ⟨b, d, hmade, hnames⟩ : ∃ b d,
      Backup.create {} "b1" .zero "src/b" "s" ["f"] ["src/a.go"]
        { nodes := [(["work", "src", "a.go"], .file [97, 10] 0o644),
          (["work", "src"], .directory)] } = (.ok b, d) ∧ d.HasNames :=
    Disk.exists_eq_ok_of_names (by decide +kernel)
  intro flags ws s
  have hids : (ws.candidates flags).map (·.function.id) = ["f"] := by decide +kernel
  have hfiles : touchedFiles (pruneOptions flags ws) (ws.candidates flags) = ["src/a.go"] := by
    decide +kernel
  have hroot : (pruneOptions flags ws).resolve (pruneOptions flags ws).backupDir = "src/b" := by
    decide +kernel
  have new : IsNewName s.freshId ["src/a.go"] s.disk :=
    .of_unused (by decide) (by decide) (by decide) (by decide)
  have allowed : ¬ IsRefused (surroundings flags ws s.input) (pruneOptions flags ws)
      (ws.candidates flags) "" := by
    have hproblem : (pruneOptions flags ws).problem?.isSome = false := by decide +kernel
    have hconfirm : (surroundings flags ws s.input).confirm = none := rfl
    have hsome : ws.candidates flags ≠ [] := by
      rintro h
      simp [h] at hids
    simp only [IsRefused, Surroundings.reply, hconfirm, hproblem, hsome]
    decide
  have small : ∀ p ∈ ["src/a.go"], ∃ c, s.disk.readFile p = .ok c ∧ c.length < Word.bound := by
    simp only [List.mem_singleton, forall_eq]
    exact ⟨[97, 10], rfl, by decide⟩
  obtain ⟨hworkDir, out, hout, hpath, hopen⟩ :=
    exists_open_of_create hroot hids hfiles new allowed small hmade
  have hdir : out.backupPath = "src/b/b1" := hpath.trans (by decide +kernel)
  have hlisted := @created_backup_listed_iff flags [] ws ws.settings s out rfl rfl rfl
    (hfiles ▸ new) hout (by rw [hdir]; decide)
  refine ⟨out, b, d, hout, hdir, hopen, ?_⟩
  rw [((hlisted.1 d b hworkDir hopen).2 hnames (by decide +kernel)).2 rfl (by decide) (by decide)]
  intro hplace
  have hsegments : segments '/' (clean ws.snapshot.rootDir) = [] ++ ["src"] := by decide +kernel
  have hlast := Disk.suffix_of_locate hsegments (by decide) hplace
  rw [hworkDir] at hlast
  exact absurd hlast (by decide)

end Deadwood
