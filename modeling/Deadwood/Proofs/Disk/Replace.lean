import Deadwood.Disk.Replace
import Deadwood.Proofs.Disk.Locate
import Mathlib.Data.List.Nodup
import Mathlib.Data.List.Perm.Subperm

/-!
# Replacing a file changes that file and nothing else

A replacement either succeeds, and then the path leads to a file with the new content, or it fails,
and then the disk looks as it did before, but for a temporary file whose removal was refused. It
succeeds exactly if the path does not lead to a directory, there is room for the name of the
temporary file, and no step is refused.

## Main definitions

* `Disk.HasRoom`: a temporary file fits beside the file of a path.
* `Disk.Replaceable`: nothing stands in the way of a replacement.
* `Disk.LeftBy`: what a failed replacement leaves.

## Main results

* `Disk.freeNumber_free`: there is always a free name for a temporary file.
* `Disk.fillTemp_put`: steps on a temporary file change nothing else.
* `Disk.replaceFileUnder_cases`: what a replacement does, whatever is refused.
* `Disk.replaceFile_cases`: what it does if only the disk decides.
* `Disk.replaceFile_succeeds`: when it succeeds.
-/

namespace Deadwood

theorem Decimal.digitText_injective : Function.Injective Decimal.digitText := by
  intro a b h
  have hd : Nat.toDigits 10 a = Nat.toDigits 10 b := String.ofList_injective h
  rw [← Nat.ofDigitChars_ten_toDigits (n := a), hd, Nat.ofDigitChars_ten_toDigits]

namespace Disk

open Text

variable {d d' : Disk} {path : String} {l : Location} {content : Bytes} {mode : Nat}

/-! ## Names for temporary files -/

/-- The place of the temporary file with a number. -/
def tempPlace (dir : Location) (base : String) (n : Nat) : Location :=
  dir ++ [tempName base (Decimal.digitText n)]

theorem tempPlace_injective (dir : Location) (base : String) :
    Function.Injective (tempPlace dir base) := by
  intro a b h
  have hname : tempName base (Decimal.digitText a) = tempName base (Decimal.digitText b) := by
    simpa [tempPlace] using h
  apply Decimal.digitText_injective
  have := congrArg String.toList hname
  simp only [tempName, String.toList_append, List.append_cancel_left_eq] at this
  exact String.toList_injective this

/-- What is there and not on the way to the working directory is an entry of the disk. -/
theorem mem_of_node? {n : DiskNode} (h : d.node? l = some n)
    (hp : l.isPrefixOf d.workDir = false) : (l, n) ∈ d.nodes := by
  simp only [node?, hp, Bool.false_eq_true, if_false] at h
  generalize d.nodes = nodes at h ⊢
  induction nodes with
  | nil => simp at h
  | cons e nodes ih =>
    obtain ⟨k, v⟩ := e
    rw [lookup_cons_if] at h
    split_ifs at h with he
    · simp [he, Option.some.inj h]
    · exact List.mem_cons_of_mem _ (ih h)

theorem mem_nodes_of_node? {n : DiskNode} (h : d.node? l = some n)
    (hp : l.isPrefixOf d.workDir = false) : l ∈ d.nodes.map (·.1) :=
  List.mem_map.mpr ⟨_, mem_of_node? h hp, rfl⟩

theorem nodup_tempPlaces (dir : Location) (base : String) (count : Nat) :
    ((List.range count).map (tempPlace dir base)).Nodup :=
  List.Nodup.map (tempPlace_injective dir base) List.nodup_range

/-- At most one temporary file can lie on the way to the working directory. -/
theorem length_onWay_le (dir : Location) (base : String) (count : Nat) :
    (((List.range count).map (tempPlace dir base)).filter (·.isPrefixOf d.workDir)).length ≤ 1 := by
  have hnodup := (nodup_tempPlaces dir base count).filter (·.isPrefixOf d.workDir)
  have hlength : ∀ a ∈ ((List.range count).map (tempPlace dir base)).filter
      (·.isPrefixOf d.workDir), a <+: d.workDir ∧ a.length = dir.length + 1 := by
    intro a ha
    obtain ⟨ha, hp⟩ := List.mem_filter.mp ha
    obtain ⟨i, -, rfl⟩ := List.mem_map.mp ha
    exact ⟨List.isPrefixOf_iff_prefix.mp hp, by simp [tempPlace]⟩
  revert hnodup hlength
  generalize ((List.range count).map (tempPlace dir base)).filter (·.isPrefixOf d.workDir) = found
  intro hnodup hlength
  match found with
  | [] => simp
  | [a] => simp
  | a :: b :: rest =>
    obtain ⟨ha, hla⟩ := hlength a (by simp)
    obtain ⟨hb, hlb⟩ := hlength b (by simp)
    have : a = b := (List.prefix_of_prefix_length_le ha hb (by omega)).eq_of_length (by omega)
    simp [this] at hnodup

theorem exists_freeNumber (d : Disk) (dir : Location) (base : String) :
    ∃ n, n < d.nodes.length + 2 ∧ d.node? (tempPlace dir base n) = none := by
  by_contra hnone
  push Not at hnone
  -- all but one of the places would have to be among the nodes, of which there are too few
  let places := (List.range (d.nodes.length + 2)).map (tempPlace dir base)
  have hnodup : (places.filter (!·.isPrefixOf d.workDir)).Nodup :=
    (nodup_tempPlaces dir base _).filter _
  have hsub : places.filter (!·.isPrefixOf d.workDir) ⊆ d.nodes.map (·.1) := by
    intro l hl
    obtain ⟨hl, hp⟩ := List.mem_filter.mp hl
    obtain ⟨n, hn, rfl⟩ := List.mem_map.mp hl
    obtain ⟨node, hnode⟩ := Option.ne_none_iff_exists'.mp (hnone n (List.mem_range.mp hn))
    exact mem_nodes_of_node? hnode (by simpa using hp)
  have hle := (List.subperm_of_subset hnodup hsub).length_le
  have hway := length_onWay_le (d := d) dir base (d.nodes.length + 2)
  have hsum := List.length_eq_length_filter_add (l := places) (·.isPrefixOf d.workDir)
  simp only [places, List.length_map, List.length_range] at hle hsum hway
  omega

@[simp] theorem freeNumber_free (d : Disk) (dir : Location) (base : String) :
    d.node? (tempPlace dir base (d.freeNumber dir base)) = none := by
  obtain ⟨n, hn, hfree⟩ := exists_freeNumber d dir base
  unfold freeNumber
  cases hf : (List.range (d.nodes.length + 2)).find? fun n =>
      (d.node? (dir ++ [tempName base (Decimal.digitText n)])).isNone with
  | none =>
    have := List.find?_eq_none.mp hf n (List.mem_range.mpr hn)
    simp only [tempPlace] at hfree
    simp [hfree] at this
  | some k => simpa [tempPlace] using List.find?_some hf

/-! ## The disk with a temporary file -/

/-- The disk with a temporary file leads paths to the same places. -/
theorem frame_unput {n : DiskNode} (h : d.node? l = none) (hn : n ≠ .directory) :
    Frame (· = l) (d.put l n) d where
  workDir := rfl
  directory l' hl' := by
    by_cases he : l' = l
    · subst he
      rw [node?_put_same n (by simp [h])] at hl'
      exact absurd (Option.some.inj hl') hn
    · rwa [node?_put_of_ne n he] at hl'
  same l' hl' := (node?_put_of_ne n hl').symm

@[simp] theorem put_put (n n' : DiskNode) : (d.put l n).put l n' = d.put l n' := by
  simp only [put, assign_assign]

/-- Removing a temporary file again leaves nothing behind. -/
theorem erase_put (h : d.node? l = none) (n : DiskNode) : (d.put l n).erase l = d := by
  have hp : l.isPrefixOf d.workDir = false := isPrefixOf_eq_false (by simp [h])
  have hnew : l ∉ d.nodes.map (·.1) := by
    simp only [node?, hp, Bool.false_eq_true, if_false, List.lookup_eq_none_iff] at h
    intro hmem
    obtain ⟨e, he, rfl⟩ := List.mem_map.mp hmem
    simpa using h e he
  simp only [put, erase, unassign_assign hnew]

theorem removeFile_put (h : d.node? l = none) (content : Bytes) (mode : Nat) :
    (d.put l (.file content mode)).removeFile l = d := by
  unfold removeFile
  rw [node?_put_same _ (by simp [h])]
  exact erase_put h _

/-- Steps on a temporary file change nothing else. They come to their end if none is refused. -/
theorem fillTemp_put (refused : ReplaceStep → Option Refusal) (temp : Location)
    (steps : List (ReplaceStep × DiskNode)) (n : DiskNode) :
    (∃ step r, step ∈ steps.map (·.1) ∧ refused step = some r ∧
        fillTemp refused temp steps (d.put temp n) =
          (.error (step, r.error), d.put temp (.file r.left 0o600))) ∨
      ((∀ step ∈ steps.map (·.1), refused step = none) ∧
        fillTemp refused temp steps (d.put temp n) =
          (.ok (), d.put temp ((steps.map (·.2)).getLast?.getD n))) := by
  induction steps generalizing n with
  | nil => exact .inr ⟨by simp, rfl⟩
  | cons s steps ih =>
    obtain ⟨step, node⟩ := s
    unfold fillTemp
    cases hstep : refused step with
    | some r => exact .inl ⟨step, r, by simp, hstep, by simp only [put_put]⟩
    | none =>
      simp only [put_put]
      rcases ih node with ⟨step', r, hmem, hr, hfill⟩ | ⟨hnone, hfill⟩
      · exact .inl ⟨step', r, by simpa using .inr (by simpa using hmem), hr, hfill⟩
      · refine .inr ⟨by simpa [hstep] using hnone, ?_⟩
        rw [hfill, List.map_cons, List.getLast?_cons, Option.getD_some]

/-! ## The effect of a replacement -/

/-- There is room for a temporary file with a number of so many digits beside the file of a path. -/
def HasRoomFor (digits : Nat) (path : String) : Prop :=
  byteLength (pathIn (Path.dir path) (tempName (Path.base path) "*")) + (digits - 1) ≤ pathLimit ∧
    byteLength (tempName (Path.base path) "*") + (digits - 1) ≤ nameLimit

/-- A path whose replacement does not fail for want of room. -/
def HasRoom (path : String) : Prop :=
  HasRoomFor tempDigits path

instance (path : String) : Decidable (HasRoom path) :=
  inferInstanceAs (Decidable (_ ∧ _))

/-- Nothing stands in the way of replacing the file of a path, which lies at a place or is to lie
there. -/
structure Replaceable (refused : ReplaceStep → Option Refusal) (digits : Nat) (d : Disk)
    (path : String) (l : Location) : Prop where
  granted : ∀ step, step ≠ .remove → refused step = none
  room : HasRoomFor digits path
  place : d.locate path = .ok l
  free : d.node? l ≠ some .directory

/-- A place for a temporary file beside the file of a path. -/
def IsBeside (d : Disk) (path : String) (temp : Location) : Prop :=
  ∃ dir n, d.find (Path.dir path) = .ok (dir, .directory) ∧ temp = tempPlace dir (Path.base path) n

/-- What a failed replacement leaves: the disk as it was, or with a temporary file that was not to
be removed. -/
def LeftBy (refused : ReplaceStep → Option Refusal) (d : Disk) (path : String) (left : Disk) :
    Prop :=
  left = d ∨ (refused .remove).isSome ∧ ∃ temp c m, d.IsBeside path temp ∧ d.node? temp = none ∧
    left = d.put temp (.file c m)

theorem leftBy_dropTemp (refused : ReplaceStep → Option Refusal) {temp : Location}
    (hbeside : d.IsBeside path temp) (hfree : d.node? temp = none) (content : Bytes) (mode : Nat) :
    LeftBy refused d path ((d.put temp (.file content mode)).dropTemp refused temp) := by
  unfold dropTemp
  split_ifs with hremove
  · exact .inr ⟨hremove, temp, content, mode, hbeside, hfree, rfl⟩
  · exact .inl (removeFile_put hfree content mode)

/-- Whatever is left of a failed replacement, no place changes that was not free. -/
theorem LeftBy.frame {refused : ReplaceStep → Option Refusal} {left : Disk}
    (h : LeftBy refused d path left) : Frame (d.node? · = none) d left := by
  rcases h with rfl | ⟨-, temp, c, m, -, hfree, rfl⟩
  · exact .refl _ _
  · refine (frame_put _ (by simp [hfree])).mono ?_
    rintro _ rfl
    exact hfree

/-- A new temporary file lies beside the file, where nothing was. Why there is none is no failure of
its own class. -/
theorem newTemp_cases (digits : Nat) (d : Disk) (path : String) :
    (∃ cause, d.newTemp digits path = .error cause ∧ cause.classes = []) ∨
      ∃ temp, d.newTemp digits path = .ok temp ∧ d.IsBeside path temp ∧ d.node? temp = none ∧
        HasRoomFor digits path := by
  unfold newTemp
  dsimp only
  split
  · exact .inl ⟨_, rfl, by simp [Fault.classes]⟩
  split
  · exact .inl ⟨_, rfl, by simp [Fault.classes]⟩
  split
  · exact .inl ⟨_, rfl, by simp [Fault.classes]⟩
  rename_i hlong
  split
  · exact .inl ⟨_, rfl, by simp [Fault.classes]⟩
  · exact .inl ⟨_, rfl, by simp [Fault.classes]⟩
  · rename_i dirAt hdir
    split
    · exact .inl ⟨_, rfl, by simp [Fault.classes]⟩
    · rename_i hname
      exact .inr ⟨_, rfl, ⟨dirAt, _, hdir, rfl⟩, freeNumber_free d dirAt (Path.base path),
        Nat.le_of_not_lt hlong, Nat.le_of_not_lt hname⟩

/-- The path of a temporary file is longer than that of its directory. -/
theorem byteLength_dir_le (dir name : String) : byteLength dir ≤ byteLength (pathIn dir name) := by
  unfold pathIn byteLength
  split_ifs
  · rw [String.utf8ByteSize_append]
    omega
  · rw [String.utf8ByteSize_append, String.utf8ByteSize_append]
    omega

/-- The last part of a path that leads to something else than a directory is a name. -/
theorem isName_base (hl : d.locate path = .ok l) (hn : d.node? l ≠ some .directory) :
    Path.base path ∈ segments '/' path ∧ Path.IsName (Path.base path) := by
  obtain ⟨hne, -, -, hf⟩ := locate_eq_ok.mp hl
  obtain ⟨above, last, hseg⟩ := (List.eq_nil_or_concat (segments '/' path)).resolve_left
    (segments_ne_nil '/' path)
  rw [List.concat_eq_append] at hseg
  rw [hseg] at hf
  obtain ⟨m, hm, hlast⟩ := follow_append_eq_ok.mp hf
  have hname : Path.IsName last :=
    isName_of_follow ((hasParents_startOf d path).follow hm)
      (not_mem_of_mem_segments (s := path) (by simp [hseg])) hlast hn
  have hbase : Path.base path = last := by
    simp [Path.base, hne, hseg, hname.nonempty]
  rw [hbase, hseg]
  exact ⟨by simp, hname⟩

/-- With room, there is a place for a temporary file beside a path that leads to no directory. -/
theorem exists_newTemp {digits : Nat} (room : HasRoomFor digits path) (hl : d.locate path = .ok l)
    (hn : d.node? l ≠ some .directory) : ∃ temp, d.newTemp digits path = .ok temp := by
  obtain ⟨-, hnul, -, -⟩ := locate_eq_ok.mp hl
  obtain ⟨hmem, hname⟩ := isName_base hl hn
  have hlong : byteLength (tempPath path) + (digits - 1) ≤ pathLimit := room.1
  have hlen : byteLength (Path.dir path) ≤ pathLimit := by
    have := byteLength_dir_le (Path.dir path) (tempName (Path.base path) "*")
    unfold tempPath at hlong
    omega
  have hdir := find_dir hl hn hlen
  obtain ⟨-, hdirNul, -, -⟩ := locate_eq_ok.mp (find_eq_ok.mp hdir).1
  have htemp : '\x00' ∉ (tempPath path).toList := by
    have hbaseNul : '\x00' ∉ (Path.base path).toList := fun h => hnul (mem_of_mem_segments hmem h)
    unfold tempPath pathIn tempName
    split <;> simp [hdirNul, hbaseNul]
  unfold newTemp
  dsimp only
  rw [if_neg (by simpa using hname.noSlash), if_neg (by simpa using htemp),
    if_neg (Nat.not_lt.mpr hlong), hdir]
  exact ⟨_, if_neg (Nat.not_lt.mpr room.2)⟩

/-- The temporary file is moved to the place of the path, or the path leads to no place where a file
may be. -/
theorem moveTemp_cases (refused : ReplaceStep → Option Refusal) (path : String) {temp : Location}
    {node : DiskNode} (hfree : d.node? temp = none) (hnode : node ≠ .directory) :
    (∃ e, (d.put temp node).moveTemp refused temp path = .error e ∧
        ∀ l, refused .move = none → d.locate path = .ok l → d.node? l = some .directory) ∨
      ∃ l, (d.put temp node).moveTemp refused temp path = .ok (d.put l node) ∧
        refused .move = none ∧ d.locate path = .ok l ∧ d.node? l ≠ some .directory := by
  have hframe := frame_put (d := d) (l := temp) node (by simp [hfree])
  have htemp : (d.put temp node).node? temp = some node := node?_put_same node (by simp [hfree])
  unfold moveTemp
  cases hmove : refused .move with
  | some r => exact .inl ⟨r.error, rfl, by simp⟩
  | none =>
    cases hl : (d.put temp node).locate path with
    | error e =>
      refine .inl ⟨e, rfl, fun l _ h => ?_⟩
      rw [hframe.locate h] at hl
      simp at hl
    | ok l =>
      have hl' : d.locate path = .ok l := (frame_unput hfree hnode).locate hl
      by_cases hdir : (d.put temp node).node? l = some .directory
      · refine .inl ⟨.alreadyExists, ?_, fun l' _ h => ?_⟩
        · show (d.put temp node).moveFile temp l = _
          simp [moveFile, hdir]
        · obtain rfl : l = l' := by simpa using hl'.symm.trans h
          exact (frame_unput hfree hnode).directory l hdir
      · refine .inr ⟨l, ?_, rfl, hl', fun h => hdir (hframe.directory l h)⟩
        show (d.put temp node).moveFile temp l = _
        unfold moveFile
        rw [htemp]
        split
        · rename_i h
          exact absurd h hdir
        · rename_i hs _
          obtain rfl := Option.some.inj hs
          rw [erase_put hfree]
        · rename_i hs _
          cases hs

/-- A replacement puts the new file in its place, or it fails and leaves a temporary file at most.
It fails only if something stands in its way. -/
theorem replaceFileUnder_cases (refused : ReplaceStep → Option Refusal) (digits : Nat) (d : Disk)
    (path : String) (content : Bytes) (mode : Nat) :
    (∃ l, d.replaceFileUnder refused digits path content mode =
        (none, d.put l (.file content (settable mode))) ∧ Replaceable refused digits d path l) ∨
      ∃ step cause left, d.replaceFileUnder refused digits path content mode =
          (some (.file (ReplaceStep.name step) path cause), left) ∧ cause.classes = [] ∧
        LeftBy refused d path left ∧ ∀ l, ¬ Replaceable refused digits d path l := by
  unfold replaceFileUnder
  rcases newTemp_cases digits d path with
    ⟨cause, htemp, hcause⟩ | ⟨temp, htemp, hbeside, hfree, room⟩
  · rw [htemp]
    refine .inr ⟨.create, cause, d, rfl, hcause, .inl rfl, fun l hl => ?_⟩
    obtain ⟨temp, hsome⟩ := exists_newTemp hl.room hl.place hl.free
    simp [hsome] at htemp
  rw [htemp]
  dsimp only
  cases hcreate : refused .create with
  | some r =>
    refine .inr ⟨.create, _, d, rfl, by simp [Fault.classes], .inl rfl, fun l hl => ?_⟩
    simp [hl.granted] at hcreate
  | none =>
    rcases fillTemp_put (d := d) refused temp (tempSteps content mode) (.file [] 0o600) with
      ⟨step, r, hstep, hr, hfill⟩ | ⟨hnone, hfill⟩
    · rw [hfill]
      refine .inr ⟨step, .system step.name (tempPath path) r.error, _, rfl, by simp [Fault.classes],
        leftBy_dropTemp refused hbeside hfree _ _, fun l hl => ?_⟩
      have hkind : step ≠ .remove := by
        rintro rfl
        simp [tempSteps] at hstep
      simp [hl.granted step hkind] at hr
    · have hlast : ((tempSteps content mode).map (·.2)).getLast?.getD (.file [] 0o600) =
          .file content (settable mode) := rfl
      have hfile : DiskNode.file content (settable mode) ≠ .directory := by simp
      rw [hfill, hlast]
      dsimp only
      rcases moveTemp_cases refused path hfree hfile with
        ⟨e, hmove, hdir⟩ | ⟨l, hmove, hgranted, hl, hn⟩
      · rw [hmove]
        exact .inr ⟨.move, .move (tempPath path) path e, _, rfl, by simp [Fault.classes],
          leftBy_dropTemp refused hbeside hfree _ _,
          fun l hl => hl.free (hdir l (hl.granted .move (by simp)) hl.place)⟩
      · rw [hmove]
        refine .inl ⟨l, rfl, ?_, room, hl, hn⟩
        have hsteps : ∀ step ∈ [ReplaceStep.write, .sync, .close, .setMode], refused step = none :=
          hnone
        intro step hkind
        cases step with
        | create => exact hcreate
        | move => exact hgranted
        | write | sync | close | setMode => exact hsteps _ (by simp)
        | remove => exact absurd rfl hkind

/-- A replacement fails and changes nothing, or it succeeds and changes one place. -/
theorem replaceFile_cases (d : Disk) (path : String) (content : Bytes) (mode : Nat) :
    (∃ f d', d.replaceFile path content mode = (some f, d') ∧ Frame (fun _ => False) d d') ∨
      ∃ l d', d.replaceFile path content mode = (none, d') ∧ HasRoom path ∧
        d.locate path = .ok l ∧ d.node? l ≠ some .directory ∧ Frame (· = l) d d' ∧
        d'.node? l = some (.file content (settable mode)) := by
  rcases replaceFileUnder_cases (fun _ => none) tempDigits d path content mode with
    ⟨l, hdone, hl⟩ | ⟨step, cause, left, hdone, -, rfl | ⟨hrefused, -⟩, -⟩
  · exact .inr ⟨l, _, hdone, hl.room, hl.place, hl.free, frame_put _ hl.free,
      node?_put_same _ hl.free⟩
  · exact .inl ⟨_, left, hdone, .refl _ left⟩
  · simp at hrefused

theorem replaceFile_succeeds (content : Bytes) (mode : Nat) (room : HasRoom path)
    (hl : d.locate path = .ok l) (hn : d.node? l ≠ some .directory) :
    ∃ d', d.replaceFile path content mode = (none, d') ∧ Frame (· = l) d d' ∧
      d'.node? l = some (.file content (settable mode)) := by
  rcases replaceFileUnder_cases (fun _ => none) tempDigits d path content mode with
    ⟨l', hdone, hl'⟩ | ⟨-, -, -, -, -, -, hnot⟩
  · obtain rfl : l' = l := by simpa using hl'.place.symm.trans hl
    exact ⟨_, hdone, frame_put _ hn, node?_put_same _ hn⟩
  · exact absurd ⟨fun _ _ => rfl, room, hl, hn⟩ (hnot l)

/-- Writing a file in place changes nothing, or what is there. If it does not fail, the content is
there, and no step was refused. -/
theorem writeSynced_cases (refused : ReplaceStep → Option Refusal) (d : Disk) (path : String)
    (content : Bytes) :
    (∃ f, d.writeSynced refused path content = (some f, d)) ∨
      ∃ failure l m z, d.writeSynced refused path content = (failure, d.put l (.file z m)) ∧
        d.locate path = .ok l ∧ d.node? l ≠ some .directory ∧
        (failure = none → z = content ∧
          ∀ step ∈ [ReplaceStep.create, .write, .sync, .close], refused step = none) := by
  unfold writeSynced
  extract_lets stopped written
  cases hwrite : Refusal.orElse (refused .create) "open" path (d.writeFile path written 0o644) with
  | error f => exact .inl ⟨_, rfl⟩
  | ok d' =>
    obtain ⟨hcreate, hwrite⟩ := Refusal.orElse_eq_ok.mp hwrite
    obtain ⟨l, m, hl, hn, rfl⟩ := writeFile_eq_ok hwrite
    refine .inr ⟨_, l, m, written, rfl, hl, hn, fun hnone => ?_⟩
    have hstopped : stopped = none := Option.map_eq_none_iff.mp hnone
    refine ⟨by simp [written, hstopped], ?_⟩
    simpa [stopped, hcreate] using hstopped

/-- Permission bits can all be set. -/
@[simp] theorem settable_mod (mode : Nat) : settable (mode % 512) = mode % 512 := by
  have hall : ∀ m : Fin 512, settable m = m := by decide +kernel
  exact hall ⟨mode % 512, Nat.mod_lt _ (by decide)⟩

end Disk

end Deadwood
