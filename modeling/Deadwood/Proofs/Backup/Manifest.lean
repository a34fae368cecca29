import Deadwood.Backup
import Deadwood.Proofs.Json.Parse
import Deadwood.Proofs.Text.Utf8
import Deadwood.Proofs.Time

/-!
# Written manifests can be read again

## Main results

* `Json.Reader.list_map`: a list is read back if its items are.
* `Manifest.parse?_pretty`: a manifest is read back from its file.
* `Backup.open_eq_ok_iff`: the backup in a directory.
-/

namespace Deadwood

/-! ## Records and lists -/

namespace Json.Reader

variable {α : Type}

@[simp] theorem columns_singleton (vs : List Json) : columns vs.length [vs] = vs.map ([·]) := by
  induction vs with
  | nil => rfl
  | cons v vs ih => simp [columns, ih]

theorem readOver_map {zero : α} {read : Reader α} {f : α → Json} {xs : List α}
    (h : ∀ x ∈ xs, read [f x] zero = some x) :
    readOver zero read ((xs.map f).map ([·])) [] = some xs := by
  induction xs with
  | nil => rfl
  | cons x xs ih =>
    have hx := h x (by simp)
    have hxs := ih fun y hy => h y (by simp [hy])
    simp only [List.map_cons, readOver, List.head?_nil, Option.getD_none, hx, List.tail_nil, hxs,
      Option.bind_eq_bind, Option.bind_some]
    rfl

/-- A list is read back if its items are. -/
theorem list_map {zero : α} {read : Reader α} {f : α → Json} {xs : List α}
    (h : ∀ x ∈ xs, read [f x] zero = some x) :
    list zero read [.list (xs.map f)] none = some (some xs) := by
  cases xs with
  | nil => rfl
  | cons x xs =>
    have hread := readOver_map h
    rw [← columns_singleton] at hread
    have hadd : Pending.add zero read ⟨[], [], none⟩ (.list ((x :: xs).map f)) =
        some ⟨[(x :: xs).map f], [], some ((x :: xs).map f).length⟩ := rfl
    have hitems : Pending.items zero read
        ⟨[(x :: xs).map f], [], some ((x :: xs).map f).length⟩ = some (x :: xs) := by
      simpa [Pending.items] using hread
    simp only [list, List.foldlM_cons, List.foldlM_nil, Option.getD_none, Option.map_none, hadd,
      hitems, Option.bind_eq_bind, Option.bind_some, Option.pure_def]
    simp

@[simp] theorem text_text (s old : String) : text [.text s] old = some s :=
  rfl

theorem int_nat {n : Nat} (h : n < Word.bound) (old : Int) : int [.nat n] old = some (n : Int) := by
  simp [int, each, Json.nat, Numeral.decimalInt_digitText h, Except.toOption]

theorem natBelow_nat {n bound : Nat} (h : n < bound) (old : Nat) :
    natBelow bound [.nat n] old = some n := by
  simp [natBelow, each, Json.nat, Decimal.digitText, Numeral.natOfDigits?_toDigits, h]

/-- A name that is spelt exactly means the field that has it. -/
theorem name_fieldFor? {fields : List (Field α)} {name : String}
    (h : name ∈ fields.map Field.name) : (fieldFor? fields name).map Field.name = some name := by
  obtain ⟨f, hf, hname⟩ := List.mem_map.mp h
  obtain ⟨g, hg⟩ : ∃ g, fields.find? (·.name = name) = some g :=
    Option.isSome_iff_exists.mp (List.find?_isSome.mpr ⟨f, hf, by simpa using hname⟩)
  have := List.find?_some hg
  simp_all [fieldFor?]

/-- Among different names, the values of a name are the one that is looked up. -/
theorem filterMap_eq_lookup {given : List (String × Json)} (h : (given.map Prod.fst).Nodup)
    (name : String) : (given.filterMap fun (k, v) => if k = name then some v else none) =
      (given.lookup name).toList := by
  induction given with
  | nil => rfl
  | cons f given ih =>
    obtain ⟨k, v⟩ := f
    obtain ⟨hk, hnodup⟩ := List.nodup_cons.mp h
    have hrest := ih hnodup
    by_cases hname : k = name
    · subst hname
      have hnone : given.lookup k = none := by
        rw [List.lookup_eq_none_iff]
        intro f hf
        have : f.1 ∈ given.map Prod.fst := List.mem_map_of_mem hf
        simp
        rintro rfl
        exact hk this
      simp [hrest, hnone]
    · have hne : (name == k) = false := by simpa using Ne.symm hname
      simp [List.lookup_cons, hname, hne, hrest]

/-- An object that has every field at most once and no others. -/
theorem record_object {fields : List (Field α)} {given : List (String × Json)}
    (hknown : ∀ name ∈ given.map Prod.fst, name ∈ fields.map Field.name)
    (hnodup : (given.map Prod.fst).Nodup) (old : α) :
    record fields [.object given] old = fields.foldlM (fun acc f =>
      match given.lookup f.name with
      | none => some acc
      | some v => f.read [v] acc) old := by
  have hfield : given.filterMap (fun (name, v) =>
      (fieldFor? fields name).map fun f => (f.name, v)) = given := by
    clear hnodup
    induction given with
    | nil => rfl
    | cons f given ih =>
      obtain ⟨name, v⟩ := f
      have hname := name_fieldFor? (hknown name (by simp))
      obtain ⟨g, hg, rfl⟩ := Option.map_eq_some_iff.mp hname
      have hrest := ih fun k hk => hknown k (by simp [hk])
      simp only [List.filterMap_cons, hg, Option.map_some, hrest]
  have hvalues := filterMap_eq_lookup hnodup
  have hgiven : allFields [.object given] = some given := by simp [allFields]
  simp only [record, hgiven, Option.bind_eq_bind, Option.bind_some, hfield, hvalues]
  congr 1
  funext acc f
  cases given.lookup f.name <;> rfl

end Json.Reader

/-! ## Manifests -/

open Json Json.Reader

@[simp] theorem Json.int_natCast (n : Nat) : Json.int n = Json.nat n := by
  simp [Json.int, Json.nat, Decimal.intText]

namespace BackupFile

/-- An entry whose numbers are in the ranges that are read. -/
def IsReadable (f : BackupFile) : Prop :=
  (∃ n : Nat, f.size = n ∧ n < Word.bound) ∧ f.mode < 0x100000000

theorem reader_toJson {f : BackupFile} (h : f.IsReadable) : reader [f.toJson] {} = some f := by
  obtain ⟨⟨n, hsize, hn⟩, hmode⟩ := h
  rw [reader, toJson, hsize, int_natCast, record_object (by simp [at_]) (by simp)]
  obtain ⟨path, digest, size, mode, blob⟩ := f
  subst hsize
  simp [at_, int_nat hn, natBelow_nat hmode, List.lookup_cons]

theorem plain_toJson {f : BackupFile} (h : f.IsReadable) : Plain f.toJson := by
  obtain ⟨⟨n, hsize, -⟩, -⟩ := h
  rw [toJson, hsize, int_natCast]
  apply Plain.object
  simp only [List.mem_cons, List.not_mem_nil, or_false, forall_eq_or_imp, forall_eq]
  exact ⟨.text _, .text _, .nat _, .nat _, .text _⟩

end BackupFile

namespace Manifest

/-- A manifest that is read back from what is written for it. -/
structure IsReadable (m : Manifest) : Prop where
  offset : m.createdAt.offset = 0
  writable : m.createdAt.isWritable
  files : ∀ f ∈ m.files, f.IsReadable

theorem plain_toJson {m : Manifest} (h : m.IsReadable) : Plain m.toJson := by
  have hfunctions : Plain ((m.functions.map Json.texts).getD .null) := by
    cases m.functions with
    | none => exact .null
    | some fs =>
      refine .list fun v hv => ?_
      obtain ⟨s, -, rfl⟩ := List.mem_map.mp hv
      exact .text s
  have hfiles : Plain ((m.fileList.map fun fs => Json.list (fs.map (·.toJson))).getD .null) := by
    have hread := h.files
    unfold files at hread
    cases hlist : m.fileList with
    | none => exact .null
    | some fs =>
      refine .list fun v hv => ?_
      obtain ⟨f, hf, rfl⟩ := List.mem_map.mp hv
      exact BackupFile.plain_toJson (hread f (by simpa [hlist] using hf))
  apply Plain.object
  intro f hf
  simp only [textUnlessEmpty, List.mem_append, List.mem_cons, List.not_mem_nil, or_false] at hf
  rcases hf with (rfl | hf) | rfl | rfl | rfl
  · exact .text _
  · split at hf
    · simp at hf
    · obtain rfl := List.mem_singleton.mp hf
      exact .text _
  · exact .text _
  · exact hfunctions
  · exact hfiles

theorem reader_toJson {m : Manifest} (h : m.IsReadable) : reader [m.toJson] {} = some m := by
  obtain ⟨id, snapshotId, createdAt, functions, fileList⟩ := m
  have htime : Timestamp.parse? createdAt.text = some createdAt :=
    Timestamp.parse?_text h.offset h.writable
  have hfunctions : Reader.list "" Reader.text [(functions.map Json.texts).getD .null] none =
      some functions := by
    cases functions with
    | none => rfl
    | some fs => exact list_map fun s _ => rfl
  have hfiles : Reader.list {} BackupFile.reader
      [(fileList.map fun fs => Json.list (fs.map (·.toJson))).getD .null] none =
        some fileList := by
    cases fileList with
    | none => rfl
    | some fs => exact list_map fun f hf => BackupFile.reader_toJson (h.files f hf)
  have hread : Timestamp.reader [.text createdAt.text] .zero = some createdAt := by
    simpa [Timestamp.reader, each] using htime
  by_cases hempty : snapshotId = ""
  · rw [reader, toJson, textUnlessEmpty, if_pos hempty, record_object (by simp [at_]) (by simp)]
    simp [at_, List.lookup_cons, hread, hfunctions, hfiles, hempty]
  · rw [reader, toJson, textUnlessEmpty, if_neg hempty, record_object (by simp [at_]) (by simp)]
    simp [at_, List.lookup_cons, hread, hfunctions, hfiles]

/-- A manifest is read back from its file. -/
theorem parse?_pretty {m : Manifest} (h : m.IsReadable) :
    parse? (Text.utf8 m.toJson.pretty) = some m := by
  simp [parse?, Json.parse?_pretty (plain_toJson h), reader_toJson h]

end Manifest

/-- A directory holds the backup that its manifest describes. -/
theorem Backup.open_eq_ok_iff {dir : String} {d : Disk} {b : Backup} :
    open_ dir d = .ok b ↔
      b.dir = dir ∧ ∃ bs, d.readFile (manifestPath dir) = .ok bs ∧
        Manifest.parse? bs = some b.manifest := by
  unfold open_
  cases d.readFile (manifestPath dir) with
  | error f => simp
  | ok bs =>
    obtain ⟨bdir, m⟩ := b
    cases hparse : Manifest.parse? bs with
    | none => simp [hparse]
    | some m' => simp [hparse, eq_comm]

end Deadwood
