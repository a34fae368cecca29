import Deadwood.Proofs.Disk.Replace

/-!
# Replacing a file is all or nothing

Whatever step of a replacement fails, and whether the disk or the system is the reason, the disk is
afterwards the same value as before, unless the system does not even let the temporary file go. If
no step fails, the disk is the one on which the new file was put in its place at once. The file then
has the bits of the mode that can be set at all.

## Main results

* `Disk.mem_names_put`: the names that directories list once a file was put somewhere.
* `Disk.replaceFile_atomic`: a replacement does all or nothing.
* `Disk.replaceFile_leaves_traces`: what it does with other bits, and with a file that stays.
-/

namespace Deadwood.Disk

variable {d : Disk} {path : String} {l : Location}

/-- A directory lists a name if an entry of the disk lies there. -/
theorem mem_names_children {dir : Location} {name : String} :
    name ∈ (d.children dir).map (·.1) ↔ dir ++ [name] ∈ d.nodes.map (·.1) := by
  simp only [List.mem_map, Prod.exists, exists_and_right, exists_eq_right, mem_children]

/-- A file that is put somewhere is listed in its directory, and no other name is new. -/
theorem mem_names_put {dir : Location} {name : String} (n : DiskNode) :
    name ∈ ((d.put l n).children dir).map (·.1) ↔
      name ∈ (d.children dir).map (·.1) ∨ dir ++ [name] = l := by
  simp only [mem_names_children, put, mem_keys_assign]

/-- A failure of an operation on a file is one of the file system, unless its cause is of an earlier
class. -/
theorem rank_file {op : String} {cause : Fault} (h : cause.classes = []) :
    (Fault.file op path cause).rank = .file := by
  simp [Fault.rank, Fault.isA, Fault.classes, h]

/-- Whatever the system refuses, a replacement does all or nothing, but for a temporary file that
was not to be removed. It succeeds exactly if nothing stands in its way. Then the path leads to a
file with the content and the bits of the mode that can be set, every other place is as it was, and
no directory lists a name that it did not list before, but for that of the file. Otherwise the
failure is one of the file system and names the step and the path. The disk is then the one before,
with all that it lists; only if the removal was refused may it have a temporary file beside the file
as well. -/
theorem replaceFile_atomic (refused : ReplaceStep → Option Refusal) (digits : Nat) (d : Disk)
    (path : String) (content : Bytes) (mode : Nat) :
    let done := d.replaceFileUnder refused digits path content mode
    (done.1 = none ↔ ∃ l, Replaceable refused digits d path l) ∧
      (done.1 = none → ∃ l, d.locate path = .ok l ∧
        done.2.find path = .ok (l, .file content (settable mode)) ∧
        (∀ l', l' ≠ l → done.2.node? l' = d.node? l') ∧
        ∀ dir name, name ∈ (done.2.children dir).map (·.1) ↔
          name ∈ (d.children dir).map (·.1) ∨ dir ++ [name] = l) ∧
      ∀ f, done.1 = some f →
        f.rank = .file ∧ (∃ step cause, f = .file (ReplaceStep.name step) path cause) ∧
          LeftBy refused d path done.2 := by
  intro done
  rcases replaceFileUnder_cases refused digits d path content mode with
    ⟨l, hdone, hl⟩ | ⟨step, cause, left, hdone, hcause, hleft, hnot⟩
  · have hsucceeds : done.1 = none := congrArg Prod.fst hdone
    have hdisk : done.2 = d.put l (.file content (settable mode)) := congrArg Prod.snd hdone
    have hframe := frame_put (.file content (settable mode)) hl.free
    refine ⟨iff_of_true hsucceeds ⟨l, hl⟩, fun _ => ⟨l, hl.place, ?_, ?_, ?_⟩, by simp [hsucceeds]⟩
    · rw [hdisk]
      exact find_eq_ok.mpr ⟨hframe.locate hl.place, node?_put_same _ hl.free⟩
    · rw [hdisk]
      exact hframe.same
    · rw [hdisk]
      exact fun dir name => mem_names_put _
  · have hfails : done.1 = some (.file step.name path cause) := congrArg Prod.fst hdone
    have hdisk : done.2 = left := congrArg Prod.snd hdone
    refine ⟨iff_of_false (by simp [hfails]) fun ⟨l, hl⟩ => hnot l hl, by simp [hfails], ?_⟩
    intro f hf
    obtain rfl : _ = f := Option.some.inj (hfails.symm.trans hf)
    exact ⟨rank_file hcause, ⟨step, cause, rfl⟩, hdisk ▸ hleft⟩

/-- A mode with the bit of a regular file is set without it. If the device is full and the temporary
file cannot be removed, it stays beside the file. -/
theorem replaceFile_leaves_traces :
    let d : Disk := { nodes := [(["work", "a"], .file [104, 105] 0o644)] }
    let refused : ReplaceStep → Option Refusal := fun step =>
      if step = .write then some { error := .noSpace, left := [98] }
      else if step = .remove then some { error := .inputOutput } else none
    (d.replaceFile "a" [98, 121] 0o100644).1 = none ∧
      (d.replaceFile "a" [98, 121] 0o100644).2.node? ["work", "a"] =
        some (.file [98, 121] 0o644) ∧
      (d.replaceFileUnder refused tempDigits "a" [98, 121] 0o644).1 ≠ none ∧
      (d.replaceFileUnder refused tempDigits "a" [98, 121] 0o644).2.nodes.length = 2 := by
  refine ⟨?_, ?_, ?_, ?_⟩
  · exact Option.isNone_iff_eq_none.mp (by decide +kernel)
  · decide +kernel
  · exact Option.isSome_iff_ne_none.mp (by decide +kernel)
  · decide +kernel

end Deadwood.Disk
