import Deadwood.Proofs.Glob
import Deadwood.Pruning.Candidate
import Mathlib.Tactic.Common

/-!
# Accepted patterns are never passed over

Options are checked by comparing each of their patterns with the empty name. Files and functions are
later compared with other names, and a comparison without an answer counts there as one that fails.
Since a pattern is malformed for every name or for none, this never happens once the options are
accepted.

## Main definitions

* `PathPattern.names`: the names with which a pattern for files is compared.

## Main results

* `PathPattern.covers_iff`: a pattern fits a path if it fits one of these names.
* `PruneOptions.accepted_patterns_answer`: every comparison under accepted options has an answer.
-/

namespace Deadwood

open Text

@[simp] theorem Glob.fits_iff {pattern name : String} :
    fits pattern name ↔ match? pattern name = some true := by
  simp [fits]

namespace PathPattern

/-- The names with which a pattern for files is compared, in order. With `/**` at its end it is
compared with runs of parts of the path, and otherwise with the path and its tails. -/
def names (pattern path : String) : List String :=
  match directory? pattern with
  | some dir => (runsBefore (segments '/' dir).length (segments '/' path)).map (join "/")
  | none => path :: (tails (segments '/' path)).map (join "/")

theorem covers_iff {pattern path : String} :
    covers pattern path ↔
      ∃ name ∈ names pattern path, Glob.match? (stripEnd "/**" pattern) name = some true := by
  unfold covers names stripEnd directory?
  cases stripEnd? "/**" pattern with
  | none => simp
  | some dir => simp

end PathPattern

namespace PruneOptions

variable {R : Type} [Scale R] {o : PruneOptions R}

theorem mem_reasons_pattern {f : FunctionRecord} :
    .pattern ∈ o.entryRules.reasons f ↔
      ∃ p ∈ o.entryPatterns, Glob.match? p f.name = some true := by
  simp [EntryRules.reasons, entryRules]

/-- The patterns of accepted options follow the grammar of patterns. -/
theorem isPattern_of_problem?_eq_none (h : o.problem? = none) :
    (∀ p ∈ o.excludePatterns, Glob.IsPattern (stripEnd "/**" p).toList) ∧
      ∀ p ∈ o.entryPatterns, Glob.IsPattern p.toList := by
  unfold problem? at h
  split_ifs at h
  split at h
  · cases h
  · rename_i hexclude
    rw [Option.map_eq_none_iff] at h
    refine ⟨fun p hp => ?_, fun p hp => ?_⟩
    · rw [← Glob.isSome_match?_iff _ "", Option.isSome_iff_ne_none]
      simpa [PathPattern.isWellFormed] using List.find?_eq_none.mp hexclude p hp
    · rw [← Glob.isSome_match?_iff _ "", Option.isSome_iff_ne_none]
      simpa using List.find?_eq_none.mp h p hp

/-- Under accepted options, each comparison of an exclude pattern with a part of a path and of an
entry pattern with the name of a function has an answer, and these answers decide. A text is
refused, whatever it is compared with, exactly if it does not follow the grammar of patterns. -/
theorem accepted_patterns_answer (h : o.problem? = none) :
    (∀ p ∈ o.excludePatterns, ∀ path,
      (∀ name ∈ PathPattern.names p path, (Glob.match? (stripEnd "/**" p) name).isSome) ∧
      (PathPattern.covers p path ↔ ∃ name ∈ PathPattern.names p path,
        Glob.match? (stripEnd "/**" p) name = some true)) ∧
    (∀ f : FunctionRecord,
      (∀ p ∈ o.entryPatterns, (Glob.match? p f.name).isSome) ∧
      (.pattern ∈ o.entryRules.reasons f ↔
        ∃ p ∈ o.entryPatterns, Glob.match? p f.name = some true)) ∧
    ∀ pattern name, (Glob.match? pattern name).isSome ↔ Glob.IsPattern pattern.toList := by
  obtain ⟨hexclude, hentry⟩ := isPattern_of_problem?_eq_none h
  refine ⟨fun p hp path => ⟨fun name _ => ?_, PathPattern.covers_iff⟩,
    fun f => ⟨fun p hp => ?_, mem_reasons_pattern⟩, Glob.isSome_match?_iff⟩
  · exact (Glob.isSome_match?_iff _ name).mpr (hexclude p hp)
  · exact (Glob.isSome_match?_iff p f.name).mpr (hentry p hp)

/-- Patterns with stars, classes, ranges and escapes. -/
theorem accepted_patterns_answer_classes :
    let o : PruneOptions Rat :=
      { excludePatterns := ["gen[^a-c]*\\*/**", "*_[x-z\\]]?.go"], entryPatterns := ["on[A-Z]*"] }
    o.problem?.isNone ∧
      (∀ path, ∀ name ∈ PathPattern.names "gen[^a-c]*\\*/**" path,
        (Glob.match? "gen[^a-c]*\\*" name).isSome) ∧
      PathPattern.covers "gen[^a-c]*\\*/**" "src/gen-1*/a/b.go" ∧
      ∀ f : FunctionRecord, (Glob.match? "on[A-Z]*" f.name).isSome := by
  intro o
  have haccepted : o.problem?.isNone := by decide +kernel
  obtain ⟨hexclude, hentry, -⟩ := accepted_patterns_answer (Option.isNone_iff_eq_none.mp haccepted)
  refine ⟨haccepted, fun path name hname => ?_, by decide +kernel, fun f => ?_⟩
  · exact (hexclude _ (.head _) path).1 name hname
  · exact (hentry f).1 _ (.head _)

end PruneOptions

end Deadwood
