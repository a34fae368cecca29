import Deadwood.Proofs.Evidence.Score
import Deadwood.Proofs.Evidence.Session
import Mathlib.Tactic.Common

/-!
# The order of overrides

The targets of the overrides of a function are collected by their keys, and of several overrides
with one key the last one says what the target is called. So the order of the overrides does not
change the evidence if all overrides with one key call their target by the same name. The name is
that of the target type or, if it has none, its id. Overrides with one key whose target types are
named alike may still have different ids: one without id and name has the key of a type whose id is
`name:`.

## Main definitions

* `NamesAgree`: overrides with one key call their target by the same name.
* `NamelessClash`: two overrides without type names whose keys agree and whose ids do not.
* `EvidenceGroup.entries`: the compatible or the incompatible targets of a group.
* `TypeFacts.withOverrides`: the type relations with other overrides of a function.

## Main results

* `namesAgree_iff`: when overrides whose target types are named alike agree on the names.
* `EvidenceGroup.entries_ofClass_perm`: the targets of a class.
* `Evidence.weigh_perm`: the evidence by overrides in another order.
* `evidence_ignores_order`: the evidence that a session gives.
-/

namespace Deadwood

variable {R : Type}

/-! ## Names -/

/-- Overrides with one key call their target by the same name. -/
def NamesAgree (os : List (MethodOverride R)) : Prop :=
  ∀ o ∈ os, ∀ o' ∈ os, o.targetKey = o'.targetKey → o.targetName = o'.targetName

theorem NamesAgree.mono {os os' : List (MethodOverride R)} (h : NamesAgree os) (hsub : os' ⊆ os) :
    NamesAgree os' :=
  fun o ho o' ho' => h o (hsub ho) o' (hsub ho')

/-- Overrides with one key have target types of the same name, or without one. -/
def TypeNamesAgree (os : List (MethodOverride R)) : Prop :=
  ∀ o ∈ os, ∀ o' ∈ os, o.targetKey = o'.targetKey → o.targetTypeName = o'.targetTypeName

/-- One override says nothing of its target type, and another one only that its id is `name:`. -/
def NamelessClash (os : List (MethodOverride R)) : Prop :=
  ∃ o ∈ os, ∃ o' ∈ os, o.targetTypeName = "" ∧ o'.targetTypeName = "" ∧
    o.targetTypeId = "" ∧ o'.targetTypeId = "name:"

/-- Two overrides with one key and target types named alike call their target by the same name,
unless one of them has neither id nor name. -/
theorem targetName_eq_or {o o' : MethodOverride R} (hkey : o.targetKey = o'.targetKey)
    (hname : o.targetTypeName = o'.targetTypeName) :
    o.targetName = o'.targetName ∨ o.targetTypeName = "" ∧
      (o.targetTypeId = "" ∧ o'.targetTypeId = "name:" ∨
        o'.targetTypeId = "" ∧ o.targetTypeId = "name:") := by
  unfold MethodOverride.targetName MethodOverride.targetKey at *
  by_cases hempty : o.targetTypeName = ""
  · have hempty' : o'.targetTypeName = "" := hname ▸ hempty
    by_cases hid : o.targetTypeId = "" <;> by_cases hid' : o'.targetTypeId = "" <;>
      simp_all
  · have hempty' : o'.targetTypeName ≠ "" := hname ▸ hempty
    simp_all

theorem namesAgree_iff {os : List (MethodOverride R)} (h : TypeNamesAgree os) :
    NamesAgree os ↔ ¬ NamelessClash os := by
  constructor
  · rintro hagree ⟨o, ho, o', ho', hname, hname', hid, hid'⟩
    have hkey : o.targetKey = o'.targetKey := by
      simp [MethodOverride.targetKey, hname, hid, hid']
    have heq := hagree o ho o' ho' hkey
    simp [MethodOverride.targetName, hname, hname', hid, hid'] at heq
  · intro hclash o ho o' ho' hkey
    have hname := h o ho o' ho' hkey
    rcases targetName_eq_or hkey hname with heq | ⟨hempty, ⟨hid, hid'⟩ | ⟨hid, hid'⟩⟩
    · exact heq
    · exact absurd ⟨o, ho, o', ho', hempty, hname ▸ hempty, hid, hid'⟩ hclash
    · exact absurd ⟨o', ho', o, ho, hname ▸ hempty, hempty, hid, hid'⟩ hclash

/-! ## Targets -/

/-- A value that a key has already is assigned without effect on the entries. -/
theorem mem_assign_of_agree {κ α : Type} [DecidableEq κ] {key : κ} {value : α}
    {entries : List (κ × α)} (h : ∀ e ∈ entries, e.1 = key → e.2 = value) {e : κ × α} :
    e ∈ assign key value entries ↔ e = (key, value) ∨ e ∈ entries := by
  induction entries with
  | nil => simp [assign]
  | cons first rest ih =>
    obtain ⟨k, v⟩ := first
    by_cases hk : k = key
    · obtain rfl : v = value := h (k, v) List.mem_cons_self hk
      subst hk
      simp [assign]
    · rw [assign, if_neg hk, List.mem_cons, ih fun e he => h e (List.mem_cons_of_mem _ he),
        List.mem_cons]
      tauto

namespace EvidenceGroup

/-- The compatible or the incompatible targets of a group. -/
def entries (g : EvidenceGroup) (isCompatible : Bool) : List (String × String) :=
  if isCompatible then g.compatible else g.incompatible

variable {g g' : EvidenceGroup} {b : Bool}

theorem entries_add (o : MethodOverride R) :
    (g.add o).entries b =
      if o.isCompatible = b then assign o.targetKey o.targetName (g.entries b)
      else g.entries b := by
  unfold add entries
  cases o.isCompatible <;> cases b <;> rfl

/-- The targets after some overrides were added that agree on the names, also with those that were
there before. -/
theorem entries_foldl_add {os : List (MethodOverride R)} (hagree : NamesAgree os)
    (hbefore : ∀ e ∈ g.entries b, ∀ o ∈ os, e.1 = o.targetKey → e.2 = o.targetName)
    (hnodup : ((g.entries b).map (·.1)).Nodup) :
    (((os.foldl add g).entries b).map (·.1)).Nodup ∧
      ∀ e, e ∈ (os.foldl add g).entries b ↔
        e ∈ g.entries b ∨
          ∃ o ∈ os, o.isCompatible = b ∧ e = (o.targetKey, o.targetName) := by
  induction os generalizing g with
  | nil => simp [hnodup]
  | cons o os ih =>
    have hmem : ∀ e, e ∈ (g.add o).entries b ↔
        e ∈ g.entries b ∨ o.isCompatible = b ∧ e = (o.targetKey, o.targetName) := by
      intro e
      rw [entries_add]
      split_ifs with hb
      · rw [mem_assign_of_agree fun e he hkey => hbefore e he o List.mem_cons_self hkey]
        tauto
      · tauto
    have hnodup' : (((g.add o).entries b).map (·.1)).Nodup := by
      rw [entries_add]
      split_ifs
      · exact nodup_keys_assign hnodup
      · exact hnodup
    have hbefore' : ∀ e ∈ (g.add o).entries b, ∀ p ∈ os,
        e.1 = p.targetKey → e.2 = p.targetName := by
      intro e he p hp hkey
      rcases (hmem e).mp he with he | ⟨-, rfl⟩
      · exact hbefore e he p (List.mem_cons_of_mem _ hp) hkey
      · exact hagree o List.mem_cons_self p (List.mem_cons_of_mem _ hp) hkey
    obtain ⟨hrest, hall⟩ := ih (hagree.mono (List.subset_cons_self o os)) hbefore' hnodup'
    refine ⟨hrest, fun e => ?_⟩
    rw [List.foldl_cons, hall, hmem, List.exists_mem_cons_iff, or_assoc]

variable {c : EvidenceClass} {all all' : List (Classed R)}

theorem entries_ofClass (hagree : NamesAgree (all.map (·.2))) :
    (((ofClass c all).entries b).map (·.1)).Nodup ∧
      ∀ e, e ∈ (ofClass c all).entries b ↔
        ∃ o, (c, o) ∈ all ∧ o.isCompatible = b ∧ e = (o.targetKey, o.targetName) := by
  have hempty : ({} : EvidenceGroup).entries b = [] := by cases b <;> rfl
  have hfold : ofClass c all = ((all.filter (·.1 = c)).map (·.2)).foldl add {} :=
    List.foldl_map.symm
  have hsub : (all.filter (·.1 = c)).map (·.2) ⊆ all.map (·.2) :=
    List.map_subset _ (List.filter_subset_self all)
  obtain ⟨hnodup, hmem⟩ := entries_foldl_add (g := {}) (b := b) (hagree.mono hsub)
    (by simp [hempty]) (by simp [hempty])
  rw [hfold]
  refine ⟨hnodup, fun e => ?_⟩
  rw [hmem]
  simp [hempty]

/-- The targets of a class do not depend on the order of the overrides. -/
theorem entries_ofClass_perm (hagree : NamesAgree (all.map (·.2))) (h : all.Perm all') :
    ((ofClass c all).entries b).Perm ((ofClass c all').entries b) := by
  have hagree' : NamesAgree (all'.map (·.2)) := hagree.mono (h.map _).symm.subset
  obtain ⟨hnodup, hmem⟩ := entries_ofClass (c := c) (b := b) hagree
  obtain ⟨hnodup', hmem'⟩ := entries_ofClass (c := c) (b := b) hagree'
  refine (List.perm_ext_iff_of_nodup (.of_map _ hnodup) (.of_map _ hnodup')).mpr fun e => ?_
  simp only [hmem, hmem', h.mem_iff]

/-! ## Groups with the same targets -/

/-- Two groups have the same targets. -/
def Same (g g' : EvidenceGroup) : Prop :=
  ∀ b, (g.entries b).Perm (g'.entries b)

theorem Same.compatible (h : Same g g') : g.compatible.Perm g'.compatible :=
  h true

theorem Same.incompatible (h : Same g g') : g.incompatible.Perm g'.incompatible :=
  h false

theorem Same.targets_eq (h : Same g g') : g.targets = g'.targets := by
  have hkeys : ∀ k, (g.compatible.map (·.1)).contains k = (g'.compatible.map (·.1)).contains k :=
    fun k => (h.compatible.map _).contains_eq
  simp only [targets, hkeys]
  exact sortedTexts_perm ((h.compatible.append (h.incompatible.filter _)).map _)

theorem Same.isPresent_eq (h : Same g g') : g.isPresent = g'.isPresent := by
  rw [isPresent, isPresent, h.compatible.isEmpty_eq, h.incompatible.isEmpty_eq]

theorem Same.describe_eq (h : Same g g') (c : EvidenceClass) (classCount : Nat) :
    Evidence.describe c g classCount = Evidence.describe c g' classCount := by
  unfold Evidence.describe
  rw [h.targets_eq, h.incompatible.length_eq]

theorem Same.score_eq [Scale R] (h : Same g g') (base : R) (extra : Nat) :
    g.score base extra = g'.score base extra := by
  rw [score, score, h.compatible.isEmpty_eq, h.compatible.length_eq]

end EvidenceGroup

/-! ## Evidence -/

/-- What is found in two lists looks alike if their items are found and look alike one by one. -/
theorem map_find?_congr {α β γ : Type} {p : α → Bool} {q : β → Bool} {f : α → γ} {g : β → γ}
    {as : List α} {bs : List β}
    (h : List.Forall₂ (fun a b => p a = q b ∧ f a = g b) as bs) :
    (as.find? p).map f = (bs.find? q).map g := by
  induction h with
  | nil => rfl
  | @cons a b as bs hab _ ih =>
    rw [List.find?_cons, List.find?_cons, hab.1]
    cases q b
    · exact ih
    · exact congrArg some hab.2

namespace Evidence

variable [Scale R] {all all' : List (Classed R)}

omit [Scale R] in
theorem signaturesOf_perm (h : all.Perm all') : signaturesOf all = signaturesOf all' := by
  rw [signaturesOf, signaturesOf, h.isEmpty_eq, h.countP_eq, h.countP_eq]

/-- The classes as they are weighed, with their targets and scores. -/
def weighed (all : List (Classed R)) (classes : List String) :
    List (EvidenceClass × EvidenceGroup × R) :=
  let group (c : EvidenceClass) := EvidenceGroup.ofClass c all
  [(.abstractMethod, group .abstractMethod, (group .abstractMethod).score 0.8 0),
    (.interfaceMethod, group .interfaceMethod,
      (group .interfaceMethod).score 0.8 (classes.length - 1)),
    (.parentMethod, group .parentMethod, (group .parentMethod).score 0.7 0)]

theorem weigh_perm (hagree : NamesAgree (all.map (·.2))) (h : all.Perm all') (id : String)
    (classes : List String) : weigh id all classes = weigh id all' classes := by
  have hsame : ∀ c, (EvidenceGroup.ofClass c all).Same (.ofClass c all') :=
    fun c b => EvidenceGroup.entries_ofClass_perm hagree h
  have hweighed : List.Forall₂ (fun x y => x.1 = y.1 ∧ x.2.1.Same y.2.1 ∧ x.2.2 = y.2.2)
      (weighed all classes) (weighed all' classes) :=
    .cons ⟨rfl, hsame _, (hsame _).score_eq ..⟩ (.cons ⟨rfl, hsame _, (hsame _).score_eq ..⟩
      (.cons ⟨rfl, hsame _, (hsame _).score_eq ..⟩ .nil))
  have hscore : ((weighed all classes).find? ((0.0 : R) < ·.2.2)).map (·.2.2) =
      ((weighed all' classes).find? ((0.0 : R) < ·.2.2)).map (·.2.2) :=
    map_find?_congr (hweighed.imp fun x y hxy => ⟨by rw [hxy.2.2], hxy.2.2⟩)
  have hreason : ((weighed all classes).find? ((0.0 : R) < ·.2.2)).map
        (fun x => describe x.1 x.2.1 classes.length) =
      ((weighed all' classes).find? ((0.0 : R) < ·.2.2)).map
        fun x => describe x.1 x.2.1 classes.length := by
    refine map_find?_congr (hweighed.imp fun x y hxy => ⟨by rw [hxy.2.2], ?_⟩)
    rw [hxy.1]
    exact hxy.2.1.describe_eq ..
  unfold weigh
  simp only [(hsame _).targets_eq, (hsame _).isPresent_eq, signaturesOf_perm h]
  -- the reasons agree by `hreason`, which leaves the scores
  congr 1
  exact congrArg (·.getD 0.0) hscore

end Evidence

namespace TypeFacts

/-- The type relations with other overrides of a function. -/
def withOverrides (t : TypeFacts R) (id : String) (os : List (MethodOverride R)) : TypeFacts R :=
  { t with overridesOf := fun k => if k = id then os else t.overridesOf k }

variable {t : TypeFacts R} {id : String} {os os' : List (MethodOverride R)}

theorem implementors_perm {all all' : List (Classed R)} (h : all.Perm all') :
    t.implementors all = t.implementors all' := by
  rw [implementors, implementors, EvidenceSession.interfaceIds, EvidenceSession.interfaceIds,
    distinctTexts_congr fun s => (h.filterMap _).mem_iff]

variable [Scale R]

/-- The evidence on a function by some overrides. -/
def evidenceBy (t : TypeFacts R) (id : String) (os : List (MethodOverride R)) : Evidence R :=
  .weigh id (t.classed os) (sortedTexts ((t.implementors (t.classed os)).map (·.name)))

theorem evidence_withOverrides (k : String) :
    (t.withOverrides id os).evidence k =
      t.evidenceBy k (if k = id then os else t.overridesOf k) :=
  rfl

theorem evidenceBy_perm (hagree : NamesAgree os) (h : os.Perm os') (k : String) :
    t.evidenceBy k os = t.evidenceBy k os' := by
  have hclassed : (t.classed os).Perm (t.classed os') := h.flatMap_right _
  have hagree' : NamesAgree ((t.classed os).map (·.2)) := by
    refine hagree.mono fun o ho => ?_
    obtain ⟨⟨c, o⟩, hclassed, rfl⟩ := List.mem_map.mp ho
    exact (mem_classed.mp hclassed).1
  rw [evidenceBy, evidenceBy, implementors_perm hclassed, Evidence.weigh_perm hagree' hclassed]

theorem evidence_withOverrides_perm (hagree : NamesAgree os) (h : os.Perm os') :
    (t.withOverrides id os).evidence = (t.withOverrides id os').evidence := by
  funext k
  simp only [evidence_withOverrides]
  split_ifs
  · exact evidenceBy_perm hagree h k
  · rfl

end TypeFacts

namespace EvidenceSession

variable [Scale R] {t : TypeFacts R} {snapshot id : String} {s : EvidenceSession R}

theorem Recalls.withOverrides_perm {os os' : List (MethodOverride R)} (hagree : NamesAgree os)
    (h : os.Perm os') (hs : s.Recalls (t.withOverrides id os) snapshot) :
    s.Recalls (t.withOverrides id os') snapshot where
  plain := hs.plain
  holds m hm := ⟨TypeFacts.evidence_withOverrides_perm hagree h ▸ (hs.holds m hm).results,
    (hs.holds m hm).members, (hs.holds m hm).implementors⟩

end EvidenceSession

/-- If overrides with one key call their target by the same name, the evidence that a session gives
on their function is the same in any order: score, reason, interfaces, classes, counts and
signatures. Overrides with one key and target types named alike do call their target by the same
name, unless one of them says nothing of its target type and another one only that its id is
`name:`. -/
theorem evidence_ignores_order [Scale R] (t : TypeFacts R) (id : String)
    (os : List (MethodOverride R)) :
    (NamesAgree os → ∀ os', os.Perm os' → ∀ (failClosed : Bool) (snapshot : String)
      (s : EvidenceSession R), s.Recalls (t.withOverrides id os) snapshot →
        (s.analyze (t.withOverrides id os').source failClosed snapshot id).1 =
          (s.analyze (t.withOverrides id os).source failClosed snapshot id).1) ∧
      (TypeNamesAgree os → (NamesAgree os ↔ ¬ NamelessClash os)) := by
  refine ⟨fun hagree os' hperm failClosed snapshot s hs => ?_, namesAgree_iff⟩
  rw [EvidenceSession.analyze_source failClosed hs,
    EvidenceSession.analyze_source failClosed (hs.withOverrides_perm hagree hperm),
    TypeFacts.evidence_withOverrides_perm hagree hperm]

/-- One interface is the target of a compatible and of an incompatible override, and another one,
which is known by its name only, that of a third override. -/
theorem evidence_ignores_order_reversed :
    let a : MethodOverride Rat :=
      { id := "a", targetTypeId := "T", targetTypeName := "S", kind := .implement,
        isCompatible := true, confidence := 1 }
    let b : MethodOverride Rat := { a with id := "b", isCompatible := false }
    let c : MethodOverride Rat :=
      { id := "c", targetTypeName := "R", kind := .implement, isCompatible := true,
        confidence := 1 }
    let t : TypeFacts Rat :=
      { overridesOf := fun _ => []
        membersOf := fun _ => []
        implementorsOf := fun _ => [{ id := "A", name := "A" }] }
    let first := Evidence.of (t.withOverrides "f" [a, b, c]).source false "s" "f"
    let second := Evidence.of (t.withOverrides "f" [c, b, a]).source false "s" "f"
    NamesAgree [a, b, c] ∧ [a, b, c].Perm [c, b, a] ∧ second = first ∧
      first.interfaces = ["R", "S"] ∧ first.signatures = some ⟨2, 1⟩ := by
  intro a b c t first second
  have hagree : NamesAgree [a, b, c] := by
    unfold NamesAgree
    decide
  have hperm : [a, b, c].Perm [c, b, a] := (List.reverse_perm [a, b, c]).symm
  have hfirst : first = (t.withOverrides "f" [a, b, c]).evidence "f" := Evidence.of_source ..
  have hinterfaces : first.interfaces = ["R", "S"] := by
    rw [hfirst]
    exact sortedTexts_eq_of_perm (List.Perm.swap "R" "S" []) (by decide)
  have hsignatures : first.signatures = some ⟨2, 1⟩ := by
    rw [hfirst]
    decide +kernel
  obtain ⟨hsame, -⟩ := evidence_ignores_order t "f" [a, b, c]
  exact ⟨hagree, hperm, hsame hagree _ hperm false "s" _ (EvidenceSession.recalls_nothing _ "s"),
    hinterfaces, hsignatures⟩

/-- An override that says nothing of its target type and one whose type has the id `name:` have the
same key and no type names. The interface is called as the last one of them says. -/
theorem evidence_follows_order_of_nameless :
    let bare : MethodOverride Rat :=
      { id := "a", kind := .implement, isCompatible := true, confidence := 1 }
    let odd : MethodOverride Rat := { bare with id := "b", targetTypeId := "name:" }
    let t : TypeFacts Rat :=
      { overridesOf := fun _ => [], membersOf := fun _ => [], implementorsOf := fun _ => [] }
    let first := Evidence.of (t.withOverrides "f" [bare, odd]).source false "s" "f"
    let second := Evidence.of (t.withOverrides "f" [odd, bare]).source false "s" "f"
    TypeNamesAgree [bare, odd] ∧ [bare, odd].Perm [odd, bare] ∧
      first.interfaces = ["name:"] ∧ second.interfaces = [""] ∧ first ≠ second := by
  intro bare odd t first second
  have hagree : TypeNamesAgree [bare, odd] := by
    unfold TypeNamesAgree
    decide
  have hfirst : first.interfaces = ["name:"] := by decide +kernel
  have hsecond : second.interfaces = [""] := by decide +kernel
  refine ⟨hagree, .swap odd bare [], hfirst, hsecond, fun heq => ?_⟩
  rw [heq, hsecond] at hfirst
  exact absurd hfirst (by decide)

end Deadwood
