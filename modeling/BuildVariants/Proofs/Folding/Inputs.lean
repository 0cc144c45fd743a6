import BuildVariants.Proofs.Folding.Conservation
import BuildVariants.Proofs.Folding.References

/-!
What folding reads of its inputs. It reads the data of each variant under its name, and not the
order in which the variants are given. It reads the build types of these variants, and of no other
name.
-/

set_option autoImplicit false
set_option relaxedAutoImplicit false

namespace BuildVariants

namespace FoldRules

variable {α : Type} {rules : FoldRules α} {blocker : Option (Blocker α)}
  {config : Option (CrossFold α)} {variants : OrderedMap α}

section Order

variable {others : OrderedMap α}

theorem fold_eq_of_get?_eq (h : ∀ name, variants.get? name = others.get? name) :
    rules.fold blocker config variants = rules.fold blocker config others := by
  rw [fold, fold, foldBuildTypes, foldBuildTypes, OrderedMap.sorted_eq_of_get?_eq h]

end Order

section BuildTypes

variable {buildTypeOf : String → String}

theorem groups_congr {variants : SortedMap α}
    (h : ∀ v ∈ variants.keys, rules.buildTypeOf v = buildTypeOf v) :
    groups { rules with buildTypeOf } variants = rules.groups variants := by
  have hbuildTypes : variants.keys.map rules.buildTypeOf = variants.keys.map buildTypeOf :=
    List.map_congr_left h
  have hgroup : ∀ buildType, variants.filterKeys (fun v => rules.buildTypeOf v = buildType) =
      variants.filterKeys fun v => buildTypeOf v = buildType := by
    intro buildType
    apply SortedMap.eq_of_get?_eq
    intro v
    rw [SortedMap.get?_filterKeys, SortedMap.get?_filterKeys]
    cases hv : variants.get? v with
    | none => simp
    | some data => rw [h v (SortedMap.mem_keys_iff.mpr ⟨data, hv⟩)]
  rw [groups, groups, hbuildTypes]
  simp only [hgroup]

theorem mem_keys_of_foldBuildTypes {outcome : Outcome α}
    (h : rules.foldBuildTypes blocker variants = .ok outcome) {v : String}
    (hv : v ∈ outcome.assignment.keys) : v ∈ variants.keys := by
  obtain ⟨-, rfl⟩ := foldBuildTypes_eq_ok_iff.mp h
  obtain ⟨suffix, hsuffix⟩ := SortedMap.mem_keys_iff.mp hv
  rw [get?_assignment_joined, Option.map_eq_some_iff, OrderedMap.get?_sorted] at hsuffix
  obtain ⟨data, hdata, -⟩ := hsuffix
  exact OrderedMap.mem_keys_iff.mpr ⟨data, hdata⟩

theorem fold_congr_buildTypes (rules : FoldRules α)
    (h : ∀ v ∈ variants.keys, rules.buildTypeOf v = buildTypeOf v) :
    fold { rules with buildTypeOf } blocker config variants =
      rules.fold blocker config variants := by
  have hgroups : foldBuildTypes { rules with buildTypeOf } blocker variants =
      rules.foldBuildTypes blocker variants := by
    rw [foldBuildTypes, groups_congr fun v hv => h v (OrderedMap.mem_keys_sorted.mp hv)]
    rfl
  rw [fold, fold, hgroups]
  cases houtcome : rules.foldBuildTypes blocker variants with
  | error collision => rfl
  | ok outcome =>
    have hacross : outcome.foldAcross { rules with buildTypeOf } = outcome.foldAcross rules := by
      have hnames : outcome.assignment.keys.map rules.buildTypeOf =
          outcome.assignment.keys.map buildTypeOf :=
        List.map_congr_left fun v hv => h v (mem_keys_of_foldBuildTypes houtcome hv)
      simp only [Outcome.foldAcross, moveTarget, hnames]
    have hcross : outcome.cross { rules with buildTypeOf } config = outcome.cross rules config := by
      unfold Outcome.cross
      rw [hacross]
    simp only [bind, Except.bind, hcross]

end BuildTypes

end FoldRules

section Kinds

variable {buildTypeOf : String → String}

theorem LibraryVariant.fold_eq_of_get?_eq {options : LibraryOptions} {states : DependencyStates}
    {variants others : OrderedMap LibraryVariant}
    (h : ∀ name, variants.get? name = others.get? name) :
    LibraryVariant.fold options buildTypeOf states variants =
      LibraryVariant.fold options buildTypeOf states others := by
  have hvalues : variants.values.Perm others.values := (OrderedMap.perm_entries_of_get?_eq h).map _
  have hprojects : referencedProjects variants.values = referencedProjects others.values := by
    apply eq_of_pairwise_lt (NameSet.ascending _) (NameSet.ascending _)
    intro path
    refine mem_referencedProjects.trans (Iff.trans ?_ mem_referencedProjects.symm)
    simp only [hvalues.mem_iff]
  have hcross : crossFold options states variants = crossFold options states others := by
    rw [crossFold, crossFold, crossObjection, crossObjection, hprojects]
  have houtcome : foldOutcome options buildTypeOf states variants =
      foldOutcome options buildTypeOf states others := by
    rw [foldOutcome, foldOutcome, hcross, FoldRules.fold_eq_of_get?_eq h]
  rw [LibraryVariant.fold, LibraryVariant.fold, houtcome]

variable {crossBuildTypes : Bool} {project : String}

theorem UnitTestVariant.fold_eq_of_get?_eq {variants others : OrderedMap UnitTestVariant}
    (h : ∀ name, variants.get? name = others.get? name) :
    UnitTestVariant.fold crossBuildTypes project buildTypeOf variants =
      UnitTestVariant.fold crossBuildTypes project buildTypeOf others := by
  rw [UnitTestVariant.fold, UnitTestVariant.fold, foldOutcome, foldOutcome,
    FoldRules.fold_eq_of_get?_eq h]

theorem UnitTestVariant.fold_congr_buildTypes {variants : OrderedMap UnitTestVariant}
    {others : String → String} (h : ∀ v ∈ variants.keys, buildTypeOf v = others v) :
    UnitTestVariant.fold crossBuildTypes project buildTypeOf variants =
      UnitTestVariant.fold crossBuildTypes project others variants := by
  have houtcome : foldOutcome crossBuildTypes project others variants =
      foldOutcome crossBuildTypes project buildTypeOf variants :=
    (foldRules project buildTypeOf).fold_congr_buildTypes h
  rw [UnitTestVariant.fold, UnitTestVariant.fold, houtcome]

end Kinds

/-- Folding does not depend on the order in which the variants are given. Whatever the rules, the
blocker and the last step are, two listings of the same variants have the same outcome or the same
collision, and this holds of library variants and of unit test variants. -/
theorem fold_eq_of_perm :
    (∀ (α : Type) (rules : FoldRules α) blocker config (variants others : OrderedMap α),
      variants.entries.Perm others.entries →
        rules.fold blocker config variants = rules.fold blocker config others) ∧
    (∀ options buildTypeOf states (variants others : OrderedMap LibraryVariant),
      variants.entries.Perm others.entries →
        LibraryVariant.fold options buildTypeOf states variants =
          LibraryVariant.fold options buildTypeOf states others) ∧
    ∀ crossBuildTypes project buildTypeOf (variants others : OrderedMap UnitTestVariant),
      variants.entries.Perm others.entries →
        UnitTestVariant.fold crossBuildTypes project buildTypeOf variants =
          UnitTestVariant.fold crossBuildTypes project buildTypeOf others := by
  refine ⟨?_, ?_, ?_⟩
  · intro α rules blocker config variants others h
    apply FoldRules.fold_eq_of_get?_eq
    exact OrderedMap.get?_eq_of_perm h
  · intro options buildTypeOf states variants others h
    apply LibraryVariant.fold_eq_of_get?_eq
    exact OrderedMap.get?_eq_of_perm h
  · intro crossBuildTypes project buildTypeOf variants others h
    apply UnitTestVariant.fold_eq_of_get?_eq
    exact OrderedMap.get?_eq_of_perm h

/-- A reason against folding release variants that lists them in the order in which it gets them. -/
def listRelease : Blocker String := fun buildType group =>
  if buildType = "release" then some (" before ".intercalate group.keys) else none

def ascendingTexts : OrderedMap String := .ofList [("a", "x"), ("b", "x"), ("c", "x"), ("d", "y")]

def FoldRules.underOneSuffix (buildTypeOf : String → String) : FoldRules String :=
  { ofTexts buildTypeOf with suffixOf := fun _ => "-x" }

/-- Two listings of four texts fold alike under a rule and a reason that depend on an order, and
where all texts have one suffix they meet the same collision. -/
theorem fold_eq_of_perm_texts :
    (∃ outcome,
      (FoldRules.ofTexts FoldRules.fourTextsBuildType).fold (some listRelease) none
        FoldRules.fourTexts = .ok outcome ∧
      (FoldRules.ofTexts FoldRules.fourTextsBuildType).fold (some listRelease) none
        ascendingTexts = .ok outcome ∧
      outcome.decisions =
        [.folded "debug" ["a", "b"] "debug", .expanded "release" ["c", "d"] "c before d"]) ∧
    (FoldRules.underOneSuffix FoldRules.fourTextsBuildType).fold none none FoldRules.fourTexts =
      .error (.variants "debug" [("-x", ["a", "b"])]) ∧
    (FoldRules.underOneSuffix FoldRules.fourTextsBuildType).fold none none ascendingTexts =
      .error (.variants "debug" [("-x", ["a", "b"])]) := by
  have hperm : FoldRules.fourTexts.entries.Perm ascendingTexts.entries := by
    decide
  constructor
  · have hdecisions : ((FoldRules.ofTexts FoldRules.fourTextsBuildType).fold (some listRelease) none
        FoldRules.fourTexts).map (·.decisions) = .ok [.folded "debug" ["a", "b"] "debug",
          .expanded "release" ["c", "d"] "c before d"] := by
      decide +kernel
    obtain ⟨outcome, h, houtcome⟩ := map_eq_ok_iff.mp hdecisions
    have hsame := fold_eq_of_perm.1 _ (FoldRules.ofTexts FoldRules.fourTextsBuildType)
      (some listRelease) none _ _ hperm
    exact ⟨outcome, h, hsame.symm.trans h, houtcome⟩
  · have hcollision : (FoldRules.underOneSuffix FoldRules.fourTextsBuildType).fold none none
        FoldRules.fourTexts = .error (.variants "debug" [("-x", ["a", "b"])]) := by
      decide +kernel
    have hsame := fold_eq_of_perm.1 _ (FoldRules.underOneSuffix FoldRules.fourTextsBuildType) none
      none _ _ hperm
    exact ⟨hcollision, hsame.symm.trans hcollision⟩

end BuildVariants
