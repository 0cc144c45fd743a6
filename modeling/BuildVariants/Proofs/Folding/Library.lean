import BuildVariants.Folding.Library
import BuildVariants.Proofs.Folding.Content

/-!
What folding library variants does, said of the variants alone. A build type stays expanded if it
has several variants and two of them differ or one of their dependencies holds them apart. The
variants of all build types share one target if they are all interchangeable, nothing stays expanded
and every dependency is fully folded. These two conditions determine the suffix of every variant.
-/

set_option autoImplicit false
set_option relaxedAutoImplicit false

namespace BuildVariants

namespace DependencyState

/-- A dependency holds a build type apart if it should have a folding and has none, or if the build
type is expanded in its folding. -/
def HoldsApart (buildType : String) (state : DependencyState) : Prop :=
  state = .missing ∨ ∃ folding, state = .settled folding ∧ buildType ∈ folding.expanded.names

/-- A dependency allows a target for all build types if it is not tracked or fully folded. -/
def AllowsOneTarget (state : DependencyState) : Prop :=
  state = .untracked ∨ ∃ folding, state = .settled folding ∧ folding.isFull = true

theorem blocks_eq_true_iff {buildType : String} {state : DependencyState} :
    state.blocks buildType = true ↔ state.HoldsApart buildType := by
  cases state with
  | untracked => simp [blocks, HoldsApart]
  | missing => simp [blocks, HoldsApart]
  | settled folding => simp [blocks, HoldsApart, Folding.isExpanded]

theorem blocksCross_eq_false_iff {state : DependencyState} :
    state.blocksCross = false ↔ state.AllowsOneTarget := by
  cases state with
  | untracked => simp [blocksCross, AllowsOneTarget]
  | missing => simp [blocksCross, AllowsOneTarget]
  | settled folding => simp [blocksCross, AllowsOneTarget]

end DependencyState

theorem listedPaths_eq_none_iff {introduction : String} {paths : List String} :
    listedPaths introduction paths = none ↔ paths = [] := by
  simp [listedPaths]

namespace LibraryVariant

def DependsOn (data : LibraryVariant) (path : String) : Prop :=
  ∃ suffix, Dependency.project path suffix ∈ data.deps

theorem mem_referencedProjects {path : String} {items : List LibraryVariant} :
    path ∈ referencedProjects items ↔ ∃ data ∈ items, data.DependsOn path := by
  rw [referencedProjects, projectPaths, References.mem_projects_ofDependencies]
  simp only [List.mem_flatten, List.mem_map, DependsOn]
  constructor
  · rintro ⟨suffix, -, ⟨data, hdata, rfl⟩, hdep⟩
    exact ⟨data, hdata, suffix, hdep⟩
  · rintro ⟨data, hdata, suffix, hdep⟩
    exact ⟨suffix, _, ⟨data, hdata, rfl⟩, hdep⟩

theorem blocker_eq_none_iff {states : DependencyStates} {buildType : String}
    {group : SortedMap LibraryVariant} :
    blocker states buildType group = none ↔ ∀ data ∈ group.values, ∀ path, data.DependsOn path →
      ¬ (states path).HoldsApart buildType := by
  rw [blocker, listedPaths_eq_none_iff, List.filter_eq_nil_iff]
  simp only [mem_referencedProjects, DependencyState.blocks_eq_true_iff]
  constructor
  · intro h data hdata path hpath
    exact h path ⟨data, hdata, hpath⟩
  · rintro h path ⟨data, hdata, hpath⟩
    exact h data hdata path hpath

theorem crossObjection_eq_none_iff {states : DependencyStates} {items : List LibraryVariant} :
    crossObjection states items = none ↔ ∀ data ∈ items, ∀ path, data.DependsOn path →
      (states path).AllowsOneTarget := by
  rw [crossObjection, listedPaths_eq_none_iff, List.filter_eq_nil_iff]
  simp only [mem_referencedProjects, Bool.not_eq_true, DependencyState.blocksCross_eq_false_iff]
  constructor
  · intro h data hdata path hpath
    exact h path ⟨data, hdata, hpath⟩
  · rintro h path ⟨data, hdata, hpath⟩
    exact h data hdata path hpath

theorem comparesContent (buildTypeOf : String → String) :
    (foldRules buildTypeOf).ComparesContent content where
  interchangeable_iff := allAgreeWithFirst_iff content
  content_rename := fun _ _ => rfl
  nameOf_rename := fun _ _ => rfl
  rename_nameOf := fun _ => rfl
  rename_rename := fun _ _ _ => rfl

/-- The rules that keep a build type apart for the sake of its dependencies, if these are
checked. -/
def blocker? (options : LibraryOptions) (states : DependencyStates) :
    Option (Blocker LibraryVariant) :=
  if options.checkDependencies then some (blocker states) else none

section Specification

variable (options : LibraryOptions) (buildTypeOf : String → String) (states : DependencyStates)
  (variants : OrderedMap LibraryVariant)

/-- A build type stays expanded if it has several variants, and two of them are not interchangeable
or, where dependencies are checked, one of them depends on a project that holds it apart. -/
def StaysExpanded (buildType : String) : Prop :=
  2 ≤ (variants.membersOf buildTypeOf buildType).length ∧
    ((∃ x ∈ variants.membersOf buildTypeOf buildType,
        ∃ y ∈ variants.membersOf buildTypeOf buildType, x.2.interchangeable y.2 = false) ∨
      (options.checkDependencies = true ∧
        ∃ x ∈ variants.membersOf buildTypeOf buildType, ∃ path,
          x.2.DependsOn path ∧ (states path).HoldsApart buildType))

/-- The variants of all build types share one target if that is asked for, there are several build
types, none of which stays expanded, all variants are interchangeable and every dependency allows
one target. -/
def FoldsFully : Prop :=
  options.crossBuildTypes = true ∧
    (∃ b c, b ≠ c ∧ variants.membersOf buildTypeOf b ≠ [] ∧ variants.membersOf buildTypeOf c ≠ []) ∧
    (∀ buildType, ¬ StaysExpanded options buildTypeOf states variants buildType) ∧
    (∀ x ∈ variants.entries, ∀ y ∈ variants.entries, x.2.interchangeable y.2 = true) ∧
    ∀ x ∈ variants.entries, ∀ path, x.2.DependsOn path → (states path).AllowsOneTarget

end Specification

variable {options : LibraryOptions} {buildTypeOf : String → String} {states : DependencyStates}
  {variants : OrderedMap LibraryVariant} {report : FoldingReport LibraryVariant}

theorem foldOutcome_eq :
    foldOutcome options buildTypeOf states variants =
      (foldRules buildTypeOf).fold (blocker? options states)
        (some (crossFold options states variants)) variants :=
  rfl

theorem fold_eq_ok_iff :
    fold options buildTypeOf states variants = .ok report ↔
      ∃ outcome, foldOutcome options buildTypeOf states variants = .ok outcome ∧
        outcome.report = .ok report := by
  rw [LibraryVariant.fold]
  cases foldOutcome options buildTypeOf states variants with
  | error collision => simp
  | ok outcome => simp

theorem shares_eq_true_iff {buildType : String} :
    (foldRules buildTypeOf).shares (blocker? options states) variants.sorted buildType = true ↔
      2 ≤ (variants.membersOf buildTypeOf buildType).length ∧
        ¬ StaysExpanded options buildTypeOf states variants buildType := by
  have hsize : ((foldRules buildTypeOf).group variants.sorted buildType).size =
      (variants.membersOf buildTypeOf buildType).length :=
    FoldRules.size_group variants
  have hsame : (foldRules buildTypeOf).interchangeable
      ((foldRules buildTypeOf).group variants.sorted buildType).values = true ↔
        ¬ ∃ x ∈ variants.membersOf buildTypeOf buildType,
          ∃ y ∈ variants.membersOf buildTypeOf buildType, x.2.interchangeable y.2 = false := by
    rw [(comparesContent buildTypeOf).interchangeable_group_iff]
    simp only [not_exists, not_and, Bool.not_eq_false, interchangeable_iff]
    rfl
  have hfree : ((blocker? options states).bind fun block =>
      block buildType ((foldRules buildTypeOf).group variants.sorted buildType)) = none ↔
        ¬ (options.checkDependencies = true ∧
          ∃ x ∈ variants.membersOf buildTypeOf buildType, ∃ path,
            x.2.DependsOn path ∧ (states path).HoldsApart buildType) := by
    cases hcheck : options.checkDependencies with
    | false => simp [blocker?, hcheck]
    | true =>
      simp only [blocker?, hcheck, ↓reduceIte, Option.bind_some, blocker_eq_none_iff,
        FoldRules.mem_values_group, true_and, not_exists, not_and]
      constructor
      · intro h x hx path hpath
        exact h _ ⟨x, hx, rfl⟩ path hpath
      · rintro h _ ⟨x, hx, rfl⟩ path hpath
        exact h x hx path hpath
  simp only [FoldRules.shares, FoldRules.sharesTarget, Bool.and_eq_true, decide_eq_true_eq, hsize,
    Option.isNone_iff_eq_none, hsame, hfree, StaysExpanded]
  constructor
  · rintro ⟨⟨hlarge, hfree⟩, hsame⟩
    exact ⟨hlarge, fun hstays => hstays.2.elim hsame hfree⟩
  · rintro ⟨hlarge, hstays⟩
    exact ⟨⟨hlarge, fun hblocked => hstays ⟨hlarge, Or.inr hblocked⟩⟩,
      fun hdiffer => hstays ⟨hlarge, Or.inl hdiffer⟩⟩

theorem staysExpanded_iff {buildType : String} :
    StaysExpanded options buildTypeOf states variants buildType ↔
      1 < ((foldRules buildTypeOf).group variants.sorted buildType).size ∧
        (foldRules buildTypeOf).shares (blocker? options states) variants.sorted buildType =
          false := by
  have hshares := @shares_eq_true_iff options buildTypeOf states variants buildType
  rw [FoldRules.size_group, ← Bool.not_eq_true]
  constructor
  · intro hstays
    exact ⟨hstays.1, fun hshared => (hshares.mp hshared).2 hstays⟩
  · rintro ⟨hlarge, hapart⟩
    by_contra hstays
    exact hapart (hshares.mpr ⟨hlarge, hstays⟩)

theorem crosses_eq_true_iff
    (h : (foldRules buildTypeOf).Uncontested (blocker? options states) variants.sorted) :
    (foldRules buildTypeOf).crosses (blocker? options states)
        (some (crossFold options states variants)) variants.sorted = true ↔
      FoldsFully options buildTypeOf states variants := by
  have hnone : ((foldRules buildTypeOf).merged (blocker? options states)
      variants.sorted).expanded.names = [] ↔
        ∀ buildType, ¬ StaysExpanded options buildTypeOf states variants buildType := by
    rw [List.eq_nil_iff_forall_not_mem]
    refine forall_congr' fun buildType => not_congr ?_
    rw [FoldRules.merged, FoldRules.mem_expanded_joined, staysExpanded_iff]
  have hsame : (∀ x ∈ variants.entries, ∀ y ∈ variants.entries, x.2.content = y.2.content) ↔
      ∀ x ∈ variants.entries, ∀ y ∈ variants.entries, x.2.interchangeable y.2 = true := by
    simp only [interchangeable_iff]
  have hallows : crossObjection states variants.values = none ↔
      ∀ x ∈ variants.entries, ∀ path, x.2.DependsOn path → (states path).AllowsOneTarget := by
    rw [crossObjection_eq_none_iff, OrderedMap.values, List.forall_mem_map]
  rw [(comparesContent buildTypeOf).crosses_some_iff h rfl, hnone, hsame]
  show options.crossBuildTypes = true ∧ _ ∧ _ ∧ crossObjection states variants.values = none ∧ _ ↔ _
  rw [hallows]
  constructor
  · rintro ⟨henabled, hnone, hseveral, hallows, hsame⟩
    exact ⟨henabled, hseveral, hnone, hsame, hallows⟩
  · rintro ⟨henabled, hseveral, hnone, hsame, hallows⟩
    exact ⟨henabled, hnone, hseveral, hallows, hsame⟩

variable {outcome : Outcome LibraryVariant}

theorem mem_expanded_iff (h : foldOutcome options buildTypeOf states variants = .ok outcome)
    (buildType : String) :
    buildType ∈ outcome.expanded.names ↔
      StaysExpanded options buildTypeOf states variants buildType := by
  rw [staysExpanded_iff]
  exact FoldRules.mem_expanded_fold h

theorem get?_assignment_of_foldsFully
    (h : foldOutcome options buildTypeOf states variants = .ok outcome)
    (hfull : FoldsFully options buildTypeOf states variants) {variant : String}
    {data : LibraryVariant} (hdata : variants.get? variant = some data) :
    outcome.assignment.get? variant = some "" := by
  rw [foldOutcome_eq] at h
  have huncontested := (FoldRules.fold_cases h).1
  rw [FoldRules.get?_assignment_fold h, hdata,
    if_pos ((crosses_eq_true_iff huncontested).mpr hfull)]
  rfl

/-- Where the variants do not fold fully, a variant is assigned the suffix of its build type if the
build type has several variants and does not stay expanded, and its own suffix otherwise. -/
theorem get?_assignment_of_not_foldsFully
    (h : foldOutcome options buildTypeOf states variants = .ok outcome)
    (hpartial : ¬ FoldsFully options buildTypeOf states variants) {variant : String}
    {data : LibraryVariant} (hdata : variants.get? variant = some data) :
    outcome.assignment.get? variant = some
      (if 2 ≤ (variants.membersOf buildTypeOf (buildTypeOf variant)).length ∧
          buildTypeOf variant ∉ outcome.expanded.names then
        Suffix.ofName (buildTypeOf variant)
      else Suffix.ofName variant) := by
  have hexpanded := mem_expanded_iff h (buildTypeOf variant)
  have hshares := @shares_eq_true_iff options buildTypeOf states variants (buildTypeOf variant)
  rw [foldOutcome_eq] at h
  have huncontested := (FoldRules.fold_cases h).1
  have hcrosses := mt (crosses_eq_true_iff huncontested).mp hpartial
  rw [FoldRules.get?_assignment_fold h, hdata, if_neg hcrosses, Option.map_some,
    FoldRules.suffixIn_eq]
  simp only [hexpanded, ← hshares]
  rfl

/-- The variants alone determine what folding answers. A build type is expanded exactly if it stays
expanded. Every variant, and nothing else, is assigned a suffix: the empty one if the variants fold
fully, that of its build type if the build type has several variants and is not expanded, and its
own otherwise. The suffixes of the targets are the assigned ones. -/
theorem fold_specification (h : fold options buildTypeOf states variants = .ok report) :
    (∀ buildType, buildType ∈ report.folding.expanded.names ↔
      StaysExpanded options buildTypeOf states variants buildType) ∧
    (∀ variant, variants.get? variant = none → report.folding.assignment.get? variant = none) ∧
    (FoldsFully options buildTypeOf states variants → ∀ variant data,
      variants.get? variant = some data → report.folding.assignment.get? variant = some "") ∧
    (¬ FoldsFully options buildTypeOf states variants → ∀ variant data,
      variants.get? variant = some data → report.folding.assignment.get? variant = some
        (if 2 ≤ (variants.membersOf buildTypeOf (buildTypeOf variant)).length ∧
            buildTypeOf variant ∉ report.folding.expanded.names then
          Suffix.ofName (buildTypeOf variant)
        else Suffix.ofName variant)) ∧
    ∀ suffix, suffix ∈ report.folding.suffixes ↔
      ∃ variant, report.folding.assignment.get? variant = some suffix := by
  obtain ⟨outcome, houtcome, hreport⟩ := fold_eq_ok_iff.mp h
  obtain ⟨-, htargets, hassignment, hexpanded, -⟩ := Outcome.report_eq_ok_iff.mp hreport
  rw [Folding.suffixes, htargets, hassignment, hexpanded]
  refine ⟨mem_expanded_iff houtcome, fun variant hnone => ?_,
    fun hfull variant data hdata => get?_assignment_of_foldsFully houtcome hfull hdata,
    fun hpartial variant data hdata => get?_assignment_of_not_foldsFully houtcome hpartial hdata,
    fun suffix => ?_⟩
  · rw [FoldRules.get?_assignment_fold houtcome, hnone, Option.map_none]
  · rw [SortedMap.mem_keys_iff]
    constructor
    · rintro ⟨data, hdata⟩
      exact FoldRules.exists_assigned_fold houtcome hdata
    · rintro ⟨variant, hvariant⟩
      exact FoldRules.exists_target_fold houtcome hvariant

/-- Two flavors in two build types, where the debug variants depend on a project. -/
def twoFlavors : OrderedMap LibraryVariant :=
  .ofList [
    ("freeDebug", { name := "lib-free-debug", deps := [.project ":util" ""] }),
    ("paidDebug", { name := "lib-paid-debug", deps := [.project ":util" "-debug"] }),
    ("freeRelease", { name := "lib-free-release" }),
    ("paidRelease", { name := "lib-paid-release" })]

def twoFlavorsBuildType (variant : String) : String :=
  if variant = "freeDebug" ∨ variant = "paidDebug" then "debug" else "release"

/-- A dependency without a folding keeps the debug variants apart, and the release variants share a
target. -/
theorem fold_specification_of_missing :
    ∃ report, fold ⟨true, true⟩ twoFlavorsBuildType (fun _ => .missing) twoFlavors = .ok report ∧
      "debug" ∈ report.folding.expanded.names ∧ "release" ∉ report.folding.expanded.names ∧
      report.folding.assignment.get? "paidDebug" = some "-paid-debug" ∧
      report.folding.assignment.get? "paidRelease" = some "-release" := by
  have hok :
      (fold ⟨true, true⟩ twoFlavorsBuildType (fun _ => .missing) twoFlavors).isOk = true := by
    decide +kernel
  obtain ⟨report, h⟩ := exists_ok_of_isOk hok
  obtain ⟨hexpanded, -, -, hassigned, -⟩ := fold_specification h
  have hpaid : ("paidDebug", { name := "lib-paid-debug", deps := [.project ":util" "-debug"] }) ∈
      twoFlavors.membersOf twoFlavorsBuildType "debug" := by
    decide +kernel
  have hdebug : StaysExpanded ⟨true, true⟩ twoFlavorsBuildType (fun _ => .missing) twoFlavors
      "debug" := by
    refine ⟨by decide +kernel, Or.inr ⟨rfl, _, hpaid, ":util", ⟨"-debug", ?_⟩, Or.inl rfl⟩⟩
    exact List.mem_cons_self
  have hrelease : twoFlavors.membersOf twoFlavorsBuildType "release" =
      [("freeRelease", { name := "lib-free-release" }),
        ("paidRelease", { name := "lib-paid-release" })] := by
    decide +kernel
  have hfolded : ¬ StaysExpanded ⟨true, true⟩ twoFlavorsBuildType (fun _ => .missing) twoFlavors
      "release" := by
    rw [StaysExpanded, hrelease]
    rintro ⟨-, ⟨x, hx, y, hy, hdiffer⟩ | ⟨-, x, hx, path, ⟨suffix, hdep⟩, -⟩⟩
    · revert x y
      decide +kernel
    · simp only [List.mem_cons, List.not_mem_nil, or_false] at hx
      rcases hx with rfl | rfl <;> simp at hdep
  have hpartial : ¬ FoldsFully ⟨true, true⟩ twoFlavorsBuildType (fun _ => .missing) twoFlavors :=
    fun hfull => hfull.2.2.1 "debug" hdebug
  rw [← hexpanded] at hdebug hfolded
  refine ⟨report, h, hdebug, hfolded, ?_, ?_⟩
  · rw [hassigned hpartial "paidDebug" _ (by rfl), if_neg fun hcases => hcases.2 hdebug]
    decide +kernel
  · rw [hassigned hpartial "paidRelease" _ (by rfl), if_pos ⟨by decide +kernel, hfolded⟩]
    decide +kernel

end LibraryVariant

end BuildVariants
