import BuildVariants.Folding.UnitTest
import BuildVariants.Proofs.Folding.Library
import Mathlib.Data.List.Perm.Subperm

/-!
What folding library variants reads and how it fails. Of the dependency states it reads those of the
projects that the variants depend on. It fails only where suffixes collide, so an outcome always has
a folding. Two variants share a target only if all of them do, or if they belong to one build type
that does not stay expanded.
-/

set_option autoImplicit false
set_option relaxedAutoImplicit false

namespace BuildVariants

namespace FoldRules

variable {α : Type} {rules : FoldRules α} {blocker other : Option (Blocker α)}

theorem foldGroup_congr {buildType : String} {group : SortedMap α}
    (h : (blocker.bind fun block => block buildType group) =
      other.bind fun block => block buildType group) :
    rules.foldGroup blocker buildType group = rules.foldGroup other buildType group := by
  have hsettle : rules.settleGroup blocker buildType group =
      rules.settleGroup other buildType group := by
    unfold settleGroup
    rw [h]
  rw [foldGroup, foldGroup, hsettle]

theorem fold_congr {variants : OrderedMap α} (config : Option (CrossFold α))
    (h : ∀ buildType,
      (blocker.bind fun block => block buildType (rules.group variants.sorted buildType)) =
        other.bind fun block => block buildType (rules.group variants.sorted buildType)) :
    rules.fold blocker config variants = rules.fold other config variants := by
  have hgroups : ∀ entry ∈ rules.groups variants.sorted,
      rules.foldGroup blocker entry.1 entry.2 = rules.foldGroup other entry.1 entry.2 := by
    intro entry hentry
    obtain ⟨buildType, -, rfl⟩ := List.mem_map.mp hentry
    exact foldGroup_congr (h buildType)
  rw [fold, fold, foldBuildTypes, foldBuildTypes, mapM_congr hgroups]

end FoldRules

theorem Collision.isInvariant_fault (collision : Collision) :
    collision.fault.isInvariant = false := by
  cases collision with
  | variants buildType claims => rfl
  | buildTypes suffix owner other => rfl

namespace LibraryVariant

variable {options : LibraryOptions} {buildTypeOf : String → String}
  {states others : DependencyStates} {variants : OrderedMap LibraryVariant}

private theorem blocker_congr (buildType : String) (group : SortedMap LibraryVariant)
    (h : ∀ path ∈ referencedProjects group.values, states path = others path) :
    blocker states buildType group = blocker others buildType group := by
  have hfilter :
      (referencedProjects group.values).filter (fun path => (states path).blocks buildType) =
        (referencedProjects group.values).filter fun path => (others path).blocks buildType :=
    List.filter_congr fun path hpath => by rw [h path hpath]
  rw [blocker, blocker, hfilter]

private theorem crossObjection_congr {items : List LibraryVariant}
    (h : ∀ path ∈ referencedProjects items, states path = others path) :
    crossObjection states items = crossObjection others items := by
  have hfilter : (referencedProjects items).filter (fun path => (states path).blocksCross) =
      (referencedProjects items).filter fun path => (others path).blocksCross :=
    List.filter_congr fun path hpath => by rw [h path hpath]
  rw [crossObjection, crossObjection, hfilter]

private theorem referencedProjects_group {buildType path : String}
    (h : path ∈
      referencedProjects ((foldRules buildTypeOf).group variants.sorted buildType).values) :
    path ∈ referencedProjects variants.values := by
  obtain ⟨data, hdata, hpath⟩ := mem_referencedProjects.mp h
  obtain ⟨x, hx, rfl⟩ := FoldRules.mem_values_group.mp hdata
  have hmem : x.2 ∈ variants.values := List.mem_map.mpr ⟨x, (List.mem_filter.mp hx).1, rfl⟩
  exact mem_referencedProjects.mpr ⟨x.2, hmem, hpath⟩

/-- Folding reads the states of those projects only that the variants depend on. -/
theorem fold_congr (h : ∀ path ∈ referencedProjects variants.values, states path = others path) :
    fold options buildTypeOf states variants = fold options buildTypeOf others variants := by
  have hblocker : ∀ buildType,
      ((blocker? options states).bind fun block =>
          block buildType ((foldRules buildTypeOf).group variants.sorted buildType)) =
        (blocker? options others).bind fun block =>
          block buildType ((foldRules buildTypeOf).group variants.sorted buildType) := by
    intro buildType
    cases hcheck : options.checkDependencies with
    | false => simp [blocker?, hcheck]
    | true =>
      have hgroup :=
        blocker_congr buildType ((foldRules buildTypeOf).group variants.sorted buildType)
          fun path hpath => h path (referencedProjects_group hpath)
      simp [blocker?, hcheck, hgroup]
  have hcross : crossFold options states variants = crossFold options others variants := by
    rw [crossFold, crossFold, crossObjection_congr h]
  have houtcome : foldOutcome options buildTypeOf states variants =
      foldOutcome options buildTypeOf others variants := by
    rw [foldOutcome_eq, foldOutcome_eq, hcross, FoldRules.fold_congr _ hblocker]
  rw [fold, fold, houtcome]

theorem fold_eq_error_iff {fault : Fault} :
    fold options buildTypeOf states variants = .error fault ↔
      ∃ collision, foldOutcome options buildTypeOf states variants = .error collision ∧
        fault = collision.fault := by
  rw [fold]
  cases houtcome : foldOutcome options buildTypeOf states variants with
  | error collision => simp [eq_comm]
  | ok outcome =>
    obtain ⟨report, hreport⟩ := FoldRules.exists_report_fold houtcome
    simp [hreport]

theorem two_le_length_membersOf {v w : String} {x y : LibraryVariant}
    (hx : variants.get? v = some x) (hy : variants.get? w = some y) (hne : v ≠ w)
    (hbuild : buildTypeOf v = buildTypeOf w) :
    2 ≤ (variants.membersOf buildTypeOf (buildTypeOf v)).length := by
  have hv : (v, x) ∈ variants.membersOf buildTypeOf (buildTypeOf v) :=
    List.mem_filter.mpr ⟨OrderedMap.get?_eq_some_iff.mp hx, decide_eq_true rfl⟩
  have hw : (w, y) ∈ variants.membersOf buildTypeOf (buildTypeOf v) :=
    List.mem_filter.mpr ⟨OrderedMap.get?_eq_some_iff.mp hy, decide_eq_true hbuild.symm⟩
  have hnodup : [(v, x), (w, y)].Nodup := by simp [hne]
  have hsubset : [(v, x), (w, y)] ⊆ variants.membersOf buildTypeOf (buildTypeOf v) :=
    List.cons_subset.mpr ⟨hv, List.cons_subset.mpr ⟨hw, List.nil_subset _⟩⟩
  exact (List.subperm_of_subset hnodup hsubset).length_le

variable {report : FoldingReport LibraryVariant}

/-- Two variants have the same target only if all variants have it, or if they belong to one build
type, which then does not stay expanded. -/
theorem foldsFully_or_of_same_suffix (h : fold options buildTypeOf states variants = .ok report)
    {v w suffix : String} (hv : report.folding.assignment.get? v = some suffix)
    (hw : report.folding.assignment.get? w = some suffix) :
    FoldsFully options buildTypeOf states variants ∨ buildTypeOf v = buildTypeOf w ∧
      (v ≠ w → ¬ StaysExpanded options buildTypeOf states variants (buildTypeOf v)) := by
  obtain ⟨outcome, houtcome, hreport⟩ := fold_eq_ok_iff.mp h
  obtain ⟨-, -, hassignment, -, -⟩ := Outcome.report_eq_ok_iff.mp hreport
  rw [foldOutcome_eq] at houtcome
  have huncontested := (FoldRules.fold_cases houtcome).1
  rw [hassignment, FoldRules.get?_assignment_fold houtcome, Option.map_eq_some_iff] at hv hw
  obtain ⟨x, hx, hv⟩ := hv
  obtain ⟨y, hy, hw⟩ := hw
  by_cases hfull : FoldsFully options buildTypeOf states variants
  · exact Or.inl hfull
  · have hcrosses := mt (crosses_eq_true_iff huncontested).mp hfull
    rw [if_neg hcrosses] at hv hw
    have hkey : ∀ {u : String} {z : LibraryVariant}, variants.get? u = some z →
        u ∈ variants.sorted.keys := by
      intro u z hz
      exact SortedMap.mem_keys_iff.mpr ⟨z, (OrderedMap.get?_sorted _ _).trans hz⟩
    obtain ⟨hbuild, hshares⟩ := huncontested.of_suffixIn_eq (hkey hx) (hkey hy) (hv.trans hw.symm)
    exact Or.inr ⟨hbuild, fun hne => (shares_eq_true_iff.mp (hshares hne)).2⟩

theorem exists_common_suffix (h : fold options buildTypeOf states variants = .ok report)
    {v w : String} {x y : LibraryVariant} (hx : variants.get? v = some x)
    (hy : variants.get? w = some y) (hne : v ≠ w) (hbuild : buildTypeOf v = buildTypeOf w)
    (hexpanded : buildTypeOf v ∉ report.folding.expanded.names) :
    ∃ suffix, report.folding.assignment.get? v = some suffix ∧
      report.folding.assignment.get? w = some suffix := by
  obtain ⟨outcome, houtcome, hreport⟩ := fold_eq_ok_iff.mp h
  obtain ⟨-, -, hassignment, hnames, -⟩ := Outcome.report_eq_ok_iff.mp hreport
  rw [hnames] at hexpanded
  rw [hassignment]
  by_cases hfull : FoldsFully options buildTypeOf states variants
  · exact ⟨"", get?_assignment_of_foldsFully houtcome hfull hx,
      get?_assignment_of_foldsFully houtcome hfull hy⟩
  · have hseveral := two_le_length_membersOf hx hy hne hbuild
    have hv := get?_assignment_of_not_foldsFully houtcome hfull hx
    have hw := get?_assignment_of_not_foldsFully houtcome hfull hy
    rw [if_pos ⟨hseveral, hexpanded⟩] at hv
    rw [← hbuild, if_pos ⟨hseveral, hexpanded⟩] at hw
    exact ⟨Suffix.ofName (buildTypeOf v), hv, hw⟩

end LibraryVariant

theorem UnitTestVariant.fold_eq_error_iff {crossBuildTypes : Bool} {project : String}
    {buildTypeOf : String → String} {variants : OrderedMap UnitTestVariant} {fault : Fault} :
    UnitTestVariant.fold crossBuildTypes project buildTypeOf variants = .error fault ↔
      ∃ collision, UnitTestVariant.foldOutcome crossBuildTypes project buildTypeOf variants =
        .error collision ∧ fault = collision.fault := by
  rw [UnitTestVariant.fold]
  cases houtcome : UnitTestVariant.foldOutcome crossBuildTypes project buildTypeOf variants with
  | error collision => simp [eq_comm]
  | ok outcome =>
    obtain ⟨report, hreport⟩ := FoldRules.exists_report_fold houtcome
    simp [hreport]

end BuildVariants
