import BuildVariants.Proofs.Folding.References
import BuildVariants.Proofs.Registry

/-!
The suffixes that a folding of library variants assigns. Every variant is assigned one, and every
target has a variant. A folding is full exactly if the empty suffix is assigned to all variants, and
then no build type is expanded.
-/

set_option autoImplicit false
set_option relaxedAutoImplicit false

namespace BuildVariants.LibraryVariant

variable {options : LibraryOptions} {buildTypeOf : String → String} {states : DependencyStates}
  {variants : OrderedMap LibraryVariant} {report : FoldingReport LibraryVariant}

theorem mem_expanded_report_iff (h : fold options buildTypeOf states variants = .ok report)
    (buildType : String) :
    buildType ∈ report.folding.expanded.names ↔
      StaysExpanded options buildTypeOf states variants buildType := by
  obtain ⟨outcome, houtcome, hreport⟩ := fold_eq_ok_iff.mp h
  obtain ⟨-, -, -, hexpanded, -⟩ := Outcome.report_eq_ok_iff.mp hreport
  rw [hexpanded]
  exact mem_expanded_iff houtcome buildType

theorem mem_keys_of_assigned (h : fold options buildTypeOf states variants = .ok report)
    {variant suffix : String} (hassigned : report.folding.assignment.get? variant = some suffix) :
    variant ∈ variants.keys := by
  obtain ⟨outcome, houtcome, hreport⟩ := fold_eq_ok_iff.mp h
  obtain ⟨-, -, hassignment, -, -⟩ := Outcome.report_eq_ok_iff.mp hreport
  rw [hassignment, FoldRules.get?_assignment_fold houtcome, Option.map_eq_some_iff] at hassigned
  obtain ⟨item, hitem, -⟩ := hassigned
  exact OrderedMap.mem_keys_iff.mpr ⟨item, hitem⟩

theorem get?_assignment_report_of_foldsFully
    (h : fold options buildTypeOf states variants = .ok report)
    (hfull : FoldsFully options buildTypeOf states variants) {variant : String}
    (hvariant : variant ∈ variants.keys) : report.folding.assignment.get? variant = some "" := by
  obtain ⟨outcome, houtcome, hreport⟩ := fold_eq_ok_iff.mp h
  obtain ⟨-, -, hassignment, -, -⟩ := Outcome.report_eq_ok_iff.mp hreport
  obtain ⟨data, hdata⟩ := OrderedMap.mem_keys_iff.mp hvariant
  rw [hassignment]
  exact get?_assignment_of_foldsFully houtcome hfull hdata

theorem get?_assignment_report_of_not_foldsFully
    (h : fold options buildTypeOf states variants = .ok report)
    (hpartial : ¬ FoldsFully options buildTypeOf states variants) {variant : String}
    (hvariant : variant ∈ variants.keys) :
    report.folding.assignment.get? variant = some
      (if 2 ≤ (variants.membersOf buildTypeOf (buildTypeOf variant)).length ∧
          buildTypeOf variant ∉ report.folding.expanded.names then
        Suffix.ofName (buildTypeOf variant)
      else Suffix.ofName variant) := by
  obtain ⟨outcome, houtcome, hreport⟩ := fold_eq_ok_iff.mp h
  obtain ⟨-, -, hassignment, hexpanded, -⟩ := Outcome.report_eq_ok_iff.mp hreport
  obtain ⟨data, hdata⟩ := OrderedMap.mem_keys_iff.mp hvariant
  rw [hassignment, hexpanded]
  exact get?_assignment_of_not_foldsFully houtcome hpartial hdata

theorem exists_suffix_of_mem_keys (h : fold options buildTypeOf states variants = .ok report)
    {variant : String} (hvariant : variant ∈ variants.keys) :
    ∃ suffix, report.folding.assignment.get? variant = some suffix := by
  by_cases hfull : FoldsFully options buildTypeOf states variants
  · exact ⟨_, get?_assignment_report_of_foldsFully h hfull hvariant⟩
  · exact ⟨_, get?_assignment_report_of_not_foldsFully h hfull hvariant⟩

theorem size_assignment (h : fold options buildTypeOf states variants = .ok report) :
    report.folding.assignment.size = variants.size := by
  have hkeys : ∀ variant, variant ∈ report.folding.assignment.keys ↔ variant ∈ variants.keys := by
    intro variant
    rw [SortedMap.mem_keys_iff]
    constructor
    · rintro ⟨suffix, hsuffix⟩
      exact mem_keys_of_assigned h hsuffix
    · exact exists_suffix_of_mem_keys h
  have hperm : report.folding.assignment.keys.Perm variants.keys :=
    (List.perm_ext_iff_of_nodup (SortedMap.nodup_keys _) variants.distinct).mpr hkeys
  have hlength := hperm.length_eq
  rwa [SortedMap.length_keys, OrderedMap.keys, List.length_map] at hlength

theorem exists_assigned_of_mem_targets (h : fold options buildTypeOf states variants = .ok report)
    {suffix : String} (hsuffix : suffix ∈ report.folding.targets.keys) :
    ∃ variant ∈ variants.keys, report.folding.assignment.get? variant = some suffix := by
  obtain ⟨outcome, houtcome, hreport⟩ := fold_eq_ok_iff.mp h
  obtain ⟨-, htargets, hassignment, -, -⟩ := Outcome.report_eq_ok_iff.mp hreport
  rw [htargets, SortedMap.mem_keys_iff] at hsuffix
  obtain ⟨data, hdata⟩ := hsuffix
  obtain ⟨variant, hvariant⟩ := FoldRules.exists_assigned_fold houtcome hdata
  rw [← hassignment] at hvariant
  exact ⟨variant, mem_keys_of_assigned h hvariant, hvariant⟩

theorem isFull_iff_assigned (h : fold options buildTypeOf states variants = .ok report) :
    report.folding.isFull = true ↔ variants.keys ≠ [] ∧ ∀ variant ∈ variants.keys,
      report.folding.assignment.get? variant = some "" := by
  constructor
  · intro hfull
    have hempty : "" ∈ report.folding.targets.keys := by
      rw [Folding.isFull, Bool.and_eq_true] at hfull
      exact SortedMap.contains_iff_mem_keys.mp hfull.2
    obtain ⟨first, hfirst, -⟩ := exists_assigned_of_mem_targets h hempty
    refine ⟨List.ne_nil_of_mem hfirst, ?_⟩
    intro variant hvariant
    obtain ⟨suffix, hsuffix⟩ := exists_suffix_of_mem_keys h hvariant
    have htarget := Folding.contains_of_get?_assignment hsuffix
    rw [hsuffix, Folding.eq_empty_of_isFull hfull htarget]
  · rintro ⟨hne, hall⟩
    have honly : ∀ suffix ∈ report.folding.targets.keys, suffix = "" := by
      intro suffix hsuffix
      obtain ⟨variant, hvariant, hassigned⟩ := exists_assigned_of_mem_targets h hsuffix
      have hempty := hall variant hvariant
      exact Option.some.inj (hassigned.symm.trans hempty)
    have hsize : report.folding.targets.size ≤ 1 := by
      have hnodup := SortedMap.nodup_keys report.folding.targets
      rw [List.eq_replicate_of_mem honly, List.nodup_replicate, SortedMap.length_keys] at hnodup
      exact hnodup
    obtain ⟨first, hfirst⟩ := List.exists_mem_of_ne_nil _ hne
    have hempty := Folding.contains_of_get?_assignment (hall first hfirst)
    have hpos := List.length_pos_of_mem (SortedMap.contains_iff_mem_keys.mp hempty)
    rw [SortedMap.length_keys] at hpos
    rw [Folding.isFull, hempty, Bool.and_true, decide_eq_true_eq]
    omega

theorem notMem_expanded_of_isFull (h : fold options buildTypeOf states variants = .ok report)
    (hfull : report.folding.isFull = true) (buildType : String) :
    buildType ∉ report.folding.expanded.names := by
  intro hexpanded
  obtain ⟨outcome, houtcome, hreport⟩ := fold_eq_ok_iff.mp h
  obtain ⟨-, -, -, hsame, -⟩ := Outcome.report_eq_ok_iff.mp hreport
  rw [foldOutcome_eq] at houtcome
  rw [hsame] at hexpanded
  have hpartial : report.folding.isFull = false :=
    FoldRules.isFull_of_mem_expanded houtcome hexpanded hreport
  rw [hfull] at hpartial
  contradiction

end BuildVariants.LibraryVariant
