import BuildVariants.Proofs.Folding.Merge
import BuildVariants.Proofs.Registry

/-!
The outcome of folding a project. Folding has an outcome exactly if no suffix is contested, and the
outcome is the merged one, folded across build types where that is allowed. Either way it lists the
same expanded build types and assigns every variant the suffix of one of its targets, so the outcome
always becomes a folding.
-/

set_option autoImplicit false
set_option relaxedAutoImplicit false

namespace BuildVariants

namespace Outcome

variable {α : Type} {outcome : Outcome α}

theorem allowsCross_iff {cross : CrossFold α} :
    outcome.allowsCross cross = true ↔
      cross.enabled = true ∧ outcome.expanded.names = [] ∧ 1 < outcome.targets.size ∧
        cross.objection = none ∧ cross.interchangeable outcome.targets.values = true := by
  simp [allowsCross, NameSet.isEmpty, and_assoc]

theorem exists_entries_foldAcross (rules : FoldRules α) (h : 1 < outcome.targets.size) :
    ∃ suffix data rest, outcome.targets.entries = (suffix, data) :: rest ∧
      (outcome.foldAcross rules).targets.entries = [("", rules.moveTarget data suffix "")] := by
  have hentries : outcome.targets.entries ≠ [] := by
    intro hnil
    simp [SortedMap.size, hnil] at h
  obtain ⟨⟨suffix, data⟩, rest, hcons⟩ := List.exists_cons_of_ne_nil hentries
  refine ⟨suffix, data, rest, hcons, ?_⟩
  rw [foldAcross, hcons]
  rfl

theorem exists_target_foldAcross (rules : FoldRules α) (h : 1 < outcome.targets.size) :
    ∃ suffix data, outcome.targets.get? suffix = some data ∧ ∀ key value,
      (outcome.foldAcross rules).targets.get? key = some value ↔
        key = "" ∧ value = rules.moveTarget data suffix "" := by
  obtain ⟨suffix, data, rest, hentries, htargets⟩ := exists_entries_foldAcross rules h
  refine ⟨suffix, data, SortedMap.get?_eq_some_iff.mpr (by simp [hentries]), fun key value => ?_⟩
  rw [SortedMap.get?_eq_some_iff, htargets, List.mem_singleton, Prod.mk.injEq]

theorem report_eq_ok_iff {report : FoldingReport α} :
    outcome.report = .ok report ↔
      Folding.dangling outcome.targets outcome.assignment = [] ∧
        report.folding.targets = outcome.targets ∧
        report.folding.assignment = outcome.assignment ∧
        report.folding.expanded = outcome.expanded ∧ report.decisions = outcome.decisions := by
  obtain ⟨⟨targets, assignment, expanded, assigned⟩, decisions⟩ := report
  simp only [Outcome.report, Folding.ofParts, bind_eq_ok_iff]
  by_cases hdangling : Folding.dangling outcome.targets outcome.assignment = []
  · simp only [hdangling, ↓reduceDIte, Except.ok.injEq, true_and]
    constructor
    · rintro ⟨folding, rfl, hreport⟩
      cases hreport
      exact ⟨rfl, rfl, rfl, rfl⟩
    · rintro ⟨rfl, rfl, rfl, rfl⟩
      exact ⟨_, rfl, rfl⟩
  · simp [hdangling]

end Outcome

theorem Folding.dangling_eq_nil_iff {α : Type} {targets : SortedMap α}
    {assignment : SortedMap String} :
    Folding.dangling targets assignment = [] ↔
      ∀ variant suffix, assignment.get? variant = some suffix →
        ∃ data, targets.get? suffix = some data := by
  simp only [Folding.dangling, List.map_eq_nil_iff, List.filter_eq_nil_iff, Bool.not_eq_true',
    Bool.not_eq_false, SortedMap.contains, Option.isSome_iff_exists, Prod.forall,
    SortedMap.get?_eq_some_iff]

namespace FoldRules

variable {α : Type} (rules : FoldRules α)

/-- The outcome before any folding across build types. -/
def merged (blocker : Option (Blocker α)) (variants : SortedMap α) : Outcome α :=
  .joined (rules.settled blocker variants)

def crosses (blocker : Option (Blocker α)) (config : Option (CrossFold α))
    (variants : SortedMap α) : Bool :=
  config.any fun cross => (rules.merged blocker variants).allowsCross cross

variable {rules} {variants : SortedMap α} {blocker : Option (Blocker α)}
  {config : Option (CrossFold α)} {outcome : Outcome α}

private theorem cross_eq (outcome : Outcome α) :
    outcome.cross rules config =
      if config.any fun cross => outcome.allowsCross cross then outcome.foldAcross rules
      else outcome := by
  cases config with
  | none => simp [Outcome.cross]
  | some cross => simp [Outcome.cross]

theorem fold_eq_ok_iff {variants : OrderedMap α} :
    rules.fold blocker config variants = .ok outcome ↔
      rules.Uncontested blocker variants.sorted ∧
        outcome = if rules.crosses blocker config variants.sorted then
            (rules.merged blocker variants.sorted).foldAcross rules
          else rules.merged blocker variants.sorted := by
  rw [FoldRules.fold, bind_eq_ok_iff]
  constructor
  · rintro ⟨merged, hmerged, houtcome⟩
    obtain ⟨huncontested, rfl⟩ := foldBuildTypes_eq_ok_iff.mp hmerged
    rw [cross_eq] at houtcome
    exact ⟨huncontested, (Except.ok.inj houtcome).symm⟩
  · rintro ⟨huncontested, rfl⟩
    exact ⟨_, foldBuildTypes_eq_ok_iff.mpr ⟨huncontested, rfl⟩, by rw [cross_eq]; rfl⟩

theorem crosses_iff :
    rules.crosses blocker config variants = true ↔
      ∃ cross, config = some cross ∧ (rules.merged blocker variants).allowsCross cross = true := by
  cases config with
  | none => simp [crosses]
  | some cross => simp [crosses]

section Outcomes

variable {variants : OrderedMap α}

/-- The outcome is the merged one, or is folded across build types where that is allowed. -/
theorem fold_cases (h : rules.fold blocker config variants = .ok outcome) :
    rules.Uncontested blocker variants.sorted ∧
      ((rules.crosses blocker config variants.sorted = false ∧
          outcome = rules.merged blocker variants.sorted) ∨
        (rules.crosses blocker config variants.sorted = true ∧
          (∃ cross, config = some cross ∧
            (rules.merged blocker variants.sorted).allowsCross cross = true) ∧
          outcome = (rules.merged blocker variants.sorted).foldAcross rules)) := by
  obtain ⟨huncontested, houtcome⟩ := fold_eq_ok_iff.mp h
  refine ⟨huncontested, ?_⟩
  cases hcrosses : rules.crosses blocker config variants.sorted with
  | false => exact Or.inl ⟨rfl, by simpa [hcrosses] using houtcome⟩
  | true => exact Or.inr ⟨rfl, crosses_iff.mp hcrosses, by simpa [hcrosses] using houtcome⟩

theorem mem_expanded_fold (h : rules.fold blocker config variants = .ok outcome)
    {buildType : String} :
    buildType ∈ outcome.expanded.names ↔
      1 < (rules.group variants.sorted buildType).size ∧
        rules.shares blocker variants.sorted buildType = false := by
  rw [← mem_expanded_joined]
  obtain ⟨-, ⟨-, rfl⟩ | ⟨-, ⟨cross, -, hallows⟩, rfl⟩⟩ := fold_cases h
  · rfl
  · have hnone := (Outcome.allowsCross_iff.mp hallows).2.1
    rw [merged] at hnone
    simp [Outcome.foldAcross, NameSet.empty, hnone]

theorem get?_assignment_fold (h : rules.fold blocker config variants = .ok outcome)
    (variant : String) :
    outcome.assignment.get? variant = (variants.get? variant).map fun _ =>
      if rules.crosses blocker config variants.sorted then ""
      else rules.suffixIn blocker variants.sorted variant := by
  have hmerged := get?_assignment_joined rules blocker variants.sorted variant
  rw [OrderedMap.get?_sorted] at hmerged
  obtain ⟨-, ⟨hcrosses, rfl⟩ | ⟨hcrosses, -, rfl⟩⟩ := fold_cases h
  · simpa [hcrosses, merged] using hmerged
  · simp [hcrosses, Outcome.foldAcross, merged, hmerged, Function.comp_def]

theorem exists_target_fold (h : rules.fold blocker config variants = .ok outcome)
    {variant suffix : String} (hassigned : outcome.assignment.get? variant = some suffix) :
    ∃ data, outcome.targets.get? suffix = some data := by
  rw [get?_assignment_fold h, Option.map_eq_some_iff] at hassigned
  obtain ⟨item, hitem, rfl⟩ := hassigned
  rw [← OrderedMap.get?_sorted] at hitem
  obtain ⟨huncontested, ⟨hcrosses, rfl⟩ | ⟨hcrosses, ⟨cross, -, hallows⟩, rfl⟩⟩ := fold_cases h
  · obtain ⟨data, hdata⟩ := exists_hasTarget rules blocker hitem
    have hb := buildTypeOf_mem_buildTypes rules (SortedMap.mem_keys_iff.mpr ⟨item, hitem⟩)
    rw [hcrosses, if_neg Bool.false_ne_true]
    exact ⟨data, (get?_targets_joined huncontested).mpr ⟨_, hb, hdata⟩⟩
  · obtain ⟨old, data, -, htargets⟩ := Outcome.exists_target_foldAcross rules
      (Outcome.allowsCross_iff.mp hallows).2.2.1
    exact ⟨_, (htargets _ _).mpr ⟨if_pos hcrosses, rfl⟩⟩

theorem exists_assigned_fold (h : rules.fold blocker config variants = .ok outcome)
    {suffix : String} {data : α} (htarget : outcome.targets.get? suffix = some data) :
    ∃ variant, outcome.assignment.get? variant = some suffix := by
  have hassigned : ∀ {v item}, variants.sorted.get? v = some item →
      outcome.assignment.get? v = some (if rules.crosses blocker config variants.sorted then ""
        else rules.suffixIn blocker variants.sorted v) := by
    intro v item hv
    rw [get?_assignment_fold h, ← OrderedMap.get?_sorted, hv]
    rfl
  obtain ⟨huncontested, ⟨hcrosses, rfl⟩ | ⟨hcrosses, ⟨cross, -, hallows⟩, rfl⟩⟩ := fold_cases h
  · obtain ⟨b, hb, htarget⟩ := (get?_targets_joined huncontested).mp htarget
    obtain ⟨v, item, hv, -, rfl, -⟩ := exists_variant_of_hasTarget hb htarget
    exact ⟨v, by simpa [hcrosses] using hassigned hv⟩
  · obtain ⟨old, data, hdata, htargets⟩ := Outcome.exists_target_foldAcross rules
      (Outcome.allowsCross_iff.mp hallows).2.2.1
    obtain ⟨b, hb, hdata⟩ := (get?_targets_joined huncontested).mp hdata
    obtain ⟨v, item, hv, -⟩ := exists_variant_of_hasTarget hb hdata
    obtain ⟨rfl, -⟩ := (htargets _ _).mp htarget
    exact ⟨v, by simpa [hcrosses] using hassigned hv⟩

/-- An outcome of folding always has a report. -/
theorem exists_report_fold (h : rules.fold blocker config variants = .ok outcome) :
    ∃ report, outcome.report = .ok report := by
  have hdangling : Folding.dangling outcome.targets outcome.assignment = [] :=
    Folding.dangling_eq_nil_iff.mpr fun _ _ hassigned => exists_target_fold h hassigned
  exact ⟨⟨⟨outcome.targets, outcome.assignment, outcome.expanded,
    Folding.assigned_of_dangling_eq_nil hdangling⟩, outcome.decisions⟩,
    Outcome.report_eq_ok_iff.mpr ⟨hdangling, rfl, rfl, rfl, rfl⟩⟩

/-- If a build type is expanded, its variants have several suffixes, so the folding is not full. -/
theorem isFull_of_mem_expanded (h : rules.fold blocker config variants = .ok outcome)
    {buildType : String} (hexpanded : buildType ∈ outcome.expanded.names)
    {report : FoldingReport α} (hreport : outcome.report = .ok report) :
    report.folding.isFull = false := by
  rw [← Bool.not_eq_true]
  intro hfull
  obtain ⟨hsize, happart⟩ := (mem_expanded_fold h).mp hexpanded
  rw [← SortedMap.length_keys, one_lt_length_iff_of_nodup (SortedMap.nodup_keys _)] at hsize
  obtain ⟨v, w, hne, hv, hw⟩ := hsize
  obtain ⟨hkeyv, rfl⟩ := mem_keys_group.mp hv
  obtain ⟨hkeyw, -⟩ := mem_keys_group.mp hw
  have hcrosses : rules.crosses blocker config variants.sorted = false := by
    obtain ⟨-, ⟨hcrosses, -⟩ | ⟨-, -, rfl⟩⟩ := fold_cases h
    · exact hcrosses
    · cases hexpanded
  have hempty : ∀ x ∈ variants.sorted.keys, rules.suffixIn blocker variants.sorted x = "" := by
    intro x hx
    obtain ⟨item, hitem⟩ := OrderedMap.mem_keys_iff.mp (OrderedMap.mem_keys_sorted.mp hx)
    have hassigned := get?_assignment_fold h x
    obtain ⟨-, -, hassignment, -, -⟩ := Outcome.report_eq_ok_iff.mp hreport
    rw [← hassignment, hitem, hcrosses] at hassigned
    exact Folding.eq_empty_of_isFull hfull (Folding.contains_of_get?_assignment hassigned)
  -- Two variants without a suffix share a target, but these are kept apart.
  have hshares : rules.shares blocker variants.sorted (rules.buildTypeOf v) = true :=
    ((fold_cases h).1.of_suffixIn_eq hkeyv hkeyw
      ((hempty v hkeyv).trans (hempty w hkeyw).symm)).2 hne
  rw [happart] at hshares
  contradiction

end Outcomes

end FoldRules

end BuildVariants
