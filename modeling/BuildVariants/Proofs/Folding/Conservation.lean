import BuildVariants.Proofs.Folding.FullFolding
import BuildVariants.Proofs.Names

/-!
What folding conserves, whatever the rules are. Every variant keeps a suffix and every suffix a
target, so nothing is lost and no target is left over. The decisions account for this: either one
decision says that all variants share a target, or there is one decision for each build type, which
lists the variants of the build type and says which suffixes they were assigned.
-/

set_option autoImplicit false
set_option relaxedAutoImplicit false

namespace BuildVariants

/-- A decision reports on the variants of a build type if it lists them and they were assigned the
suffixes that it says: the stated one, or each its own where they are kept apart. -/
inductive Decision.ReportsOn (suffixOf : String → String) (assignment : SortedMap String)
    (buildType : String) : List String → Decision → Prop
  | single {variant suffix : String} (assigned : assignment.get? variant = some suffix) :
      ReportsOn suffixOf assignment buildType [variant] (.single buildType variant suffix)
  | folded {variants : List String} {suffix : String}
      (assigned : ∀ v ∈ variants, assignment.get? v = some suffix) :
      ReportsOn suffixOf assignment buildType variants (.folded buildType variants suffix)
  | expanded {variants : List String} {reason : String}
      (assigned : ∀ v ∈ variants, assignment.get? v = some (suffixOf v)) :
      ReportsOn suffixOf assignment buildType variants (.expanded buildType variants reason)

namespace FoldRules

variable {α : Type} (rules : FoldRules α)

/-- The only decision of an outcome lists all variants with all their build types, and no variant
has a suffix. -/
def ReportsAcross (variants : OrderedMap α) (outcome : Outcome α) : Prop :=
  ∃ buildTypes names, outcome.decisions = [.full buildTypes names] ∧
    ListsInOrder buildTypes (fun b => ∃ v ∈ variants.keys, rules.buildTypeOf v = b) ∧
    ListsInOrder names (· ∈ variants.keys) ∧
    (∀ v ∈ names, outcome.assignment.get? v = some "") ∧ outcome.expanded.names = []

/-- An outcome has one decision for each build type, in ascending order, and the build types that
the decisions say are kept apart are the expanded ones. -/
def ReportsBuildTypes (variants : OrderedMap α) (outcome : Outcome α) : Prop :=
  (∃ buildTypes, ListsInOrder buildTypes (fun b => ∃ v ∈ variants.keys, rules.buildTypeOf v = b) ∧
    List.Forall₂ (fun b decision => ∃ names,
        ListsInOrder names (fun v => v ∈ variants.keys ∧ rules.buildTypeOf v = b) ∧
        decision.ReportsOn rules.suffixOf outcome.assignment b names)
      buildTypes outcome.decisions) ∧
    ∀ b, b ∈ outcome.expanded.names ↔ ∃ names reason, .expanded b names reason ∈ outcome.decisions

variable {rules} {blocker : Option (Blocker α)} {config : Option (CrossFold α)}

section Groups

variable {group : SortedMap α} {buildType : String}

theorem reportsOn_settleGroup (h : group.keys ≠ []) {assignment : SortedMap String}
    (hassigned : ∀ v ∈ group.keys,
      assignment.get? v = some (rules.groupSuffix blocker buildType group v)) :
    (rules.settleGroup blocker buildType group).decision.ReportsOn rules.suffixOf assignment
      buildType group.keys := by
  have happart : rules.sharesTarget blocker buildType group = false →
      ∀ v ∈ group.keys, assignment.get? v = some (rules.suffixOf v) := by
    intro hshares v hv
    rw [hassigned v hv, groupSuffix, hshares, if_neg Bool.false_ne_true]
  rcases settleGroup_cases rules blocker buildType h with
    ⟨v, hkeys, hsettle⟩ | ⟨hsize, reason, hreason, hsettle⟩ | ⟨hsize, hblock, hsame, hsettle⟩
  · have hshares : rules.sharesTarget blocker buildType group = false := by
      simp [sharesTarget, ← SortedMap.length_keys, hkeys]
    rw [hsettle, hkeys]
    exact .single (happart hshares v (by simp [hkeys]))
  · have hshares : rules.sharesTarget blocker buildType group = false := by
      rcases hreason with hblock | ⟨-, hdiffer, -⟩
      · simp [sharesTarget, hblock]
      · simp [sharesTarget, hdiffer]
    rw [hsettle]
    exact .expanded (happart hshares)
  · have hshares : rules.sharesTarget blocker buildType group = true := by
      simp [sharesTarget, hsize, hblock, hsame]
    rw [hsettle]
    refine .folded fun v hv => ?_
    rw [hassigned v hv, groupSuffix, if_pos hshares]

theorem expanded_settleGroup_iff_decision (h : group.keys ≠ []) {b : String} :
    (∃ names reason, (rules.settleGroup blocker buildType group).decision =
        .expanded b names reason) ↔
      (rules.settleGroup blocker buildType group).expanded = true ∧ buildType = b := by
  rcases settleGroup_cases rules blocker buildType h with
    ⟨v, -, hsettle⟩ | ⟨-, reason, -, hsettle⟩ | ⟨-, -, -, hsettle⟩
  · simp [hsettle, keepApart]
  · simp [hsettle, keepApart]
  · simp [hsettle, foldTogether]

end Groups

section Merged

variable {variants : OrderedMap α}

theorem listsInOrder_buildTypes (rules : FoldRules α) (variants : OrderedMap α) :
    ListsInOrder (rules.buildTypes variants.sorted)
      fun b => ∃ v ∈ variants.keys, rules.buildTypeOf v = b where
  ascending := pairwise_buildTypes
  mem_iff := by
    intro b
    simp only [mem_buildTypes, OrderedMap.mem_keys_sorted]

theorem listsInOrder_group (rules : FoldRules α) (variants : OrderedMap α) (b : String) :
    ListsInOrder (rules.group variants.sorted b).keys
      fun v => v ∈ variants.keys ∧ rules.buildTypeOf v = b where
  ascending := SortedMap.pairwise_keys _
  mem_iff := by
    intro v
    rw [mem_keys_group, OrderedMap.mem_keys_sorted]

theorem mem_expanded_merged_iff_decided {b : String} :
    b ∈ (rules.merged blocker variants.sorted).expanded.names ↔
      ∃ names reason, .expanded b names reason ∈
        (rules.merged blocker variants.sorted).decisions := by
  have hgroup : ∀ c ∈ rules.buildTypes variants.sorted,
      (rules.group variants.sorted c).keys ≠ [] := fun c hc => keys_group_ne_nil hc
  simp only [merged, Outcome.joined, settled, NameSet.mem_names_ofList, List.mem_map,
    List.mem_filter]
  constructor
  · rintro ⟨_, ⟨⟨c, hc, rfl⟩, hexpanded⟩, hb⟩
    rw [buildType_settleGroup] at hb
    obtain ⟨names, reason, hdecision⟩ :=
      (expanded_settleGroup_iff_decision (hgroup c hc)).mpr ⟨hexpanded, hb⟩
    exact ⟨names, reason, _, ⟨c, hc, rfl⟩, hdecision⟩
  · rintro ⟨names, reason, _, ⟨c, hc, rfl⟩, hdecision⟩
    obtain ⟨hexpanded, rfl⟩ :=
      (expanded_settleGroup_iff_decision (hgroup c hc)).mp ⟨names, reason, hdecision⟩
    exact ⟨_, ⟨⟨c, hc, rfl⟩, hexpanded⟩, buildType_settleGroup⟩

theorem reportsBuildTypes_merged :
    rules.ReportsBuildTypes variants (rules.merged blocker variants.sorted) := by
  refine ⟨⟨_, listsInOrder_buildTypes rules variants, ?_⟩, fun b => mem_expanded_merged_iff_decided⟩
  rw [merged, Outcome.joined, settled, List.map_map, List.forall₂_map_right_iff, List.forall₂_same]
  intro b hb
  refine ⟨_, listsInOrder_group rules variants b, reportsOn_settleGroup (keys_group_ne_nil hb) ?_⟩
  intro v hv
  obtain ⟨hkey, rfl⟩ := mem_keys_group.mp hv
  obtain ⟨item, hitem⟩ := SortedMap.mem_keys_iff.mp hkey
  have hmerged := get?_assignment_joined rules blocker variants.sorted v
  rw [hitem] at hmerged
  exact hmerged

end Merged

section Folds

variable {variants : OrderedMap α} {outcome : Outcome α}

theorem mem_keys_assignment_fold (h : rules.fold blocker config variants = .ok outcome)
    {variant : String} : variant ∈ outcome.assignment.keys ↔ variant ∈ variants.keys := by
  rw [SortedMap.mem_keys_iff, OrderedMap.mem_keys_iff]
  simp [get?_assignment_fold h]

theorem mem_keys_targets_fold (h : rules.fold blocker config variants = .ok outcome)
    {suffix : String} :
    suffix ∈ outcome.targets.keys ↔ ∃ v, outcome.assignment.get? v = some suffix := by
  rw [SortedMap.mem_keys_iff]
  constructor
  · rintro ⟨data, hdata⟩
    exact exists_assigned_fold h hdata
  · rintro ⟨v, hassigned⟩
    exact exists_target_fold h hassigned

theorem reportsAcross_of_crosses (h : rules.fold blocker config variants = .ok outcome)
    (hcrosses : rules.crosses blocker config variants.sorted = true) :
    rules.ReportsAcross variants outcome := by
  refine ⟨_, _, decisions_of_crosses h hcrosses, listsInOrder_buildTypes rules variants,
    listsInOrder_keys variants, ?_, ?_⟩
  · intro v hv
    obtain ⟨item, hitem⟩ := SortedMap.mem_keys_iff.mp hv
    rw [OrderedMap.get?_sorted] at hitem
    rw [get?_assignment_fold h, hitem, hcrosses]
    rfl
  · obtain ⟨-, ⟨happart, -⟩ | ⟨-, -, rfl⟩⟩ := fold_cases h
    · rw [hcrosses] at happart
      contradiction
    · rfl

/-- Whatever the rules are, an outcome assigns a suffix to each variant and to nothing else, its
targets are exactly those of the assigned suffixes, and it becomes a folding. Its decisions account
for all variants, either at once or build type by build type. -/
theorem fold_conserves (h : rules.fold blocker config variants = .ok outcome) :
    (∀ v, v ∈ outcome.assignment.keys ↔ v ∈ variants.keys) ∧
    (∀ suffix, suffix ∈ outcome.targets.keys ↔ ∃ v, outcome.assignment.get? v = some suffix) ∧
    (∃ report, outcome.report = .ok report ∧ report.folding.targets = outcome.targets ∧
      report.folding.assignment = outcome.assignment ∧
      report.folding.expanded = outcome.expanded ∧ report.decisions = outcome.decisions) ∧
    (rules.ReportsAcross variants outcome ∨ rules.ReportsBuildTypes variants outcome) := by
  have hreport : ∃ report, outcome.report = .ok report := exists_report_fold h
  obtain ⟨report, hreport⟩ := hreport
  obtain ⟨-, hparts⟩ := Outcome.report_eq_ok_iff.mp hreport
  refine ⟨fun v => mem_keys_assignment_fold h, fun suffix => mem_keys_targets_fold h,
    ⟨report, hreport, hparts⟩, ?_⟩
  cases hcrosses : rules.crosses blocker config variants.sorted with
  | true => exact Or.inl (reportsAcross_of_crosses h hcrosses)
  | false =>
    obtain ⟨-, ⟨-, rfl⟩ | ⟨hacross, -⟩⟩ := fold_cases h
    · exact Or.inr reportsBuildTypes_merged
    · rw [hcrosses] at hacross
      contradiction

end Folds

/-- Rules under which a text is its own name and a name its own suffix. Of a list of texts they
compare the first and the last one, so the verdict depends on the order of the list. -/
def ofTexts (buildTypeOf : String → String) : FoldRules String where
  nameOf := id
  rename := fun _ name => name
  interchangeable := fun texts => texts.head? = texts.getLast?
  buildTypeOf := buildTypeOf
  suffixOf := id

def fourTexts : OrderedMap String := .ofList [("d", "y"), ("c", "x"), ("b", "x"), ("a", "x")]

def fourTextsBuildType (name : String) : String := if name ≤ "b" then "debug" else "release"

/-- One build type is folded and the other kept apart, and the two decisions list the variants of
their build type in ascending order. -/
theorem fold_conserves_texts :
    ∃ outcome, (ofTexts fourTextsBuildType).fold none none fourTexts = .ok outcome ∧
      outcome.decisions = [.folded "debug" ["a", "b"] "debug",
        .expanded "release" ["c", "d"] differingConfiguration] ∧
      outcome.assignment.keys = ["a", "b", "c", "d"] ∧
      (∀ suffix, suffix ∈ outcome.targets.keys ↔
        ∃ v, outcome.assignment.get? v = some suffix) ∧
      (ofTexts fourTextsBuildType).ReportsBuildTypes fourTexts outcome := by
  have hview : ((ofTexts fourTextsBuildType).fold none none fourTexts).map
      (fun outcome => (outcome.decisions, outcome.assignment.keys)) =
        .ok ([.folded "debug" ["a", "b"] "debug",
          .expanded "release" ["c", "d"] differingConfiguration], ["a", "b", "c", "d"]) := by
    decide +kernel
  obtain ⟨outcome, h, hparts⟩ := map_eq_ok_iff.mp hview
  obtain ⟨hdecisions, hkeys⟩ := Prod.mk.inj hparts
  obtain ⟨-, htargets, -, hreports⟩ := fold_conserves h
  refine ⟨outcome, h, hdecisions, hkeys, htargets, hreports.resolve_left ?_⟩
  rintro ⟨buildTypes, names, hfull, -⟩
  rw [hdecisions] at hfull
  simp at hfull

end FoldRules

end BuildVariants
