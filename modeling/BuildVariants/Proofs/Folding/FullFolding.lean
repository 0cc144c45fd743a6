import BuildVariants.Proofs.Folding.StandIn
import BuildVariants.Proofs.Suffix

/-!
What a full folding says about the decisions. Whether a folding is full is read off its targets, and
whether all build types were folded into one target is a decision. Both agree for a project with
several build types. In a project with one build type, the only target is also without a suffix if
the name that it is named after has neither letters nor digits.
-/

set_option autoImplicit false
set_option relaxedAutoImplicit false

namespace BuildVariants

/-- The suffix of the only target that a decision leaves, if it leaves one. -/
def Decision.targetSuffix? : Decision → Option String
  | .folded _ _ suffix => some suffix
  | .expanded _ _ _ => none
  | .single _ _ suffix => some suffix
  | .full _ _ => some ""

theorem Folding.isFull_iff {α : Type} {folding : Folding α} :
    folding.isFull = true ↔ ∃ data, folding.targets.entries = [("", data)] := by
  have hcontains : folding.targets.contains "" = true ↔
      ∃ entry ∈ folding.targets.entries, entry.1 = "" := by
    rw [SortedMap.contains_iff_mem_keys, SortedMap.keys, List.mem_map]
  rw [Folding.isFull, Bool.and_eq_true, decide_eq_true_eq, hcontains, SortedMap.size,
    List.length_eq_one_iff]
  constructor
  · rintro ⟨⟨⟨suffix, data⟩, hentries⟩, entry, hentry, hempty⟩
    rw [hentries, List.mem_singleton] at hentry
    subst hentry
    exact ⟨data, by rw [hentries, ← hempty]⟩
  · rintro ⟨data, hentries⟩
    exact ⟨⟨_, hentries⟩, ("", data), by simp [hentries], rfl⟩

private theorem flatMap_eq_singleton_iff {γ δ : Type} {parts : γ → List δ} {items : List γ} {x : δ}
    (h : ∀ item ∈ items, parts item ≠ []) :
    items.flatMap parts = [x] ↔ ∃ item, items = [item] ∧ parts item = [x] := by
  cases items with
  | nil => simp
  | cons first rest =>
    cases rest with
    | nil => simp
    | cons second rest =>
      have hfirst := List.length_pos_iff.mpr (h first (by simp))
      have hsecond := List.length_pos_iff.mpr (h second (by simp))
      constructor
      · intro hflat
        have hlength := congrArg List.length hflat
        simp only [List.flatMap_cons, List.length_append, List.length_singleton] at hlength
        omega
      · rintro ⟨item, hitems, -⟩
        simp at hitems

namespace FoldRules

variable {α : Type} {rules : FoldRules α} {blocker : Option (Blocker α)}

section Groups

variable {group : SortedMap α} {buildType : String}

theorem targets_settleGroup_ne_nil (h : group.keys ≠ []) :
    (rules.settleGroup blocker buildType group).targets ≠ [] := by
  obtain ⟨v, hv⟩ := List.exists_mem_of_ne_nil _ h
  obtain ⟨item, hitem⟩ := SortedMap.mem_keys_iff.mp hv
  have htarget : ∃ data, (rules.groupSuffix blocker buildType group v, data) ∈
      (rules.settleGroup blocker buildType group).targets :=
    exists_target_of_mem h hitem
  obtain ⟨data, htarget⟩ := htarget
  exact List.ne_nil_of_mem htarget

theorem targets_settleGroup_eq_singleton_iff (h : group.keys ≠ []) {suffix : String} :
    (∃ data, (rules.settleGroup blocker buildType group).targets = [(suffix, data)]) ↔
      (rules.settleGroup blocker buildType group).decision.targetSuffix? = some suffix := by
  have hentries : group.entries ≠ [] := by
    intro hnil
    exact h (by simp [SortedMap.keys, hnil])
  obtain ⟨⟨first, item⟩, rest, hcons⟩ := List.exists_cons_of_ne_nil hentries
  rcases settleGroup_cases rules blocker buildType h with
    ⟨v, hkeys, hsettle⟩ | ⟨hsize, reason, -, hsettle⟩ | ⟨-, -, -, hsettle⟩
  · have hv : first = v ∧ rest = [] := by simpa [SortedMap.keys, hcons] using hkeys
    obtain ⟨rfl, rfl⟩ := hv
    simp [hsettle, keepApart, hcons, Decision.targetSuffix?]
  · have hlarge : ∀ entry, (rules.settleGroup blocker buildType group).targets ≠ [entry] := by
      intro entry hsingle
      have hlength := congrArg List.length hsingle
      simp only [hsettle, keepApart, List.length_map, List.length_singleton] at hlength
      rw [SortedMap.size] at hsize
      omega
    have hnone : (rules.settleGroup blocker buildType group).decision.targetSuffix? = none := by
      rw [hsettle]
      rfl
    simp [hlarge, hnone]
  · simp [hsettle, foldTogether, hcons, Decision.targetSuffix?]

end Groups

theorem targets_merged_eq_singleton_iff {variants : SortedMap α}
    (h : rules.Uncontested blocker variants) {suffix : String} :
    (∃ data, (rules.merged blocker variants).targets.entries = [(suffix, data)]) ↔
      ∃ decision, (rules.merged blocker variants).decisions = [decision] ∧
        decision.targetSuffix? = some suffix := by
  have hentries : ∀ entry, (rules.merged blocker variants).targets.entries = [entry] ↔
      ∃ b, rules.buildTypes variants = [b] ∧
        (rules.settleGroup blocker b (rules.group variants b)).targets = [entry] := by
    intro entry
    -- Every group has a target, so there is a single target only if there is a single group.
    have hperm := SortedMap.perm_entries_ofList h.targets_nodup
    rw [merged, Outcome.joined, ← List.perm_singleton, hperm.congr_left, List.perm_singleton,
      settled, List.flatMap_map, flatMap_eq_singleton_iff]
    intro b hb
    exact targets_settleGroup_ne_nil (keys_group_ne_nil hb)
  have hdecisions : ∀ decision, (rules.merged blocker variants).decisions = [decision] ↔
      ∃ b, rules.buildTypes variants = [b] ∧
        (rules.settleGroup blocker b (rules.group variants b)).decision = decision := by
    intro decision
    simp [merged, Outcome.joined, settled, List.map_eq_singleton_iff]
  simp only [hentries, hdecisions]
  constructor
  · rintro ⟨data, b, hb, htargets⟩
    have hkeys : (rules.group variants b).keys ≠ [] := keys_group_ne_nil (by simp [hb])
    exact ⟨_, ⟨b, hb, rfl⟩, (targets_settleGroup_eq_singleton_iff hkeys).mp ⟨data, htargets⟩⟩
  · rintro ⟨_, ⟨b, hb, rfl⟩, hsuffix⟩
    have hkeys : (rules.group variants b).keys ≠ [] := keys_group_ne_nil (by simp [hb])
    obtain ⟨data, htargets⟩ := (targets_settleGroup_eq_singleton_iff hkeys).mpr hsuffix
    exact ⟨data, b, hb, htargets⟩

theorem keys_assignment_merged {variants : SortedMap α} :
    (rules.merged blocker variants).assignment.keys = variants.keys := by
  apply eq_of_pairwise_lt (SortedMap.pairwise_keys _) (SortedMap.pairwise_keys _)
  intro v
  rw [merged, SortedMap.mem_keys_iff, get?_assignment_joined, SortedMap.mem_keys_iff]
  simp [Option.map_eq_some_iff]

/-- What the only decision about a group says, where all variants belong to the group. -/
inductive ReportsGroup (rules : FoldRules α) (variants : SortedMap α) (buildType : String) :
    Decision → Prop
  | single {v : String} : variants.keys = [v] →
      ReportsGroup rules variants buildType (.single buildType v (rules.suffixOf v))
  | expanded (reason : String) :
      ReportsGroup rules variants buildType (.expanded buildType variants.keys reason)
  | folded : ReportsGroup rules variants buildType
      (.folded buildType variants.keys (rules.suffixOf buildType))

theorem reportsGroup_settleGroup {group : SortedMap α} (h : group.keys ≠ []) (buildType : String) :
    rules.ReportsGroup group buildType
      (rules.settleGroup blocker buildType group).decision := by
  rcases settleGroup_cases rules blocker buildType h with
    ⟨v, hkeys, hsettle⟩ | ⟨-, reason, -, hsettle⟩ | ⟨-, -, -, hsettle⟩
  · rw [hsettle]
    exact .single hkeys
  · rw [hsettle]
    exact .expanded reason
  · rw [hsettle]
    exact .folded

theorem exists_buildType_of_decisions_merged {variants : SortedMap α} {decision : Decision}
    (h : (rules.merged blocker variants).decisions = [decision]) :
    ∃ b, (∀ v ∈ variants.keys, rules.buildTypeOf v = b) ∧
      rules.ReportsGroup variants b decision := by
  obtain ⟨outcome, hsettled, rfl⟩ := List.map_eq_singleton_iff.mp h
  obtain ⟨b, hb, rfl⟩ := List.map_eq_singleton_iff.mp hsettled
  have hall : ∀ v ∈ variants.keys, rules.buildTypeOf v = b := by
    intro v hv
    simpa [hb] using buildTypeOf_mem_buildTypes rules hv
  -- The decision is about the group of `b`, which is the whole map.
  have hgroup : rules.group variants b = variants := by
    apply SortedMap.eq_of_get?_eq
    intro v
    rw [get?_group]
    split
    · rfl
    · next hother =>
      cases hv : variants.get? v with
      | none => rfl
      | some item => exact absurd (hall v (SortedMap.mem_keys_iff.mpr ⟨item, hv⟩)) hother
  have hkeys : (rules.group variants b).keys ≠ [] := keys_group_ne_nil (by simp [hb])
  have hreports : rules.ReportsGroup (rules.group variants b) b
      (rules.settleGroup blocker b (rules.group variants b)).decision :=
    reportsGroup_settleGroup hkeys b
  rw [hgroup] at hreports ⊢
  exact ⟨b, hall, hreports⟩

section Folds

variable {config : Option (CrossFold α)} {variants : OrderedMap α} {outcome : Outcome α}

theorem decisions_of_crosses (h : rules.fold blocker config variants = .ok outcome)
    (hcrosses : rules.crosses blocker config variants.sorted = true) :
    outcome.decisions = [.full (rules.buildTypes variants.sorted) variants.sorted.keys] := by
  obtain ⟨-, ⟨hapart, -⟩ | ⟨-, -, rfl⟩⟩ := fold_cases h
  · rw [hcrosses] at hapart
    contradiction
  · simp [Outcome.foldAcross, keys_assignment_merged, buildTypes]

theorem targets_fold_eq_singleton_iff (h : rules.fold blocker config variants = .ok outcome)
    {suffix : String} :
    (∃ data, outcome.targets.entries = [(suffix, data)]) ↔
      ∃ decision, outcome.decisions = [decision] ∧ decision.targetSuffix? = some suffix := by
  obtain ⟨huncontested, ⟨-, rfl⟩ | ⟨-, ⟨cross, -, hallows⟩, rfl⟩⟩ := fold_cases h
  · exact targets_merged_eq_singleton_iff huncontested
  · obtain ⟨old, data, rest, -, htargets⟩ :=
      Outcome.exists_entries_foldAcross rules (Outcome.allowsCross_iff.mp hallows).2.2.1
    rw [htargets]
    simp [Outcome.foldAcross, Decision.targetSuffix?]

end Folds

end FoldRules

namespace FoldingReport

variable {α : Type}

def FoldedAcross (report : FoldingReport α) : Prop :=
  ∃ buildTypes names, report.decisions = [.full buildTypes names]

/-- The report of a project with one build type whose only target has no suffix because the build
type, or the only variant, has a wordless name. -/
def NamedWordlessly (buildTypeOf : String → String) (variants : OrderedMap α)
    (report : FoldingReport α) : Prop :=
  ∃ buildType, (∀ v ∈ variants.keys, buildTypeOf v = buildType) ∧
    ((Suffix.Wordless buildType ∧
        report.decisions = [.folded buildType variants.sorted.keys ""]) ∨
      ∃ v, Suffix.Wordless v ∧ variants.keys = [v] ∧ report.decisions = [.single buildType v ""])

end FoldingReport

namespace FoldRules

variable {α : Type} {rules : FoldRules α} {blocker : Option (Blocker α)}
  {config : Option (CrossFold α)} {variants : OrderedMap α} {outcome : Outcome α}
  {report : FoldingReport α}

theorem foldedAcross_iff (h : rules.fold blocker config variants = .ok outcome)
    (hreport : outcome.report = .ok report) :
    report.FoldedAcross ↔ rules.crosses blocker config variants.sorted = true := by
  obtain ⟨-, -, -, -, hdecisions⟩ := Outcome.report_eq_ok_iff.mp hreport
  rw [FoldingReport.FoldedAcross, hdecisions]
  constructor
  · rintro ⟨buildTypes, names, hfull⟩
    obtain ⟨-, ⟨-, rfl⟩ | ⟨hcrosses, -, -⟩⟩ := fold_cases h
    · obtain ⟨b, -, hreports⟩ := exists_buildType_of_decisions_merged hfull
      cases hreports
    · exact hcrosses
  · intro hcrosses
    exact ⟨_, _, decisions_of_crosses h hcrosses⟩

/-- A folding is full exactly if all build types were folded into one target, or if a wordless name
leaves the only target of a project without a suffix. -/
theorem isFull_report_iff (hsuffix : rules.suffixOf = Suffix.ofName)
    (h : rules.fold blocker config variants = .ok outcome)
    (hreport : outcome.report = .ok report) :
    report.folding.isFull = true ↔
      report.FoldedAcross ∨ report.NamedWordlessly rules.buildTypeOf variants := by
  obtain ⟨-, htargets, -, -, hdecisions⟩ := Outcome.report_eq_ok_iff.mp hreport
  rw [Folding.isFull_iff, htargets, targets_fold_eq_singleton_iff h,
    FoldingReport.FoldedAcross, FoldingReport.NamedWordlessly, hdecisions]
  constructor
  · rintro ⟨decision, hdecision, hempty⟩
    obtain ⟨-, ⟨-, rfl⟩ | ⟨hcrosses, -, -⟩⟩ := fold_cases h
    · right
      obtain ⟨b, hall, hreports⟩ := exists_buildType_of_decisions_merged hdecision
      refine ⟨b, fun v hv => hall v (OrderedMap.mem_keys_sorted.mpr hv), ?_⟩
      cases hreports with
      | @single v hkeys =>
        have hname : rules.suffixOf v = "" := Option.some.inj hempty
        have hperm : variants.sorted.keys.Perm variants.keys := variants.perm_entries_sorted.map _
        rw [hkeys, List.singleton_perm] at hperm
        rw [hname] at hdecision
        exact Or.inr ⟨v, Suffix.ofName_eq_empty_iff.mp (hsuffix ▸ hname), hperm.symm, hdecision⟩
      | expanded reason => cases hempty
      | folded =>
        have hname : rules.suffixOf b = "" := Option.some.inj hempty
        rw [hname] at hdecision
        exact Or.inl ⟨Suffix.ofName_eq_empty_iff.mp (hsuffix ▸ hname), hdecision⟩
    · exact Or.inl ⟨_, _, decisions_of_crosses h hcrosses⟩
  · rintro (⟨_, _, hfull⟩ | ⟨_, -, ⟨-, hfolded⟩ | ⟨_, -, -, hsingle⟩⟩)
    · exact ⟨_, hfull, rfl⟩
    · exact ⟨_, hfolded, rfl⟩
    · exact ⟨_, hsingle, rfl⟩

end FoldRules

theorem FoldRules.ComparesContent.expanded_merged_eq_nil {α β : Type} {rules : FoldRules α}
    {content : α → β} (h : rules.ComparesContent content) {variants : OrderedMap α}
    (hall : ∀ x ∈ variants.entries, ∀ y ∈ variants.entries, content x.2 = content y.2) :
    (rules.merged none variants.sorted).expanded.names = [] := by
  rw [List.eq_nil_iff_forall_not_mem]
  intro b hb
  obtain ⟨hsize, hapart⟩ := FoldRules.mem_expanded_joined.mp hb
  have hsame : rules.interchangeable (rules.group variants.sorted b).values = true := by
    apply h.interchangeable_group_iff.mpr
    intro x hx y hy
    exact hall x (List.mem_filter.mp hx).1 y (List.mem_filter.mp hy).1
  simp [FoldRules.shares, FoldRules.sharesTarget, hsize, hsame] at hapart

namespace LibraryVariant

variable {options : LibraryOptions} {buildTypeOf : String → String} {states : DependencyStates}
  {variants : OrderedMap LibraryVariant} {report : FoldingReport LibraryVariant}

theorem isFull_iff (h : fold options buildTypeOf states variants = .ok report) :
    report.folding.isFull = true ↔
      report.FoldedAcross ∨ report.NamedWordlessly buildTypeOf variants := by
  obtain ⟨outcome, houtcome, hreport⟩ := fold_eq_ok_iff.mp h
  rw [foldOutcome_eq] at houtcome
  exact FoldRules.isFull_report_iff rfl houtcome hreport

theorem foldedAcross_iff (h : fold options buildTypeOf states variants = .ok report) :
    report.FoldedAcross ↔ FoldsFully options buildTypeOf states variants := by
  obtain ⟨outcome, houtcome, hreport⟩ := fold_eq_ok_iff.mp h
  rw [foldOutcome_eq] at houtcome
  have huncontested := (FoldRules.fold_cases houtcome).1
  rw [FoldRules.foldedAcross_iff houtcome hreport, crosses_eq_true_iff huncontested]

theorem foldsFully_of_isFull (h : fold options buildTypeOf states variants = .ok report)
    (hfull : report.folding.isFull = true) {v w : String} (hv : v ∈ variants.keys)
    (hw : w ∈ variants.keys) (hne : buildTypeOf v ≠ buildTypeOf w) :
    FoldsFully options buildTypeOf states variants := by
  rcases (isFull_iff h).mp hfull with hacross | ⟨buildType, hone, -⟩
  · exact (foldedAcross_iff h).mp hacross
  · exact absurd ((hone v hv).trans (hone w hw).symm) hne

end LibraryVariant

namespace UnitTestVariant

/-- The test variants of all build types share one target if that is asked for, there are several
build types and all variants are interchangeable. -/
def FoldsFully (crossBuildTypes : Bool) (buildTypeOf : String → String)
    (variants : OrderedMap UnitTestVariant) : Prop :=
  crossBuildTypes = true ∧
    (∃ b c, b ≠ c ∧ variants.membersOf buildTypeOf b ≠ [] ∧ variants.membersOf buildTypeOf c ≠ []) ∧
    ∀ x ∈ variants.entries, ∀ y ∈ variants.entries, x.2.interchangeable y.2 = true

variable {crossBuildTypes : Bool} {project : String} {buildTypeOf : String → String}
  {variants : OrderedMap UnitTestVariant} {report : FoldingReport UnitTestVariant}

theorem crosses_eq_true_iff
    (h : (foldRules project buildTypeOf).Uncontested none variants.sorted) :
    (foldRules project buildTypeOf).crosses none (some (crossFold crossBuildTypes))
        variants.sorted = true ↔ FoldsFully crossBuildTypes buildTypeOf variants := by
  have hsame : (∀ x ∈ variants.entries, ∀ y ∈ variants.entries, x.2.content = y.2.content) ↔
      ∀ x ∈ variants.entries, ∀ y ∈ variants.entries, x.2.interchangeable y.2 = true := by
    simp [interchangeable]
  rw [(comparesContent project buildTypeOf).crosses_some_iff h rfl, hsame]
  show crossBuildTypes = true ∧ _ ∧ _ ∧ none = none ∧ _ ↔ _
  constructor
  · rintro ⟨henabled, -, hseveral, -, hall⟩
    exact ⟨henabled, hseveral, hall⟩
  · rintro ⟨henabled, hseveral, hall⟩
    have hnone := (comparesContent project buildTypeOf).expanded_merged_eq_nil (hsame.mpr hall)
    exact ⟨henabled, hnone, hseveral, rfl, hall⟩

theorem isFull_iff (h : fold crossBuildTypes project buildTypeOf variants = .ok report) :
    report.folding.isFull = true ↔
      report.FoldedAcross ∨ report.NamedWordlessly buildTypeOf variants := by
  obtain ⟨outcome, houtcome, hreport⟩ := fold_eq_ok_iff.mp h
  exact FoldRules.isFull_report_iff rfl houtcome hreport

theorem foldedAcross_iff (h : fold crossBuildTypes project buildTypeOf variants = .ok report) :
    report.FoldedAcross ↔ FoldsFully crossBuildTypes buildTypeOf variants := by
  obtain ⟨outcome, houtcome, hreport⟩ := fold_eq_ok_iff.mp h
  have huncontested := (FoldRules.fold_cases houtcome).1
  rw [FoldRules.foldedAcross_iff houtcome hreport, crosses_eq_true_iff huncontested]

end UnitTestVariant

/-- In a folding of library variants and in a folding of unit test variants, full means that all
build types were folded into one target or that a wordless name leaves the only target without a
suffix. All build types are folded into one target exactly if the variants fold fully, which takes
several build types and, for library variants, dependencies that are fully folded. -/
theorem isFull_iff_decided :
    (∀ options buildTypeOf states variants report,
      LibraryVariant.fold options buildTypeOf states variants = .ok report →
        (report.folding.isFull = true ↔
          report.FoldedAcross ∨ report.NamedWordlessly buildTypeOf variants) ∧
        (report.FoldedAcross ↔
          LibraryVariant.FoldsFully options buildTypeOf states variants)) ∧
    ∀ crossBuildTypes project buildTypeOf variants report,
      UnitTestVariant.fold crossBuildTypes project buildTypeOf variants = .ok report →
        (report.folding.isFull = true ↔
          report.FoldedAcross ∨ report.NamedWordlessly buildTypeOf variants) ∧
        (report.FoldedAcross ↔
          UnitTestVariant.FoldsFully crossBuildTypes buildTypeOf variants) := by
  constructor
  · intro options buildTypeOf states variants report h
    exact ⟨LibraryVariant.isFull_iff h, LibraryVariant.foldedAcross_iff h⟩
  · intro crossBuildTypes project buildTypeOf variants report h
    exact ⟨UnitTestVariant.isFull_iff h, UnitTestVariant.foldedAcross_iff h⟩

def wordlessBuildType : OrderedMap LibraryVariant :=
  .ofList [("free", { name := "lib-free" }), ("paid", { name := "lib-paid" })]

/-- The tests of two flavors in two build types are folded across them, and the flavors of a build
type without a word share a target without a suffix though they are not. -/
theorem isFull_iff_decided_samples :
    (∃ report, LibraryVariant.fold ⟨true, true⟩ (fun _ => "_") (fun _ => .missing)
        wordlessBuildType = .ok report ∧ report.folding.isFull = true ∧ ¬ report.FoldedAcross) ∧
    ∃ report, UnitTestVariant.fold true "lib" LibraryVariant.twoFlavorsBuildType
      twoFlavorsTests = .ok report ∧ report.FoldedAcross ∧ report.folding.isFull = true := by
  constructor
  · have hok : (LibraryVariant.fold ⟨true, true⟩ (fun _ => "_") (fun _ => .missing)
        wordlessBuildType).isOk = true := by
      decide +kernel
    obtain ⟨report, h⟩ := exists_ok_of_isOk hok
    obtain ⟨hfull, hacross⟩ := isFull_iff_decided.1 _ _ _ _ report h
    have hsingle : ¬ LibraryVariant.FoldsFully ⟨true, true⟩ (fun _ => "_") (fun _ => .missing)
        wordlessBuildType := by
      rintro ⟨-, ⟨b, c, hne, hb, hc⟩, -⟩
      have hone : ∀ d, wordlessBuildType.membersOf (fun _ => "_") d ≠ [] → d = "_" := by
        intro d hd
        obtain ⟨entry, hentry⟩ := List.exists_mem_of_ne_nil _ hd
        exact (of_decide_eq_true (List.mem_filter.mp hentry).2).symm
      exact hne ((hone b hb).trans (hone c hc).symm)
    have hdecided : (LibraryVariant.fold ⟨true, true⟩ (fun _ => "_") (fun _ => .missing)
        wordlessBuildType).map (·.decisions) = .ok [.folded "_" ["free", "paid"] ""] := by
      decide +kernel
    rw [h] at hdecided
    refine ⟨report, h, hfull.mpr (Or.inr ⟨"_", fun _ _ => rfl, Or.inl ⟨by decide, ?_⟩⟩),
      fun hdone => hsingle (hacross.mp hdone)⟩
    exact Except.ok.inj hdecided
  · have hok : (UnitTestVariant.fold true "lib" LibraryVariant.twoFlavorsBuildType
        twoFlavorsTests).isOk = true := by
      decide +kernel
    obtain ⟨report, h⟩ := exists_ok_of_isOk hok
    obtain ⟨hfull, hacross⟩ := isFull_iff_decided.2 _ _ _ _ report h
    have hall : UnitTestVariant.FoldsFully true LibraryVariant.twoFlavorsBuildType
        twoFlavorsTests := by
      refine ⟨rfl, ⟨"debug", "release", by decide, ?_, ?_⟩, ?_⟩
      all_goals decide +kernel
    exact ⟨report, h, hacross.mpr hall, hfull.mpr (Or.inl (hacross.mpr hall))⟩

/-- A full folding need not come from folding across build types. -/
theorem isFull_of_wordless_buildType :
    ∃ report, LibraryVariant.fold ⟨true, true⟩ (fun _ => "_") (fun _ => .untracked)
        wordlessBuildType = .ok report ∧
      report.decisions = [.folded "_" ["free", "paid"] ""] ∧
      ¬ (report.folding.isFull = true ↔
        ∃ buildTypes names, report.decisions = [.full buildTypes names]) := by
  have hanswer : ∃ report, LibraryVariant.fold ⟨true, true⟩ (fun _ => "_") (fun _ => .untracked)
      wordlessBuildType = .ok report := by
    apply exists_ok_of_isOk
    decide +kernel
  obtain ⟨report, h⟩ := hanswer
  have hparts : (LibraryVariant.fold ⟨true, true⟩ (fun _ => "_") (fun _ => .untracked)
      wordlessBuildType).map (fun report => (report.decisions, report.folding.isFull)) =
        .ok ([.folded "_" ["free", "paid"] ""], true) := by
    decide +kernel
  rw [h] at hparts
  obtain ⟨hdecisions, hfull⟩ := Prod.mk.inj (Except.ok.inj hparts)
  refine ⟨report, h, hdecisions, ?_⟩
  rw [hdecisions, hfull]
  simp

end BuildVariants
