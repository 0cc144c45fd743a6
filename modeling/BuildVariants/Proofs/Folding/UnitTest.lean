import BuildVariants.Proofs.Folding.CarriedSuffix
import BuildVariants.Proofs.Folding.TargetNames

/-!
What folding unit test variants does, said of the variants alone. The variants of a build type fold
together if there are several and all are interchangeable, and those of a project fold fully if they
are interchangeable across build types. The target of folded variants is named as a test of the
project, and any other target is a record as it was given. The two ways to name targets meet where a
record that was kept has the name that a folded target gets. Names, associates and the suffixes of
dependencies do not matter to what is folded.
-/

set_option autoImplicit false
set_option relaxedAutoImplicit false

namespace BuildVariants.UnitTestVariant

section Specification

variable (crossBuildTypes : Bool) (buildTypeOf : String → String)
  (variants : OrderedMap UnitTestVariant)

def FoldsTogether (buildType : String) : Prop :=
  2 ≤ (variants.membersOf buildTypeOf buildType).length ∧
    ∀ x ∈ variants.membersOf buildTypeOf buildType,
      ∀ y ∈ variants.membersOf buildTypeOf buildType, x.2.interchangeable y.2 = true

def StaysExpanded (buildType : String) : Prop :=
  2 ≤ (variants.membersOf buildTypeOf buildType).length ∧
    ∃ x ∈ variants.membersOf buildTypeOf buildType,
      ∃ y ∈ variants.membersOf buildTypeOf buildType, x.2.interchangeable y.2 = false

/-- The target with a suffix stands for the whole project, or for a build type whose variants fold
together. -/
def StandsForSeveral (suffix : String) : Prop :=
  (FoldsFully crossBuildTypes buildTypeOf variants ∧ suffix = "") ∨
    (¬ FoldsFully crossBuildTypes buildTypeOf variants ∧
      ∃ b, FoldsTogether buildTypeOf variants b ∧ Suffix.ofName b = suffix)

/-- A variant takes the name of the target of a build type if the build type is folded, the variant
is not, and the suffix of the variant is that of the build type with the ending of a test. -/
structure TakesName (v b : String) : Prop where
  partially : ¬ FoldsFully crossBuildTypes buildTypeOf variants
  folded : FoldsTogether buildTypeOf variants b
  mem_keys : v ∈ variants.keys
  kept : ¬ FoldsTogether buildTypeOf variants (buildTypeOf v)
  suffix_eq : Suffix.ofName v = Suffix.ofName b ++ "-test"

end Specification

variable {crossBuildTypes : Bool} {project : String} {buildTypeOf : String → String}
  {variants : OrderedMap UnitTestVariant}

theorem shares_eq_true_iff {buildType : String} :
    (foldRules project buildTypeOf).shares none variants.sorted buildType = true ↔
      FoldsTogether buildTypeOf variants buildType := by
  have hsize : ((foldRules project buildTypeOf).group variants.sorted buildType).size =
      (variants.membersOf buildTypeOf buildType).length :=
    FoldRules.size_group variants
  have hsame : (foldRules project buildTypeOf).interchangeable
      ((foldRules project buildTypeOf).group variants.sorted buildType).values = true ↔
        ∀ x ∈ variants.membersOf buildTypeOf buildType,
          ∀ y ∈ variants.membersOf buildTypeOf buildType, x.2.interchangeable y.2 = true := by
    simp only [interchangeable_iff]
    exact (comparesContent project buildTypeOf).interchangeable_group_iff
  simp only [FoldRules.shares, FoldRules.sharesTarget, Option.bind_none, Option.isNone_none,
    Bool.and_true, Bool.and_eq_true, decide_eq_true_eq, hsize, hsame]
  rfl

theorem staysExpanded_iff {buildType : String} :
    StaysExpanded buildTypeOf variants buildType ↔
      2 ≤ (variants.membersOf buildTypeOf buildType).length ∧
        ¬ FoldsTogether buildTypeOf variants buildType := by
  rw [StaysExpanded, FoldsTogether]
  refine and_congr_right fun hlarge => ?_
  simp only [hlarge, true_and, not_forall, Bool.not_eq_true, exists_prop]

theorem standsForSeveral_iff
    (h : (foldRules project buildTypeOf).Uncontested none variants.sorted) {suffix : String} :
    (foldRules project buildTypeOf).FoldsInto none (some (crossFold crossBuildTypes))
        variants.sorted suffix ↔
      StandsForSeveral crossBuildTypes buildTypeOf variants suffix := by
  rw [FoldRules.FoldsInto, StandsForSeveral, ← Bool.not_eq_true, crosses_eq_true_iff h]
  simp only [shares_eq_true_iff]
  rfl

section Folds

variable {report : FoldingReport UnitTestVariant}

theorem exists_outcome_of_fold
    (h : fold crossBuildTypes project buildTypeOf variants = .ok report) :
    ∃ outcome, foldOutcome crossBuildTypes project buildTypeOf variants = .ok outcome ∧
      (foldRules project buildTypeOf).Uncontested none variants.sorted ∧
      report.folding.targets = outcome.targets ∧
      report.folding.assignment = outcome.assignment ∧
      report.folding.expanded = outcome.expanded := by
  obtain ⟨outcome, houtcome, hreport⟩ := fold_eq_ok_iff.mp h
  obtain ⟨-, htargets, hassignment, hexpanded, -⟩ := Outcome.report_eq_ok_iff.mp hreport
  have huncontested := (FoldRules.fold_cases houtcome).1
  exact ⟨outcome, houtcome, huncontested, htargets, hassignment, hexpanded⟩

theorem mem_expanded_iff (h : fold crossBuildTypes project buildTypeOf variants = .ok report)
    (buildType : String) :
    buildType ∈ report.folding.expanded.names ↔
      StaysExpanded buildTypeOf variants buildType := by
  obtain ⟨outcome, houtcome, -, -, -, hexpanded⟩ := exists_outcome_of_fold h
  rw [hexpanded, FoldRules.mem_expanded_fold houtcome, FoldRules.size_group, ← Bool.not_eq_true,
    shares_eq_true_iff, staysExpanded_iff]
  rfl

/-- A target that stands for several variants is named as a test of the project. Any other target is
the record of the only variant with its suffix. -/
theorem target_cases (h : fold crossBuildTypes project buildTypeOf variants = .ok report)
    {suffix : String} {data : UnitTestVariant}
    (htarget : report.folding.targets.get? suffix = some data) :
    (StandsForSeveral crossBuildTypes buildTypeOf variants suffix ∧
        data.name = Suffix.testTargetName project suffix) ∨
      (¬ StandsForSeveral crossBuildTypes buildTypeOf variants suffix ∧
        ∃ v, variants.get? v = some data ∧ Suffix.ofName v = suffix ∧
          ∀ w, report.folding.assignment.get? w = some suffix ↔ w = v) := by
  obtain ⟨outcome, houtcome, huncontested, htargets, hassignment, -⟩ := exists_outcome_of_fold h
  rw [htargets] at htarget
  rw [hassignment, ← standsForSeveral_iff huncontested]
  rcases FoldRules.target_fold_cases houtcome htarget with ⟨hseveral, item, old, rfl⟩ | hkept
  · exact Or.inl ⟨hseveral, rfl⟩
  · exact Or.inr hkept

theorem exists_target_of_standsForSeveral
    (h : fold crossBuildTypes project buildTypeOf variants = .ok report) {suffix : String}
    (hseveral : StandsForSeveral crossBuildTypes buildTypeOf variants suffix) :
    ∃ data, report.folding.targets.get? suffix = some data ∧
      data.name = Suffix.testTargetName project suffix := by
  obtain ⟨outcome, houtcome, huncontested, htargets, -⟩ := exists_outcome_of_fold h
  obtain ⟨data, hdata⟩ := FoldRules.exists_target_of_foldsInto houtcome
    ((standsForSeveral_iff huncontested).mpr hseveral)
  rw [← htargets] at hdata
  rcases target_cases h hdata with ⟨-, hname⟩ | ⟨halone, -⟩
  · exact ⟨data, hdata, hname⟩
  · exact absurd hseveral halone

theorem get?_targets_of_kept (h : fold crossBuildTypes project buildTypeOf variants = .ok report)
    (hpartial : ¬ FoldsFully crossBuildTypes buildTypeOf variants) {v : String}
    {data : UnitTestVariant} (hv : variants.get? v = some data)
    (hkept : ¬ FoldsTogether buildTypeOf variants (buildTypeOf v)) :
    report.folding.targets.get? (Suffix.ofName v) = some data := by
  obtain ⟨outcome, houtcome, huncontested, htargets, -⟩ := exists_outcome_of_fold h
  rw [← crosses_eq_true_iff huncontested, Bool.not_eq_true] at hpartial
  have hshares : (foldRules project buildTypeOf).shares none variants.sorted (buildTypeOf v) =
      false := by
    rw [← Bool.not_eq_true, shares_eq_true_iff]
    exact hkept
  rw [htargets]
  exact FoldRules.get?_targets_of_kept houtcome hpartial hv hshares

theorem kept_of_not_standsForSeveral
    (h : fold crossBuildTypes project buildTypeOf variants = .ok report) {v suffix : String}
    (hassigned : report.folding.assignment.get? v = some suffix)
    (halone : ¬ StandsForSeveral crossBuildTypes buildTypeOf variants suffix) :
    ¬ FoldsFully crossBuildTypes buildTypeOf variants ∧
      ¬ FoldsTogether buildTypeOf variants (buildTypeOf v) := by
  obtain ⟨outcome, houtcome, huncontested, -, hassignment, -⟩ := exists_outcome_of_fold h
  rw [hassignment, FoldRules.get?_assignment_fold houtcome, Option.map_eq_some_iff] at hassigned
  obtain ⟨-, -, hsuffix⟩ := hassigned
  have hpartial : ¬ FoldsFully crossBuildTypes buildTypeOf variants := by
    intro hfull
    rw [if_pos ((crosses_eq_true_iff huncontested).mpr hfull)] at hsuffix
    exact halone (Or.inl ⟨hfull, hsuffix.symm⟩)
  refine ⟨hpartial, fun htogether => halone (Or.inr ⟨hpartial, _, htogether, ?_⟩)⟩
  have hshares : (foldRules project buildTypeOf).shares none variants.sorted (buildTypeOf v) =
      true := shares_eq_true_iff.mpr htogether
  rw [if_neg (mt (crosses_eq_true_iff huncontested).mp hpartial), FoldRules.suffixIn_eq] at hsuffix
  exact (if_pos hshares).symm.trans hsuffix

theorem name_of_standsForSeveral
    (h : fold crossBuildTypes project buildTypeOf variants = .ok report) {suffix : String}
    {data : UnitTestVariant} (htarget : report.folding.targets.get? suffix = some data)
    (hseveral : StandsForSeveral crossBuildTypes buildTypeOf variants suffix) :
    data.name = Suffix.testTargetName project suffix := by
  obtain ⟨other, hother, hname⟩ := exists_target_of_standsForSeveral h hseveral
  rw [htarget] at hother
  rw [Option.some.inj hother]
  exact hname

section Names

variable (h : fold crossBuildTypes project buildTypeOf variants = .ok report)
  (hnamed : ∀ v data, variants.get? v = some data → data.name = project ++ Suffix.ofName v)
include h hnamed

theorem name_of_not_standsForSeveral {suffix : String} {data : UnitTestVariant}
    (htarget : report.folding.targets.get? suffix = some data)
    (halone : ¬ StandsForSeveral crossBuildTypes buildTypeOf variants suffix) :
    data.name = project ++ suffix := by
  rcases target_cases h htarget with ⟨hseveral, -⟩ | ⟨-, v, hv, rfl, -⟩
  · exact absurd hseveral halone
  · exact hnamed v data hv

theorem exists_takesName {s t : String} {x y : UnitTestVariant}
    (hx : report.folding.targets.get? s = some x) (hy : report.folding.targets.get? t = some y)
    (hs : StandsForSeveral crossBuildTypes buildTypeOf variants s)
    (ht : ¬ StandsForSeveral crossBuildTypes buildTypeOf variants t) (hname : x.name = y.name) :
    ∃ v b, TakesName crossBuildTypes buildTypeOf variants v b := by
  rw [name_of_standsForSeveral h hx hs, name_of_not_standsForSeveral h hnamed hy ht,
    Suffix.testTargetName, String.append_assoc, String.append_right_inj] at hname
  rcases target_cases h hy with ⟨hseveral, -⟩ | ⟨-, v, hv, rfl, hassigned⟩
  · exact absurd hseveral ht
  · obtain ⟨hpartial, hkept⟩ := kept_of_not_standsForSeveral h ((hassigned v).mpr rfl) ht
    rcases hs with ⟨hfull, -⟩ | ⟨-, b, hb, rfl⟩
    · exact absurd hfull hpartial
    · exact ⟨v, b, hpartial, hb, OrderedMap.mem_keys_iff.mpr ⟨y, hv⟩, hkept, hname.symm⟩

theorem TakesName.exists_same_name {v b : String}
    (htakes : TakesName crossBuildTypes buildTypeOf variants v b) :
    ∃ x y, report.folding.targets.get? (Suffix.ofName b) = some x ∧
      report.folding.targets.get? (Suffix.ofName v) = some y ∧ x.name = y.name := by
  obtain ⟨y, hv⟩ := OrderedMap.mem_keys_iff.mp htakes.mem_keys
  have hy := get?_targets_of_kept h htakes.partially hv htakes.kept
  have hseveral : StandsForSeveral crossBuildTypes buildTypeOf variants (Suffix.ofName b) :=
    Or.inr ⟨htakes.partially, b, htakes.folded, rfl⟩
  obtain ⟨x, hx, hname⟩ := exists_target_of_standsForSeveral h hseveral
  refine ⟨x, y, hx, hy, ?_⟩
  rw [hname, hnamed v y hv, htakes.suffix_eq, Suffix.testTargetName, String.append_assoc]

end Names

/-- Where test variants are named after their project and suffix, different targets have different
names exactly if no variant takes the name of the target of a build type. -/
theorem names_differ_iff (h : fold crossBuildTypes project buildTypeOf variants = .ok report)
    (hnamed : ∀ v data, variants.get? v = some data → data.name = project ++ Suffix.ofName v) :
    NamesDiffer name report.folding.targets ↔
      ∀ v b, ¬ TakesName crossBuildTypes buildTypeOf variants v b := by
  constructor
  · intro hdiffer v b htakes
    obtain ⟨x, y, hx, hy, hname⟩ := htakes.exists_same_name h hnamed
    have hsuffixes : Suffix.ofName b ≠ Suffix.ofName v := by
      intro hsame
      have hlength := congrArg String.length (hsame.trans htakes.suffix_eq)
      rw [String.length_append] at hlength
      have htest : "-test".length = 5 := by decide
      omega
    exact hdiffer _ _ x y hx hy hsuffixes hname
  · intro hfree s t x y hx hy hne hname
    by_cases hs : StandsForSeveral crossBuildTypes buildTypeOf variants s
    · by_cases ht : StandsForSeveral crossBuildTypes buildTypeOf variants t
      · rw [name_of_standsForSeveral h hx hs, name_of_standsForSeveral h hy ht] at hname
        simp only [Suffix.testTargetName, String.append_left_inj, String.append_right_inj] at hname
        exact hne hname
      · obtain ⟨v, b, htakes⟩ := exists_takesName h hnamed hx hy hs ht hname
        exact hfree v b htakes
    · by_cases ht : StandsForSeveral crossBuildTypes buildTypeOf variants t
      · obtain ⟨v, b, htakes⟩ := exists_takesName h hnamed hy hx ht hs hname.symm
        exact hfree v b htakes
      · rw [name_of_not_standsForSeveral h hnamed hx hs,
          name_of_not_standsForSeveral h hnamed hy ht, String.append_right_inj] at hname
        exact hne hname

end Folds

/-- Tests of two debug flavors, which fold, and of one more variant, which does not. They are named
after their project and suffixes. -/
def flavorsBeside (other : String) : OrderedMap UnitTestVariant :=
  .ofList [
    ("freeDebug", { name := "lib-free-debug" }),
    ("paidDebug", { name := "lib-paid-debug" }),
    (other, { name := "lib" ++ Suffix.ofName other, testSize := .large })]

def flavorsBesideBuildType (variant : String) : String :=
  if variant = "freeDebug" ∨ variant = "paidDebug" then "debug" else variant

/-- The targets of the debug tests and of the release tests have different names. -/
theorem names_differ_beside_release :
    ∃ report, fold true "lib" flavorsBesideBuildType (flavorsBeside "release") = .ok report ∧
      report.folding.suffixes = ["-debug", "-release"] ∧
      NamesDiffer name report.folding.targets := by
  have hsuffixes : (fold true "lib" flavorsBesideBuildType (flavorsBeside "release")).map
      (·.folding.suffixes) = .ok ["-debug", "-release"] := by
    decide +kernel
  obtain ⟨report, h, hreport⟩ := map_eq_ok_iff.mp hsuffixes
  have hnamed : ∀ v data, (flavorsBeside "release").get? v = some data →
      data.name = "lib" ++ Suffix.ofName v :=
    OrderedMap.forall_get?_iff.mpr (by decide +kernel)
  have hending : ∀ v ∈ (flavorsBeside "release").keys,
      ¬ "-test".toList <:+ (Suffix.ofName v).toList := by
    decide +kernel
  refine ⟨report, h, hreport, (names_differ_iff h hnamed).mpr ?_⟩
  intro v b htakes
  apply hending v htakes.mem_keys
  rw [htakes.suffix_eq, String.toList_append]
  exact List.suffix_append _ _

/-- The record of a variant `debugTest` has the name that the target of the debug tests gets. -/
theorem same_name_beside_debugTest :
    (∀ v data, (flavorsBeside "debugTest").get? v = some data →
        data.name = "lib" ++ Suffix.ofName v) ∧
      ∃ report, fold true "lib" flavorsBesideBuildType (flavorsBeside "debugTest") = .ok report ∧
        ¬ NamesDiffer name report.folding.targets := by
  refine ⟨OrderedMap.forall_get?_iff.mpr (by decide +kernel), ?_⟩
  have htargets : (fold true "lib" flavorsBesideBuildType (flavorsBeside "debugTest")).map
      (fun report =>
        (report.folding.targets.get? "-debug", report.folding.targets.get? "-debug-test")) =
          .ok (some { name := "lib-debug-test" },
            some { name := "lib-debug-test", testSize := .large }) := by
    decide +kernel
  obtain ⟨report, h, hreport⟩ := map_eq_ok_iff.mp htargets
  obtain ⟨hdebug, hdebugTest⟩ := Prod.mk.inj hreport
  refine ⟨report, h, fun hdiffer => ?_⟩
  exact hdiffer "-debug" "-debug-test" _ _ hdebug hdebugTest (by decide) rfl

section Rewritten

/-- Records of the same test. They may differ in their names and associates and in the suffixes that
their project dependencies carry. -/
structure SameTest (x y : UnitTestVariant) : Prop where
  fields : { x with name := "", deps := [], associates := [] } =
    { y with name := "", deps := [], associates := [] }
  deps : List.Forall₂ Dependency.RefersAlike x.deps y.deps

theorem SameTest.content_eq {x y : UnitTestVariant} (h : x.SameTest y) : x.content = y.content := by
  rw [content, content, h.fields, References.ofDependencies_congr h.deps]

theorem respects_sameTest (project : String) (buildTypeOf : String → String) :
    (foldRules project buildTypeOf).Respects SameTest where
  moveTarget := fun _ _ h _ _ => ⟨h.fields, h.deps⟩
  interchangeable := by
    intro xs ys h
    apply allAgreeWithFirst_congr _ h
    intro x x' y y' hx hy
    rw [interchangeable, interchangeable, hx.content_eq, hy.content_eq]

theorem fold_sameTest {rewritten : OrderedMap UnitTestVariant}
    (h : SameKeys SameTest variants.entries rewritten.entries) :
    AnswersAlike (FoldingReport.Matches SameTest)
      (fold crossBuildTypes project buildTypeOf variants)
      (fold crossBuildTypes project buildTypeOf rewritten) := by
  have houtcome : AnswersAlike (Outcome.Matches SameTest)
      (foldOutcome crossBuildTypes project buildTypeOf variants)
      (foldOutcome crossBuildTypes project buildTypeOf rewritten) :=
    (respects_sameTest project buildTypeOf).fold (fun _ _ _ _ => rfl) rfl h
  rw [fold, fold]
  generalize foldOutcome crossBuildTypes project buildTypeOf variants = first at houtcome
  generalize foldOutcome crossBuildTypes project buildTypeOf rewritten = second at houtcome
  cases houtcome with
  | failed collision => exact .failed collision.fault
  | done houtcomes => exact houtcomes.report

end Rewritten

/-- The test variants alone determine what folding does to them. A build type is expanded exactly if
it stays expanded, and the decision is to fold all build types into one target exactly if the
variants fold fully. What is folded has a target that is named as a test of the project, and any
other target is the record of its only variant. Names, associates and the suffixes that
dependencies carry may be rewritten, which changes nothing but these data in the targets. -/
theorem fold_characterization :
    (∀ crossBuildTypes project buildTypeOf variants report,
      fold crossBuildTypes project buildTypeOf variants = .ok report →
        (∀ b, b ∈ report.folding.expanded.names ↔ StaysExpanded buildTypeOf variants b) ∧
        (report.FoldedAcross ↔ FoldsFully crossBuildTypes buildTypeOf variants) ∧
        (∀ suffix, StandsForSeveral crossBuildTypes buildTypeOf variants suffix →
          ∃ data, report.folding.targets.get? suffix = some data ∧
            data.name = Suffix.testTargetName project suffix) ∧
        ∀ suffix data, report.folding.targets.get? suffix = some data →
          ¬ StandsForSeveral crossBuildTypes buildTypeOf variants suffix →
            ∃ v, variants.get? v = some data ∧
              ∀ w, report.folding.assignment.get? w = some suffix ↔ w = v) ∧
    ∀ crossBuildTypes project buildTypeOf (variants rewritten : OrderedMap UnitTestVariant),
      SameKeys SameTest variants.entries rewritten.entries →
        AnswersAlike (FoldingReport.Matches SameTest)
          (fold crossBuildTypes project buildTypeOf variants)
          (fold crossBuildTypes project buildTypeOf rewritten) := by
  constructor
  · intro crossBuildTypes project buildTypeOf variants report h
    refine ⟨mem_expanded_iff h, foldedAcross_iff h, ?_, ?_⟩
    · intro suffix hseveral
      exact exists_target_of_standsForSeveral h hseveral
    · intro suffix data htarget halone
      rcases target_cases h htarget with ⟨hseveral, -⟩ | ⟨-, v, hv, -, hassigned⟩
      · exact absurd hseveral halone
      · exact ⟨v, hv, hassigned⟩
  · intro crossBuildTypes project buildTypeOf variants rewritten h
    exact fold_sameTest h

/-- Tests of two flavors in two build types. Those of the debug build type differ in what may be
rewritten, and those of the release build type also differ in their size. -/
def mixedTests (rewrite : String → String) : OrderedMap UnitTestVariant :=
  .ofList [
    ("freeDebug", {
      name := rewrite "lib-free-debug"
      deps := [.project ":util" (rewrite "-free-debug")]
      associates := [rewrite "lib-free-debug"] }),
    ("paidDebug", {
      name := rewrite "lib-paid-debug"
      deps := [.project ":util" (rewrite "-paid-debug")]
      associates := [rewrite "lib-paid-debug"] }),
    ("freeRelease", { name := rewrite "lib-free-release" }),
    ("paidRelease", { name := rewrite "lib-paid-release", testSize := .large })]

/-- The debug tests fold into a target of their own name and the release tests stay expanded, also
once names, associates and suffixes are gone. -/
theorem fold_characterization_mixed :
    ∃ report other,
      fold true "lib" LibraryVariant.twoFlavorsBuildType (mixedTests id) = .ok report ∧
      fold true "lib" LibraryVariant.twoFlavorsBuildType (mixedTests fun _ => "") = .ok other ∧
      FoldingReport.Matches SameTest report other ∧ "release" ∈ report.folding.expanded.names ∧
      ∃ data, report.folding.targets.get? "-debug" = some data ∧ data.name = "lib-debug-test" := by
  have hsame : SameKeys SameTest (mixedTests id).entries (mixedTests fun _ => "").entries :=
    .cons ⟨rfl, rfl, .cons (.project ..) .nil⟩
      (.cons ⟨rfl, rfl, .cons (.project ..) .nil⟩
        (.cons ⟨rfl, rfl, .nil⟩ (.cons ⟨rfl, rfl, .nil⟩ .nil)))
  have hdebug : FoldsTogether LibraryVariant.twoFlavorsBuildType (mixedTests id) "debug" := by
    constructor
    all_goals decide +kernel
  have hrelease : StaysExpanded LibraryVariant.twoFlavorsBuildType (mixedTests id) "release" := by
    refine ⟨by decide +kernel, ("freeRelease", { name := "lib-free-release" }), ?_,
      ("paidRelease", { name := "lib-paid-release", testSize := .large }), ?_, ?_⟩
    all_goals decide +kernel
  have hok : (fold true "lib" LibraryVariant.twoFlavorsBuildType (mixedTests id)).isOk = true := by
    decide +kernel
  obtain ⟨report, h⟩ := exists_ok_of_isOk hok
  obtain ⟨hexpanded, -, htargets, -⟩ := fold_characterization.1 _ _ _ _ report h
  have hpartial : ¬ FoldsFully true LibraryVariant.twoFlavorsBuildType (mixedTests id) := by
    rintro ⟨-, -, hall⟩
    revert hall
    decide +kernel
  have halike := fold_characterization.2 true "lib" LibraryVariant.twoFlavorsBuildType _ _ hsame
  rw [h] at halike
  generalize fold true "lib" LibraryVariant.twoFlavorsBuildType (mixedTests fun _ => "") = answer
    at halike ⊢
  cases halike with
  | @done _ other hmatches =>
    refine ⟨report, other, h, rfl, hmatches, (hexpanded "release").mpr hrelease, ?_⟩
    exact htargets "-debug" (Or.inr ⟨hpartial, "debug", hdebug, by decide +kernel⟩)

end BuildVariants.UnitTestVariant
