import BuildVariants.Folding.UnitTest
import BuildVariants.Proofs.Folding.Library

/-!
Targets stand in for their variants. Whatever folding does to library variants or to unit test
variants, the target of a variant is interchangeable with the data of the variant, and it holds the
data of a variant with the same target, of which only the name may have changed.
-/

set_option autoImplicit false
set_option relaxedAutoImplicit false

namespace BuildVariants

/-- Every variant has a target that is interchangeable with its data and that agrees with the data
of a variant of the same target up to the name. -/
def Folding.StandsIn {α : Type} (rules : FoldRules α) (interchangeable : α → α → Bool)
    (variants : OrderedMap α) (folding : Folding α) : Prop :=
  ∀ variant data, variants.get? variant = some data → ∃ suffix target,
    folding.assignment.get? variant = some suffix ∧ folding.targets.get? suffix = some target ∧
      interchangeable target data = true ∧ ∃ other source, variants.get? other = some source ∧
        folding.assignment.get? other = some suffix ∧
        target = rules.rename source (rules.nameOf target)

theorem UnitTestVariant.comparesContent (project : String) (buildTypeOf : String → String) :
    (UnitTestVariant.foldRules project buildTypeOf).ComparesContent UnitTestVariant.content where
  interchangeable_iff := allAgreeWithFirst_iff UnitTestVariant.content
  content_rename := fun _ _ => rfl
  nameOf_rename := fun _ _ => rfl
  rename_nameOf := fun _ => rfl
  rename_rename := fun _ _ _ => rfl

theorem UnitTestVariant.fold_eq_ok_iff {crossBuildTypes : Bool} {project : String}
    {buildTypeOf : String → String} {variants : OrderedMap UnitTestVariant}
    {report : FoldingReport UnitTestVariant} :
    UnitTestVariant.fold crossBuildTypes project buildTypeOf variants = .ok report ↔
      ∃ outcome, UnitTestVariant.foldOutcome crossBuildTypes project buildTypeOf variants =
        .ok outcome ∧ outcome.report = .ok report := by
  rw [UnitTestVariant.fold]
  cases UnitTestVariant.foldOutcome crossBuildTypes project buildTypeOf variants with
  | error collision => simp
  | ok outcome => simp

theorem FoldRules.ComparesContent.standsIn {α β : Type} [DecidableEq β] {rules : FoldRules α}
    {content : α → β} (h : rules.ComparesContent content) {blocker : Option (Blocker α)}
    {cross : CrossFold α} (hcross : cross.interchangeable = rules.interchangeable)
    {variants : OrderedMap α} {outcome : Outcome α} {report : FoldingReport α}
    (hfold : rules.fold blocker (some cross) variants = .ok outcome)
    (hreport : outcome.report = .ok report) :
    report.folding.StandsIn rules (fun a b => content a = content b) variants := by
  obtain ⟨-, htargets, hassignment, -, -⟩ := Outcome.report_eq_ok_iff.mp hreport
  intro variant data hdata
  rw [htargets, hassignment]
  obtain ⟨suffix, target, hsuffix, htarget, hcontent, hsource⟩ :=
    h.exists_standIn hcross hfold hdata
  exact ⟨suffix, target, hsuffix, htarget, decide_eq_true hcontent, hsource⟩

/-- In a folding of library variants and in a folding of unit test variants, the target of a variant
is interchangeable with the data of the variant, and but for its name it is the data of a variant of
the project with the same target. -/
theorem targets_stand_in :
    (∀ options buildTypeOf states variants report,
      LibraryVariant.fold options buildTypeOf states variants = .ok report →
        report.folding.StandsIn (LibraryVariant.foldRules buildTypeOf)
          LibraryVariant.interchangeable variants) ∧
    ∀ crossBuildTypes project buildTypeOf variants report,
      UnitTestVariant.fold crossBuildTypes project buildTypeOf variants = .ok report →
        report.folding.StandsIn (UnitTestVariant.foldRules project buildTypeOf)
          UnitTestVariant.interchangeable variants := by
  constructor
  · intro options buildTypeOf states variants report h
    obtain ⟨outcome, houtcome, hreport⟩ := LibraryVariant.fold_eq_ok_iff.mp h
    rw [LibraryVariant.foldOutcome_eq] at houtcome
    exact (LibraryVariant.comparesContent buildTypeOf).standsIn rfl houtcome hreport
  · intro crossBuildTypes project buildTypeOf variants report h
    obtain ⟨outcome, houtcome, hreport⟩ := UnitTestVariant.fold_eq_ok_iff.mp h
    exact (UnitTestVariant.comparesContent project buildTypeOf).standsIn rfl houtcome hreport

/-- Tests of two flavors in two build types, which differ in their names and associates only. -/
def twoFlavorsTests : OrderedMap UnitTestVariant :=
  .ofList [
    ("freeDebug", { name := "lib-free-debug-test", associates := ["lib-free-debug"] }),
    ("paidDebug", { name := "lib-paid-debug-test", associates := ["lib-paid-debug"] }),
    ("freeRelease", { name := "lib-free-release-test" }),
    ("paidRelease", { name := "lib-paid-release-test" })]

/-- The target of the paid release variant stands in for it: a library target of its build type, and
a test target of both build types, which has no suffix. -/
theorem targets_stand_in_two_flavors :
    (∃ report, LibraryVariant.fold ⟨true, true⟩ LibraryVariant.twoFlavorsBuildType
        (fun _ => .missing) LibraryVariant.twoFlavors = .ok report ∧
      report.folding.assignment.get? "paidRelease" = some "-release" ∧
      ∃ target, report.folding.targets.get? "-release" = some target ∧
        target.interchangeable { name := "lib-paid-release" } = true) ∧
    ∃ report, UnitTestVariant.fold true "lib" LibraryVariant.twoFlavorsBuildType
        twoFlavorsTests = .ok report ∧
      report.folding.assignment.get? "paidRelease" = some "" ∧
      ∃ target, report.folding.targets.get? "" = some target ∧
        target.interchangeable { name := "lib-paid-release-test" } = true := by
  constructor
  · have hassigned : (LibraryVariant.fold ⟨true, true⟩ LibraryVariant.twoFlavorsBuildType
        (fun _ => .missing) LibraryVariant.twoFlavors).map
          (·.folding.assignment.get? "paidRelease") = .ok (some "-release") := by
      decide +kernel
    obtain ⟨report, h, hrelease⟩ := map_eq_ok_iff.mp hassigned
    obtain ⟨suffix, target, hsuffix, htarget, hsame, -⟩ :=
      targets_stand_in.1 _ _ _ _ report h "paidRelease" { name := "lib-paid-release" } (by rfl)
    obtain rfl := Option.some.inj (hrelease.symm.trans hsuffix)
    exact ⟨report, h, hsuffix, target, htarget, hsame⟩
  · have hassigned : (UnitTestVariant.fold true "lib" LibraryVariant.twoFlavorsBuildType
        twoFlavorsTests).map (·.folding.assignment.get? "paidRelease") = .ok (some "") := by
      decide +kernel
    obtain ⟨report, h, hrelease⟩ := map_eq_ok_iff.mp hassigned
    obtain ⟨suffix, target, hsuffix, htarget, hsame, -⟩ :=
      targets_stand_in.2 _ _ _ _ report h "paidRelease" { name := "lib-paid-release-test" } (by rfl)
    obtain rfl := Option.some.inj (hrelease.symm.trans hsuffix)
    exact ⟨report, h, hsuffix, target, htarget, hsame⟩

end BuildVariants
