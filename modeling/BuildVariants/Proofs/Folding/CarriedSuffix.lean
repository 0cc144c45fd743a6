import BuildVariants.Proofs.Folding.Correspondence
import BuildVariants.Proofs.Folding.References
import Mathlib.Logic.Relator

/-!
The suffixes that dependencies carry. Records are compared by what their dependencies refer to, so
the suffixes in the dependencies of the variants do not matter to folding. The checks of a lint
configuration are dependencies too, but lint configurations are compared as they are: a suffix there
matters where it makes a difference between two variants.
-/

set_option autoImplicit false
set_option relaxedAutoImplicit false

namespace BuildVariants

theorem Dependency.RefersAlike.projectPath?_eq {d e : Dependency} (h : d.RefersAlike e) :
    d.projectPath? = e.projectPath? := by
  cases h <;> rfl

theorem Dependency.RefersAlike.coordinate?_eq {d e : Dependency} (h : d.RefersAlike e) :
    d.coordinate? = e.coordinate? := by
  cases h <;> rfl

theorem References.ofDependencies_congr {deps others : List Dependency}
    (h : List.Forall₂ Dependency.RefersAlike deps others) :
    References.ofDependencies deps = References.ofDependencies others := by
  have hcoordinates : deps.filterMap (·.coordinate?) = others.filterMap (·.coordinate?) :=
    filterMap_eq_of_forall₂ h fun _ _ hdep => hdep.coordinate?_eq
  have hpaths : deps.filterMap (·.projectPath?) = others.filterMap (·.projectPath?) :=
    filterMap_eq_of_forall₂ h fun _ _ hdep => hdep.projectPath?_eq
  rw [References.ofDependencies, References.ofDependencies, hcoordinates, hpaths]

theorem allAgreeWithFirst_congr {α : Type} {related : α → α → Prop} {agree : α → α → Bool}
    (hagree : ∀ x x' y y', related x x' → related y y' → agree x y = agree x' y')
    {items others : List α} (h : List.Forall₂ related items others) :
    allAgreeWithFirst agree items = allAgreeWithFirst agree others := by
  cases h with
  | nil => rfl
  | @cons first second rest others hfirst hrest =>
    have hall := map_eq_of_forall₂ hrest fun y y' hy => hagree first second y y' hfirst hy
    rw [allAgreeWithFirst, allAgreeWithFirst]
    simpa [List.all_map, Function.comp_def] using congrArg (·.all id) hall

namespace LibraryVariant

/-- Records that differ in the suffixes of project dependencies only, in their dependencies or in
the checks of their lint configurations. -/
structure SameUpToSuffixes (x y : LibraryVariant) : Prop where
  fields : { x with deps := [], lintConfig := {} } = { y with deps := [], lintConfig := {} }
  deps : List.Forall₂ Dependency.RefersAlike x.deps y.deps
  lintFields : { x.lintConfig with checks := [] } = { y.lintConfig with checks := [] }
  checks : List.Forall₂ Dependency.RefersAlike x.lintConfig.checks y.lintConfig.checks

/-- Variants have one lint configuration after a rewriting exactly if they had one before. -/
def KeepsLintComparisons (variants rewritten : OrderedMap LibraryVariant) : Prop :=
  ∀ v w x y x' y', variants.get? v = some x → variants.get? w = some y →
    rewritten.get? v = some x' → rewritten.get? w = some y' →
      (x.lintConfig = y.lintConfig ↔ x'.lintConfig = y'.lintConfig)

def LintRewritten (variants rewritten : OrderedMap LibraryVariant) (before after : LintConfig) :
    Prop :=
  ∃ v x y, variants.get? v = some x ∧ rewritten.get? v = some y ∧ x.lintConfig = before ∧
    y.lintConfig = after

variable {variants rewritten : OrderedMap LibraryVariant}

theorem KeepsLintComparisons.iff (h : KeepsLintComparisons variants rewritten)
    {a b a' b' : LintConfig} (ha : LintRewritten variants rewritten a a')
    (hb : LintRewritten variants rewritten b b') : a = b ↔ a' = b' := by
  obtain ⟨v, x, x', hx, hx', rfl, rfl⟩ := ha
  obtain ⟨w, y, y', hy, hy', rfl, rfl⟩ := hb
  exact h v w x y x' y' hx hy hx' hy'

def Rewritten (variants rewritten : OrderedMap LibraryVariant) (x y : LibraryVariant) : Prop :=
  x.SameUpToSuffixes y ∧ LintRewritten variants rewritten x.lintConfig y.lintConfig

theorem sameKeys_rewritten (h : SameKeys SameUpToSuffixes variants.entries rewritten.entries) :
    SameKeys (Rewritten variants rewritten) variants.entries rewritten.entries := by
  obtain ⟨hlength, hentries⟩ := List.forall₂_iff_zip.mp h
  refine List.forall₂_iff_zip.mpr ⟨hlength, ?_⟩
  rintro ⟨v, x⟩ ⟨w, y⟩ hzip
  obtain ⟨rfl, hsame⟩ := hentries hzip
  obtain ⟨hx, hy⟩ := List.of_mem_zip hzip
  exact ⟨rfl, hsame, v, x, y, OrderedMap.get?_eq_some_iff.mpr hx,
    OrderedMap.get?_eq_some_iff.mpr hy, rfl, rfl⟩

theorem content_eq_iff {x y : LibraryVariant} :
    x.content = y.content ↔
      { x with name := "", deps := [], lintConfig := {} } =
          { y with name := "", deps := [], lintConfig := {} } ∧
        x.lintConfig = y.lintConfig ∧
        References.ofDependencies x.deps = References.ofDependencies y.deps := by
  simp only [content, Prod.mk.injEq, LibraryVariant.mk.injEq]
  tauto

theorem interchangeable_rewritten (hlint : KeepsLintComparisons variants rewritten)
    {x x' y y' : LibraryVariant} (hx : Rewritten variants rewritten x x')
    (hy : Rewritten variants rewritten y y') : x.interchangeable y = x'.interchangeable y' := by
  have hfields : ∀ {a b : LibraryVariant}, a.SameUpToSuffixes b →
      { a with name := "", deps := [], lintConfig := {} } =
        { b with name := "", deps := [], lintConfig := {} } :=
    fun h => congrArg (fun v => v.rename "") h.fields
  rw [Bool.eq_iff_iff, interchangeable_iff, interchangeable_iff, content_eq_iff, content_eq_iff,
    hfields hx.1, hfields hy.1, hlint.iff hx.2 hy.2, References.ofDependencies_congr hx.1.deps,
    References.ofDependencies_congr hy.1.deps]

theorem respects_rewritten (hlint : KeepsLintComparisons variants rewritten)
    (buildTypeOf : String → String) :
    (foldRules buildTypeOf).Respects (Rewritten variants rewritten) where
  moveTarget := by
    intro x y h old new
    have hname : x.name = y.name := congrArg (·.name) h.1.fields
    have hfields := congrArg (fun v => v.rename (Suffix.strip y.name old ++ new)) h.1.fields
    rw [FoldRules.moveTarget, FoldRules.moveTarget]
    show Rewritten variants rewritten (x.rename (Suffix.strip x.name old ++ new))
      (y.rename (Suffix.strip y.name old ++ new))
    rw [hname]
    exact ⟨⟨hfields, h.1.deps, h.1.lintFields, h.1.checks⟩, h.2⟩
  interchangeable := by
    intro xs ys h
    show allInterchangeable xs = allInterchangeable ys
    apply allAgreeWithFirst_congr _ h
    intro x x' y y' hx hy
    exact interchangeable_rewritten hlint hx hy

theorem referencedProjects_rewritten {xs ys : List LibraryVariant}
    (h : List.Forall₂ (Rewritten variants rewritten) xs ys) :
    referencedProjects xs = referencedProjects ys := by
  have hdeps : List.Forall₂ (List.Forall₂ Dependency.RefersAlike) (xs.map (·.deps))
      (ys.map (·.deps)) :=
    List.forall₂_map_left_iff.mpr
      (List.forall₂_map_right_iff.mpr (h.imp fun _ _ hrecord => hrecord.1.deps))
  rw [referencedProjects, referencedProjects, projectPaths, projectPaths,
    References.ofDependencies_congr (List.rel_flatten hdeps)]

theorem blocker_respects_rewritten (options : LibraryOptions) (states : DependencyStates) :
    Blocker.Respects (blocker? options states) (Rewritten variants rewritten) := by
  intro buildType group other h
  have hprojects : referencedProjects group.values = referencedProjects other.values :=
    referencedProjects_rewritten h.values
  rw [blocker?]
  split
  · rw [Option.bind_some, Option.bind_some, blocker, blocker, hprojects]
  · rfl

/-- Folding does not look at the suffixes that dependencies carry. Records that differ in such
suffixes only have the same collision, or foldings with the same assignment, expanded build types,
suffixes and decisions and with targets that differ in such suffixes only. Suffixes in the checks of
lint configurations may change where that leaves the comparison of these configurations alone. -/
theorem fold_rewritten_suffixes (h : SameKeys SameUpToSuffixes variants.entries rewritten.entries)
    (hlint : KeepsLintComparisons variants rewritten) (options : LibraryOptions)
    (buildTypeOf : String → String) (states : DependencyStates) :
    AnswersAlike (FoldingReport.Matches SameUpToSuffixes)
      (fold options buildTypeOf states variants) (fold options buildTypeOf states rewritten) := by
  have hrewritten := sameKeys_rewritten h
  have hprojects : referencedProjects variants.values = referencedProjects rewritten.values :=
    referencedProjects_rewritten hrewritten.values
  have hcross : crossFold options states variants = crossFold options states rewritten := by
    rw [crossFold, crossFold, crossObjection, crossObjection, hprojects]
  have houtcome : AnswersAlike (Outcome.Matches (Rewritten variants rewritten))
      (foldOutcome options buildTypeOf states variants)
      (foldOutcome options buildTypeOf states rewritten) := by
    rw [foldOutcome_eq, foldOutcome_eq, hcross]
    exact (respects_rewritten hlint buildTypeOf).fold (blocker_respects_rewritten options states)
      rfl hrewritten
  have hfold : AnswersAlike (FoldingReport.Matches (Rewritten variants rewritten))
      (fold options buildTypeOf states variants) (fold options buildTypeOf states rewritten) := by
    rw [fold, fold]
    generalize foldOutcome options buildTypeOf states variants = first at houtcome
    generalize foldOutcome options buildTypeOf states rewritten = second at houtcome
    cases houtcome with
    | failed collision => exact .failed collision.fault
    | done houtcomes => exact houtcomes.report
  apply hfold.imp
  intro report other hreports
  exact ⟨hreports.targets.imp fun _ _ htarget => ⟨htarget.1, htarget.2.1⟩, hreports.assignment,
    hreports.expanded, hreports.decisions⟩

/-- Debug variants of two flavors. The suffixes that their references to other projects carry are
those of the dependencies and of the lint checks. -/
def suffixedFlavors (free paid freeCheck paidCheck : String) : OrderedMap LibraryVariant :=
  .ofList [
    ("freeDebug", {
      name := "lib-free-debug"
      deps := [.project ":util" free]
      lintConfig := { checks := [.project ":lint" freeCheck] } }),
    ("paidDebug", {
      name := "lib-paid-debug"
      deps := [.project ":util" paid]
      lintConfig := { checks := [.project ":lint" paidCheck] } })]

private theorem sameKeys_suffixedFlavors (a b c d a' b' c' d' : String) :
    SameKeys SameUpToSuffixes (suffixedFlavors a b c d).entries
      (suffixedFlavors a' b' c' d').entries :=
  .cons ⟨rfl, rfl, .cons (.project ..) .nil, rfl, .cons (.project ..) .nil⟩
    (.cons ⟨rfl, rfl, .cons (.project ..) .nil, rfl, .cons (.project ..) .nil⟩ .nil)

private theorem lintConfig_suffixedFlavors {free paid check v : String} {x : LibraryVariant}
    (h : (suffixedFlavors free paid check check).get? v = some x) :
    x.lintConfig = { checks := [.project ":lint" check] } := by
  have hmem := OrderedMap.get?_eq_some_iff.mp h
  rcases List.mem_cons.mp hmem with heq | hmem
  · cases heq
    rfl
  · cases List.mem_singleton.mp hmem
    rfl

def foldSuffixed (free paid freeCheck paidCheck : String) :
    Except Fault (FoldingReport LibraryVariant) :=
  fold ⟨true, true⟩ (fun _ => "debug") (fun _ => .untracked)
    (suffixedFlavors free paid freeCheck paidCheck)

/-- The two flavors fold alike whatever suffixes their dependencies carry, if their lint checks
carry one suffix before and one after. -/
theorem fold_rewritten_suffixes_two_flavors :
    AnswersAlike (FoldingReport.Matches SameUpToSuffixes)
      (foldSuffixed "-free-debug" "-paid-debug" "-debug" "-debug")
      (foldSuffixed "" "-debug" "" "") := by
  apply fold_rewritten_suffixes (sameKeys_suffixedFlavors ..)
  intro v w x y x' y' hx hy hx' hy'
  rw [lintConfig_suffixedFlavors hx, lintConfig_suffixedFlavors hy,
    lintConfig_suffixedFlavors hx', lintConfig_suffixedFlavors hy']
  exact iff_of_true rfl rfl

/-- A suffix in a lint check matters: two flavors that differ in it stay apart, and share a target
once the suffixes are gone. -/
theorem suffix_of_lint_check_matters :
    SameKeys SameUpToSuffixes (suffixedFlavors "" "" "-free-debug" "-paid-debug").entries
        (suffixedFlavors "" "" "" "").entries ∧
      ¬ AnswersAlike (fun report other => report.folding.expanded = other.folding.expanded)
        (foldSuffixed "" "" "-free-debug" "-paid-debug") (foldSuffixed "" "" "" "") := by
  refine ⟨sameKeys_suffixedFlavors .., fun halike => ?_⟩
  have hexpanded :
      (foldSuffixed "" "" "-free-debug" "-paid-debug").toOption.map
          (·.folding.expanded.names) = some ["debug"] ∧
        (foldSuffixed "" "" "" "").toOption.map (·.folding.expanded.names) = some [] := by
    decide +kernel
  generalize foldSuffixed "" "" "-free-debug" "-paid-debug" = suffixed at halike hexpanded
  generalize foldSuffixed "" "" "" "" = bare at halike hexpanded
  cases halike with
  | failed fault => simp [Except.toOption] at hexpanded
  | done hsame =>
    simp only [Except.toOption, Option.map_some, Option.some.injEq, hsame] at hexpanded
    exact absurd (hexpanded.1.symm.trans hexpanded.2) (List.cons_ne_nil _ _)

end LibraryVariant

end BuildVariants
