import BuildVariants.Proofs.Analysis.Locality

/-!
The tests of a library do not depend on any library. Once the library folding of a project is
registered, what a run registers for its tests, and the failure that it lists if they fail, follow
from the report on the tests alone. Two runs with the same tests of a project therefore agree on
them, even if they are runs over different graphs with different libraries.
-/

set_option autoImplicit false
set_option relaxedAutoImplicit false

namespace BuildVariants

/-- Two sources agree on the tests of a project if they list the same tests, and give the same
answers about these. -/
structure VariantSource.AgreesOnTests (source other : VariantSource) (project : Project) :
    Prop where
  matched : source.matched project .test = other.matched project .test
  unitTest : ∀ variants, source.matched project .test = .ok variants → ∀ variant ∈ variants,
    source.unitTest project variant = other.unitTest project variant

def Summary.failuresOn (summary : Summary) (path : String) : List ProjectFailure :=
  summary.failures.filter (·.path = path)

theorem Summary.failuresOn_eq (summary : Summary) (path : String) :
    summary.failuresOn path = (summary.findingsOn path).filterMap (·.failure?) := by
  rw [findingsOn, List.filterMap_append, List.filterMap_map, List.filterMap_map]
  simp [Function.comp_def, Finding.failure?, failuresOn]

namespace Analyzer

variable {a b : Analyzer} {g other : ProjectGraph} {s after start last : Session}
  {summary result : Summary} {project : Project}

/-- What a summary lists as the failure of a project whose tests have a report. -/
def testFailures (project : Project) : Except Failure (Option TestReport) → List ProjectFailure
  | .ok _ => []
  | .error cause => [failureOf project cause]

/-- A run that analyzes tests registers for a project with a library folding what the report on its
tests says, and lists a failure exactly if that report fails. -/
theorem tests_of_run (hbuilt : g.Built) (hrun : a.run g s = (.ok summary, after))
    (hasked : a.policy.analyzeTests = true) (hproject : g.project project.path = .ok project)
    (hlibrary : project.isLibrary = true) {folding : Folding LibraryVariant}
    (hfolding : after.registry.library? project.path = some folding) :
    after.registry.tests? project.path = testFolding? (a.testReport project) ∧
      summary.failuresOn project.path = testFailures project (a.testReport project) := by
  obtain ⟨before, rest, turn, finding, hnodup, hregistry, hturn, hvisit, hfinding⟩ :=
    exists_turn_of_library hbuilt hrun hproject hlibrary
  rw [hregistry, library?_foldl_iff a g hnodup] at hfolding
  obtain ⟨report, hreport, -⟩ := hfolding
  have hreports : a.reportIfAsked (a.testReport project) = a.testReport project := if_pos hasked
  constructor
  · rw [List.map_append, List.map_cons, List.nodup_middle, List.nodup_cons, List.mem_append,
      not_or] at hnodup
    have hfresh : ((before.foldl (a.registerVisit g) .empty).registerLibrary project.path
        report.folding).tests? project.path = none := by
      rw [Registry.tests?_registerLibrary, tests?_foldl_of_notMem hnodup.1.1, Registry.tests?_empty]
    have htests := tests?_registerTestsOf_self (a := a) hfresh
    rw [hregistry, List.foldl_append, List.foldl_cons, tests?_foldl_of_notMem hnodup.1.2,
      registerVisit, hreport]
    rwa [hreports] at htests
  · rw [fst_visit, fst_analyzeLibrary, hturn, hreport, summaryOf, hreports] at hvisit
    rw [Summary.failuresOn_eq, hfinding]
    cases htests : a.testReport project with
    | error cause =>
      rw [htests] at hvisit
      obtain ⟨rfl, -⟩ := of_findingOf_error hvisit
      rfl
    | ok tests =>
      rw [htests] at hvisit
      cases hvisit
      rfl

/-- Two runs that analyze tests, over any two graphs with the library, agree on its tests if the
sources do and tests are folded across build types in both or in neither, provided that both
register a library folding for it. They register the same test folding or none, and list the same
failure or none. -/
theorem tests_independent (hbuilt : g.Built) (hother : other.Built)
    (hrun : a.run g s = (.ok summary, after)) (hlast : b.run other start = (.ok result, last))
    (hproject : g.project project.path = .ok project)
    (hsame : other.project project.path = .ok project) (hlibrary : project.isLibrary = true)
    (hasked : a.policy.analyzeTests = true) (halso : b.policy.analyzeTests = true)
    (hcross : a.policy.testCrossBuildTypes = b.policy.testCrossBuildTypes)
    (hagrees : a.source.AgreesOnTests b.source project)
    (hregistered : (after.registry.library? project.path).isSome = true)
    (hlastRegistered : (last.registry.library? project.path).isSome = true) :
    after.registry.tests? project.path = last.registry.tests? project.path ∧
      summary.failuresOn project.path = result.failuresOn project.path := by
  obtain ⟨folding, hfolding⟩ := Option.isSome_iff_exists.mp hregistered
  obtain ⟨otherFolding, hotherFolding⟩ := Option.isSome_iff_exists.mp hlastRegistered
  obtain ⟨htests, hfailures⟩ := tests_of_run hbuilt hrun hasked hproject hlibrary hfolding
  obtain ⟨hlastTests, hlastFailures⟩ := tests_of_run hother hlast halso hsame hlibrary hotherFolding
  have hreport : a.testReport project = b.testReport project :=
    testReport_congr hcross hagrees.matched hagrees.unitTest
  rw [htests, hlastTests, hfailures, hlastFailures, hreport]
  exact ⟨rfl, rfl⟩

def coreTests : Records UnitTestVariant :=
  .ofList [(":core", .ofList [
    ("freeDebug", ⟨"freeDebug", "debug", []⟩,
      { name := "core-free-test", deps := [.project ":app" ""] }),
    ("paidDebug", ⟨"paidDebug", "debug", []⟩, { name := "core-paid-test", compose := true })])]

def tested : Analyzer :=
  sample.withSource <| RecordedSource.source {
    libraries := .ofList [(":core", sampleVariants "core" []),
      (":app", sampleVariants "app" [.project ":core" ""])]
    tests := coreTests }

/-- An analysis under another policy with the same tests, in which the library has one variant and
the other projects have none. -/
def testedAlone : Analyzer where
  source := RecordedSource.source {
    libraries := .ofList [(":core", .ofList [
      ("release", ⟨"release", "release", []⟩, { name := "core" })])]
    tests := coreTests }
  policy := ⟨false, true, false, true, "release"⟩
  timestamp := ""

/-- The library has different library foldings over two graphs, and the same test folding. -/
theorem tests_independent_tested :
    ∃ summary after result last, tested.run sampleGraph .empty = (.ok summary, after) ∧
      testedAlone.run looseGraph .empty = (.ok result, last) ∧
      after.registry.library? ":core" ≠ last.registry.library? ":core" ∧
      (after.registry.tests? ":core").isSome = true ∧
      after.registry.tests? ":core" = last.registry.tests? ":core" ∧
      summary.failuresOn ":core" = result.failuresOn ":core" := by
  obtain ⟨order, horder⟩ := ProjectGraph.exists_topologicalOrder acyclic_sampleGraph.orderedPaths_eq
  obtain ⟨summary, after, hrun⟩ := exists_run (a := tested) (by decide +kernel)
    (RecordedSource.reportsNoDefect _) horder .empty
  obtain ⟨looseOrder, hlooseOrder⟩ :=
    ProjectGraph.exists_topologicalOrder acyclic_looseGraph.orderedPaths_eq
  obtain ⟨result, last, hlast⟩ := exists_run (a := testedAlone) (by decide +kernel)
    (RecordedSource.reportsNoDefect _) hlooseOrder .empty
  have hregistered : ((tested.run sampleGraph .empty).2.registry.library? ":core").isSome = true ∧
      ((testedAlone.run looseGraph .empty).2.registry.library? ":core").isSome = true ∧
      (tested.run sampleGraph .empty).2.registry.library? ":core" ≠
        (testedAlone.run looseGraph .empty).2.registry.library? ":core" ∧
      ((tested.run sampleGraph .empty).2.registry.tests? ":core").isSome = true := by
    decide +kernel
  rw [hrun, hlast] at hregistered
  obtain ⟨hfirst, hsecond, hdifferent, htests⟩ := hregistered
  have hcore : sampleGraph.project (Project.path ⟨":core", true⟩) = .ok ⟨":core", true⟩ := rfl
  exact ⟨summary, after, result, last, hrun, hlast, hdifferent, htests,
    tests_independent built_sampleGraph built_looseGraph hrun hlast hcore rfl rfl rfl rfl rfl
      ⟨rfl, fun _ _ _ _ => rfl⟩ hfirst hsecond⟩

end Analyzer

end BuildVariants
