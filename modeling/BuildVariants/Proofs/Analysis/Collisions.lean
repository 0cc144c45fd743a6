import BuildVariants.Proofs.Analysis.Contents
import BuildVariants.Proofs.Analysis.Failures
import BuildVariants.Proofs.Analysis.TestIndependence

/-!
The failures of a run over recorded variants. Whatever was recorded, the variants that the source
lists for a project have different names and their data can be extracted, so the variants of a
project fail only if their suffixes collide. A library is listed as failed exactly if its library
variants collide, or if tests are analyzed and its tests do.
-/

set_option autoImplicit false
set_option relaxedAutoImplicit false

namespace BuildVariants

def ReportsCollision {α : Type} (answer : Except Fault α) : Prop :=
  ∃ fault claims, answer = .error fault ∧ fault.kind = .suffixCollision claims

theorem Collision.exists_claims (collision : Collision) :
    ∃ claims, collision.fault.kind = .suffixCollision claims := by
  cases collision with
  | variants buildType claims => exact ⟨_, rfl⟩
  | buildTypes suffix owner other => exact ⟨_, rfl⟩

theorem reportsCollision_iff {α : Type} {answer : Except Fault α}
    (h : ∀ fault, answer = .error fault → ∃ collision : Collision, fault = collision.fault) :
    ReportsCollision answer ↔ ∃ fault, answer = .error fault := by
  constructor
  · rintro ⟨fault, -, hfault, -⟩
    exact ⟨fault, hfault⟩
  · rintro ⟨fault, hfault⟩
    obtain ⟨collision, rfl⟩ := h fault hfault
    obtain ⟨claims, hclaims⟩ := collision.exists_claims
    exact ⟨_, claims, hfault, hclaims⟩

theorem LibraryVariant.reportsCollision_fold_iff {options : LibraryOptions}
    {buildTypeOf : String → String} {states : DependencyStates}
    {variants : OrderedMap LibraryVariant} :
    ReportsCollision (fold options buildTypeOf states variants) ↔
      ∃ fault, fold options buildTypeOf states variants = .error fault := by
  apply reportsCollision_iff
  intro fault hfault
  obtain ⟨collision, -, hsame⟩ := fold_eq_error_iff.mp hfault
  exact ⟨collision, hsame⟩

theorem UnitTestVariant.reportsCollision_fold_iff {crossBuildTypes : Bool} {project : String}
    {buildTypeOf : String → String} {variants : OrderedMap UnitTestVariant} :
    ReportsCollision (fold crossBuildTypes project buildTypeOf variants) ↔
      ∃ fault, fold crossBuildTypes project buildTypeOf variants = .error fault := by
  apply reportsCollision_iff
  intro fault hfault
  obtain ⟨collision, -, hsame⟩ := fold_eq_error_iff.mp hfault
  exact ⟨collision, hsame⟩

theorem Summary.mem_paths_failures_iff {summary : Summary} {path : String} :
    path ∈ summary.failures.map (·.path) ↔
      ∃ failure, .failed failure ∈ summary.findingsOn path := by
  have hmember : path ∈ summary.failures.map (·.path) ↔
      ∃ failure, failure ∈ summary.failuresOn path := by
    simp [failuresOn]
  rw [hmember, failuresOn_eq]
  refine exists_congr fun failure => ?_
  rw [List.mem_filterMap]
  constructor
  · rintro ⟨finding, hfinding, hfailure⟩
    cases finding with
    | analyzed entry => cases hfailure
    | failed other => exact Option.some.inj hfailure ▸ hfinding
  · intro hfinding
    exact ⟨_, hfinding, rfl⟩

namespace Analyzer

variable {a : Analyzer} {g : ProjectGraph} {s after : Session} {summary : Summary}
  {project : Project}

/-- The library variants that are recorded for a project collide, given what they know about the
projects that they depend on. -/
def LibraryCollides (a : Analyzer) (recorded : RecordedSource) (project : Project)
    (states : List LibraryVariant → DependencyStates) : Prop :=
  ReportsCollision (LibraryVariant.fold a.libraryOptions
    (a.buildTypeOf (recorded.libraries.matched project.path))
    (states (recorded.libraries.dataOf project.path).values)
    (recorded.libraries.dataOf project.path))

/-- Tests are analyzed, and there are tests recorded for a project that collide. -/
def TestsCollide (a : Analyzer) (recorded : RecordedSource) (project : Project) : Prop :=
  a.policy.analyzeTests = true ∧ recorded.tests.matched project.path ≠ [] ∧
    ReportsCollision (UnitTestVariant.fold a.policy.testCrossBuildTypes project.name
      (a.buildTypeOf (recorded.tests.matched project.path)) (recorded.tests.dataOf project.path))

section Failing

theorem exists_error_analyzeLibrary_iff :
    (∃ cause, (a.analyzeLibrary g project s).1 = .error cause) ↔
      (∃ cause, a.libraryReport g s.registry project = .error cause) ∨
        (a.policy.analyzeTests = true ∧ ∃ cause, a.testReport project = .error cause) := by
  constructor
  · rintro ⟨cause, hcause⟩
    rcases report_eq_error_of_analyzeLibrary hcause with hlibrary | ⟨hasked, htests⟩
    · exact Or.inl ⟨cause, hlibrary⟩
    · exact Or.inr ⟨hasked, cause, htests⟩
  · intro hreports
    rw [fst_analyzeLibrary, summaryOf]
    cases hlibrary : a.libraryReport g s.registry project with
    | error cause => exact ⟨cause, rfl⟩
    | ok report =>
      rcases hreports with ⟨cause, hcause⟩ | ⟨hasked, cause, htests⟩
      · rw [hlibrary] at hcause
        cases hcause
      · rw [reportIfAsked, if_pos hasked, htests]
        exact ⟨cause, rfl⟩

/-- After a completed run, a library is listed as failed exactly if it has no library folding or its
tests fail and are analyzed. -/
theorem mem_paths_failures_iff (hbuilt : g.Built) (hrun : a.run g s = (.ok summary, after))
    (hproject : g.project project.path = .ok project) (hlibrary : project.isLibrary = true) :
    project.path ∈ summary.failures.map (·.path) ↔
      after.registry.library? project.path = none ∨
        (a.policy.analyzeTests = true ∧ ∃ cause, a.testReport project = .error cause) := by
  obtain ⟨before, rest, turn, finding, hnodup, hregistry, hturn, hvisit, hfinding⟩ :=
    exists_turn_of_library hbuilt hrun hproject hlibrary
  have hfailed : (∃ failure, .failed failure ∈ summary.findingsOn project.path) ↔
      ∃ cause, (a.analyzeLibrary g project turn).1 = .error cause := by
    rw [hfinding]
    rcases visit_cases hvisit with ⟨entry, hentry, rfl⟩ | ⟨cause, hcause, -, rfl⟩
    · simp [hentry]
    · simp [hcause]
  have hmissing : after.registry.library? project.path = none ↔
      ∃ cause, a.libraryReport g turn.registry project = .error cause := by
    rw [Option.eq_none_iff_forall_ne_some, hregistry]
    simp only [ne_eq, library?_foldl_iff a g hnodup, ← hturn]
    cases a.libraryReport g turn.registry project with
    | error cause => simp
    | ok report => simp
  rw [Summary.mem_paths_failures_iff, hfailed, exists_error_analyzeLibrary_iff, hmissing]

end Failing

section Recorded

variable {recorded : RecordedSource}

theorem hasVariants_recorded (h : recorded.libraries.Named) (project : Project) :
    (a.withSource recorded.source).HasVariants project (recorded.libraries.matched project.path)
      (recorded.libraries.dataOf project.path) :=
  ⟨rfl, h.extractAll_eq .library project⟩

theorem failsToFold_recorded_iff (h : recorded.libraries.Named)
    {states : List LibraryVariant → DependencyStates} :
    (a.withSource recorded.source).FailsToFold project states ↔
      a.LibraryCollides recorded project states := by
  have hdata := hasVariants_recorded (a := a) h project
  rw [LibraryCollides, LibraryVariant.reportsCollision_fold_iff]
  constructor
  · rintro (⟨failure, hlisting⟩ | ⟨variants, failure, hvariants, hextract⟩ |
      ⟨variants, data, fault, hvalues, hfault⟩)
    · cases hlisting
    · obtain rfl : _ = variants := Except.ok.inj (hdata.1.symm.trans hvariants)
      rw [hdata.2] at hextract
      cases hextract
    · obtain ⟨rfl, rfl⟩ := hdata.unique hvalues
      exact ⟨fault, hfault⟩
  · rintro ⟨fault, hfault⟩
    exact Or.inr (Or.inr ⟨_, _, fault, hdata, hfault⟩)

theorem testReport_recorded_eq_error_iff (h : recorded.tests.Named) {cause : Failure} :
    (a.withSource recorded.source).testReport project = .error cause ↔
      recorded.tests.matched project.path ≠ [] ∧ ∃ fault,
        UnitTestVariant.fold a.policy.testCrossBuildTypes project.name
          (a.buildTypeOf (recorded.tests.matched project.path))
          (recorded.tests.dataOf project.path) = .error fault ∧ cause = .fault fault := by
  rw [testReport_recorded h]
  split
  · next hnone => simp [List.isEmpty_iff.mp hnone]
  · next hsome =>
    have hne : recorded.tests.matched project.path ≠ [] := mt List.isEmpty_iff.mpr hsome
    cases UnitTestVariant.fold a.policy.testCrossBuildTypes project.name
      (a.buildTypeOf (recorded.tests.matched project.path))
      (recorded.tests.dataOf project.path) with
    | error fault => simp [hne, Except.mapError, Except.map, eq_comm]
    | ok report => simp [Except.mapError, Except.map]

theorem testsCollide_iff (h : recorded.tests.Named) :
    a.policy.analyzeTests = true ∧
        (∃ cause, (a.withSource recorded.source).testReport project = .error cause) ↔
      a.TestsCollide recorded project := by
  rw [TestsCollide, UnitTestVariant.reportsCollision_fold_iff]
  simp only [testReport_recorded_eq_error_iff h]
  constructor
  · rintro ⟨hasked, -, hne, fault, hfault, -⟩
    exact ⟨hasked, hne, fault, hfault⟩
  · rintro ⟨hasked, hne, fault, hfault⟩
    exact ⟨hasked, _, hne, fault, hfault, rfl⟩

theorem code?_of_analyzeLibrary (h : recorded.libraries.Named) (htests : recorded.tests.Named)
    {cause : Failure}
    (hcause : ((a.withSource recorded.source).analyzeLibrary g project s).1 = .error cause) :
    cause.code? = some .suffixCollision := by
  have hcollision : ∃ collision : Collision, cause = .fault collision.fault := by
    rcases report_eq_error_of_analyzeLibrary hcause with hlibrary | ⟨-, htest⟩
    · rw [libraryReport_recorded h] at hlibrary
      obtain ⟨fault, hfault, rfl⟩ := mapError_eq_error_iff.mp hlibrary
      obtain ⟨collision, -, rfl⟩ := LibraryVariant.fold_eq_error_iff.mp hfault
      exact ⟨collision, rfl⟩
    · obtain ⟨-, fault, hfault, rfl⟩ := (testReport_recorded_eq_error_iff htests).mp htest
      obtain ⟨collision, -, rfl⟩ := UnitTestVariant.fold_eq_error_iff.mp hfault
      exact ⟨collision, rfl⟩
  obtain ⟨collision, rfl⟩ := hcollision
  obtain ⟨claims, hclaims⟩ := collision.exists_claims
  rw [Failure.code?, Fault.code, hclaims]
  rfl

end Recorded

/-- A run over recorded variants, whatever was recorded and whichever calls failed, completes on an
acyclic graph under a valid policy and lists no failure but collisions of suffixes. A library is
listed as failed exactly if its library variants collide, given the foldings that its dependencies
have at its turn, or if tests are analyzed and its tests collide. -/
theorem run_fails_by_collision (hbuilt : g.Built) (hacyclic : g.Acyclic)
    (hpolicy : a.policy.check = .ok ()) (additions : List RecordedSource.Addition) (s : Session) :
    ∃ paths summary after, g.orderedPaths = .ok paths ∧
      (a.withSource (RecordedSource.empty.addAll additions).source).run g s =
        (.ok summary, after) ∧
      (∀ failure ∈ summary.failures, failure.code = some FaultCode.suffixCollision.text) ∧
      ∀ project : Project, g.project project.path = .ok project → project.isLibrary = true →
        (project.path ∈ summary.failures.map (·.path) ↔
          a.LibraryCollides (RecordedSource.empty.addAll additions) project
            (after.registry.earlierStates g paths project.path) ∨
          a.TestsCollide (RecordedSource.empty.addAll additions) project) := by
  obtain ⟨hlibraries, htests⟩ := (RecordedSource.Built.empty.addAll additions).named
  obtain ⟨order, horder⟩ := ProjectGraph.exists_topologicalOrder hacyclic.orderedPaths_eq
  have hcompletes : ∃ summary after,
      (a.withSource (RecordedSource.empty.addAll additions).source).run g s =
        (.ok summary, after) :=
    exists_run (a := a.withSource (RecordedSource.empty.addAll additions).source) hpolicy
      (RecordedSource.reportsNoDefect _) horder s
  obtain ⟨summary, after, hrun⟩ := hcompletes
  obtain ⟨paths, hpaths, hsettles⟩ := settles_run hbuilt hrun
  refine ⟨paths, summary, after, hpaths, hrun, ?_, ?_⟩
  · intro failure hfailure
    obtain ⟨_, _, project, _, turn, cause, -, -, -, hfails, rfl⟩ :=
      exists_failsAtTurn hbuilt hrun hfailure
    have hcode : cause.code? = some .suffixCollision :=
      code?_of_analyzeLibrary hlibraries htests hfails.failed
    rw [failureOf, hcode]
    rfl
  · intro project hproject hlibrary
    have hmem : project.path ∈ paths := by
      rw [ProjectGraph.eq_dependencyFirst_of_orderedPaths hpaths]
      exact hacyclic.mem_dependencyFirst (ProjectGraph.exists_project_iff.mp ⟨project, hproject⟩)
    have hmissing : after.registry.library? project.path = none ↔
        a.LibraryCollides (RecordedSource.empty.addAll additions) project
          (after.registry.earlierStates g paths project.path) := by
      rw [← failsToFold_recorded_iff hlibraries, failsToFold_iff,
        Option.eq_none_iff_forall_ne_some]
      exact forall_congr' fun folding =>
        not_congr (hsettles.folds project.path hmem project hproject hlibrary folding)
    rw [mem_paths_failures_iff hbuilt hrun hproject hlibrary, hmissing, ← testsCollide_iff htests]
    rfl

/-- Calls that record two library variants and two tests with the same suffix. The calls for a
variant without a name and for a test without a build type fail. -/
def collidingAdditions : List RecordedSource.Addition :=
  [.library ":core" ⟨"freeDebug", "debug", []⟩ { name := "core" },
    .library ":core" ⟨"", "debug", []⟩ { name := "core" },
    .library ":core" ⟨"free_debug", "debug", []⟩ { name := "core" },
    .library ":app" ⟨"debug", "debug", []⟩ { name := "app", deps := [.project ":core" ""] },
    .test ":app" ⟨"freeDebug", "debug", []⟩ { name := "app-test" },
    .test ":app" ⟨"paidDebug", "", []⟩ { name := "app-test" },
    .test ":app" ⟨"free_debug", "debug", []⟩ { name := "app-test" }]

/-- The library is listed because its variants collide and the application because its tests do. -/
theorem run_fails_by_collision_additions :
    ∃ paths summary after,
      (sample.withSource (RecordedSource.empty.addAll collidingAdditions).source).run sampleGraph
        .empty = (.ok summary, after) ∧
      (∀ failure ∈ summary.failures, failure.code = some "E_SUFFIX_COLLISION") ∧
      sample.LibraryCollides (RecordedSource.empty.addAll collidingAdditions) ⟨":core", true⟩
        (after.registry.earlierStates sampleGraph paths ":core") ∧
      ":app" ∈ summary.failures.map (·.path) := by
  have hanswer : ((sample.withSource (RecordedSource.empty.addAll collidingAdditions).source).run
      sampleGraph .empty).1.toOption.map (fun summary => (summary.failures.map (·.path)).head?) =
        some (some ":core") := by
    decide +kernel
  obtain ⟨paths, summary, after, hpaths, hrun, hcodes, hlisted⟩ :=
    run_fails_by_collision (a := sample) built_sampleGraph acyclic_sampleGraph (by decide +kernel)
      collidingAdditions .empty
  refine ⟨paths, summary, after, hrun, hcodes, ?_, ?_⟩
  · rw [hrun] at hanswer
    have hcore : ":core" ∈ summary.failures.map (·.path) :=
      List.mem_of_head? (Option.some.inj hanswer)
    rcases (hlisted ⟨":core", true⟩ rfl rfl).mp hcore with hlibrary | ⟨-, htests, -⟩
    · exact hlibrary
    · exact absurd (by decide +kernel) htests
  · apply (hlisted ⟨":app", true⟩ rfl rfl).mpr
    have hfold : UnitTestVariant.fold true "app"
        (sample.buildTypeOf ((RecordedSource.empty.addAll collidingAdditions).tests.matched ":app"))
        ((RecordedSource.empty.addAll collidingAdditions).tests.dataOf ":app") =
          .error (Collision.fault
            (.variants "debug" [("-free-debug", ["freeDebug", "free_debug"])])) := by
      decide +kernel
    exact Or.inr ⟨rfl, by decide +kernel, _, _, hfold, rfl⟩

end Analyzer

end BuildVariants
