import BuildVariants.Proofs.Analysis.Blocking
import BuildVariants.Proofs.Folding.FullFolding

/-!
What a failed project leaves behind. A visit registers the library folding of a project before it
turns to the tests, so a project that fails with its library variants leaves nothing, and one that
fails with its tests leaves its library folding. A project without a library folding blocks every
project that depends on it.
-/

set_option autoImplicit false
set_option relaxedAutoImplicit false

namespace BuildVariants.Analyzer

variable {a : Analyzer} {g : ProjectGraph} {s after : Session} {summary : Summary}
  {project : Project} {failure : ProjectFailure}

theorem tests?_registerVisit_of_failed {cause : Failure}
    (h : (a.analyzeLibrary g project s).1 = .error cause) (path : String) :
    (a.registerVisit g s.registry project).tests? path = s.registry.tests? path := by
  rw [registerVisit]
  rcases report_eq_error_of_analyzeLibrary h with hlibrary | ⟨hasked, htests⟩
  · rw [hlibrary]
  · cases a.libraryReport g s.registry project with
    | error other => rfl
    | ok report =>
      dsimp only
      rw [registerTestsOf, if_pos hasked, htests]
      rfl

/-- A project fails at its turn in a walk that starts from an empty registry and visits each path
once. -/
structure FailsAtTurn (a : Analyzer) (g : ProjectGraph) (before rest : List Project)
    (turn : Session) (project : Project) (cause : Failure) : Prop where
  nodup : ((before ++ project :: rest).map (·.path)).Nodup
  registry : turn.registry = before.foldl (a.registerVisit g) .empty
  failed : (a.analyzeLibrary g project turn).1 = .error cause

namespace FailsAtTurn

variable {before rest : List Project} {turn : Session} {cause : Failure}

theorem tests?_eq_none (h : a.FailsAtTurn g before rest turn project cause) :
    ((before ++ project :: rest).foldl (a.registerVisit g) .empty).tests? project.path = none := by
  have hnodup := h.nodup
  rw [List.map_append, List.map_cons, List.nodup_middle, List.nodup_cons, List.mem_append,
    not_or] at hnodup
  -- Only the turn of the project could register its tests, and it fails there.
  have hbefore : turn.registry.tests? project.path = none := by
    rw [h.registry, tests?_foldl_of_notMem hnodup.1.1, Registry.tests?_empty]
  rw [List.foldl_append, List.foldl_cons, tests?_foldl_of_notMem hnodup.1.2, ← h.registry,
    tests?_registerVisit_of_failed h.failed, hbefore]

theorem testReport_eq_error (h : a.FailsAtTurn g before rest turn project cause)
    {folding : Folding LibraryVariant}
    (hfolding : ((before ++ project :: rest).foldl (a.registerVisit g) .empty).library?
      project.path = some folding) :
    a.policy.analyzeTests = true ∧ a.testReport project = .error cause := by
  obtain ⟨report, hreport, -⟩ := (library?_foldl_iff a g h.nodup folding).mp hfolding
  rw [← h.registry] at hreport
  rcases report_eq_error_of_analyzeLibrary h.failed with hlibrary | htests
  · rw [hreport] at hlibrary
    cases hlibrary
  · exact htests

end FailsAtTurn

theorem exists_failsAtTurn (hbuilt : g.Built) (hrun : a.run g s = (.ok summary, after))
    (hfailure : failure ∈ summary.failures) :
    ∃ order before project rest turn cause, g.topologicalOrder = .ok order ∧
      order.filter (·.isLibrary) = before ++ project :: rest ∧
      after.registry = (before ++ project :: rest).foldl (a.registerVisit g) .empty ∧
      a.FailsAtTurn g before rest turn project cause ∧ failure = failureOf project cause := by
  obtain ⟨order, start, findings, last, horder, hstart, hwalk, hlast, rfl⟩ :=
    exists_walk_of_run hrun
  obtain ⟨finding, hfinding, hfailed⟩ := List.mem_filterMap.mp hfailure
  obtain rfl : finding = .failed failure := by
    cases finding with
    | analyzed summary => cases hfailed
    | failed other => rw [Option.some.inj hfailed]
  obtain ⟨before, project, rest, turn, hvisited, hturn, hvisit⟩ :=
    exists_turn_of_mem_findings hwalk hfinding
  obtain ⟨cause, hcause, hsame⟩ : ∃ cause, (a.analyzeLibrary g project turn).1 = .error cause ∧
      failure = failureOf project cause := by
    rcases visit_cases hvisit with ⟨result, -, hresult⟩ | ⟨cause, hcause, -, hfailed⟩
    · cases hresult
    · exact ⟨cause, hcause, Finding.failed.inj hfailed⟩
  have hnodup := nodup_libraries hbuilt horder
  rw [hvisited] at hnodup
  have hregistry := registry_walk hwalk
  rw [hstart, hlast, hvisited] at hregistry
  rw [hstart] at hturn
  exact ⟨order, before, project, rest, turn, cause, horder, hvisited, hregistry,
    ⟨hnodup, hturn, hcause⟩, hsame⟩

/-- A path blocks its dependents if every project of the graph with a folding keeps the build types
apart for which it relies on the path, where dependencies are checked, and has no full folding if it
has several build types and one of its variants depends on the path. -/
def BlocksDependents (a : Analyzer) (g : ProjectGraph) (r : Registry) (path : String) : Prop :=
  ∀ dependent : Project, g.project dependent.path = .ok dependent → ∀ folding,
    r.library? dependent.path = some folding →
      (a.policy.checkDependencies = true → ∀ buildType, a.ReliesOn dependent buildType path →
        a.KeepsApart dependent buildType folding) ∧
      ∀ variants data, a.HasVariants dependent variants data →
        (∃ item ∈ data.values, item.DependsOn path) →
        (∃ v ∈ data.keys, ∃ w ∈ data.keys, a.buildTypeOf variants v ≠ a.buildTypeOf variants w) →
          folding.isFull = false

theorem Settles.blocksDependents {paths : List String} {r : Registry}
    (hsettles : a.Settles g paths r) {path : String} (hlibrary : g.hasLibrary path = true)
    (hmissing : r.library? path = none) :
    a.BlocksDependents g r path := by
  intro dependent hdependent folding hfolding
  constructor
  · intro hcheck buildType hrelies
    exact hsettles.keepsApart_of_blocks hcheck hdependent hlibrary hrelies (Or.inl hmissing)
      hfolding
  · rintro variants data hdata ⟨item, hitem, hdepends⟩ ⟨v, hv, w, hw, hne⟩
    obtain ⟨others, values, report, hvalues, hreport, rfl⟩ := hsettles.foldsTo hdependent hfolding
    obtain ⟨rfl, rfl⟩ := hdata.unique hvalues
    by_contra hfull
    rw [Bool.not_eq_false] at hfull
    have hfolds := LibraryVariant.foldsFully_of_isFull hreport hfull hv hw hne
    obtain ⟨entry, hentry, rfl⟩ := List.mem_map.mp hitem
    have hreferenced : path ∈ LibraryVariant.referencedProjects data.values :=
      LibraryVariant.mem_referencedProjects.mpr ⟨entry.2, hitem, hdepends⟩
    have hstate : r.earlierStates g paths dependent.path data.values path = .missing := by
      rw [Registry.earlierStates, if_pos ⟨hreferenced, hlibrary⟩, Registry.stateOf, hmissing]
      split <;> rfl
    have hallows := hfolds.2.2.2.2 entry hentry path hdepends
    rw [hstate] at hallows
    rcases hallows with huntracked | ⟨folding, hsettled, -⟩
    · cases huntracked
    · cases hsettled

/-- Every failure that a run lists is that of a library without a test folding. The library has no
library folding exactly if its variants fail to fold, and then it blocks its dependents. If it has
one, its tests are what failed. -/
theorem failures_specification (hbuilt : g.Built) (hrun : a.run g s = (.ok summary, after))
    (hfailure : failure ∈ summary.failures) :
    after.registry.tests? failure.path = none ∧ ∃ paths project,
      g.orderedPaths = .ok paths ∧ g.project failure.path = .ok project ∧
      project.isLibrary = true ∧
      (after.registry.library? failure.path = none ↔
        a.FailsToFold project (after.registry.earlierStates g paths failure.path)) ∧
      (after.registry.library? failure.path = none →
        a.BlocksDependents g after.registry failure.path) ∧
      (after.registry.library? failure.path ≠ none → a.policy.analyzeTests = true ∧
        ∃ cause, a.testReport project = .error cause ∧ failure = failureOf project cause) := by
  obtain ⟨order, before, project, rest, turn, cause, horder, hvisited, hregistry, hfails, rfl⟩ :=
    exists_failsAtTurn hbuilt hrun hfailure
  obtain ⟨paths, hpaths, hsettles⟩ := settles_run hbuilt hrun
  obtain ⟨hordered, hprojects⟩ := hbuilt.of_topologicalOrder horder
  obtain rfl : paths = order.map (·.path) := Except.ok.inj (hpaths.symm.trans hordered)
  have hmem : project ∈ order ∧ project.isLibrary = true := by
    apply List.mem_filter.mp
    rw [hvisited]
    exact List.mem_append_right before List.mem_cons_self
  obtain ⟨hproject, hlibrary⟩ := hmem
  have hpath : g.project project.path = .ok project := hprojects project hproject
  have hfolds := hsettles.folds project.path (List.mem_map_of_mem hproject) project hpath hlibrary
  refine ⟨hregistry ▸ hfails.tests?_eq_none, _, project, hpaths, hpath, hlibrary, ?_, ?_, ?_⟩
  · rw [failsToFold_iff, Option.eq_none_iff_forall_ne_some]
    exact forall_congr' fun folding => not_congr (hfolds folding)
  · intro hmissing
    exact hsettles.blocksDependents ((ProjectGraph.hasLibrary_eq hpath).trans hlibrary) hmissing
  · intro hregistered
    obtain ⟨folding, hfolding⟩ := Option.ne_none_iff_exists'.mp hregistered
    obtain ⟨hasked, htests⟩ := hfails.testReport_eq_error (hregistry ▸ hfolding)
    exact ⟨hasked, cause, htests, rfl⟩

/-- Two variants whose names differ and whose suffixes do not. -/
def collidingVariants {α : Type} (data : α) : OrderedMap (MatchedVariant × α) :=
  .ofList [("freeDebug", ⟨"freeDebug", "debug", []⟩, data),
    ("free_debug", ⟨"free_debug", "debug", []⟩, data)]

/-- An analysis in which the tests of the application and the variants of a library collide, and
another library depends on the latter. -/
def colliding : Analyzer where
  source := RecordedSource.source {
    libraries := .ofList [
      (":app", .ofList [("debug", ⟨"debug", "debug", []⟩, { name := "app-debug" })]),
      (":core", collidingVariants { name := "core" }),
      (":ui", looseVariants [.project ":core" ""] false)]
    tests := .ofList [(":app", collidingVariants { name := "app-test" })] }
  policy := .standard
  timestamp := "2024-01-01T00:00:00+00:00"

private theorem run_colliding :
    ∃ summary after, colliding.run looseGraph .empty = (.ok summary, after) ∧
      summary.failures.map (·.path) = [":app", ":core"] ∧
      after.registry.projectPaths = [":app", ":ui"] := by
  have hanswer : (colliding.run looseGraph .empty).1.map (·.failures.map (·.path)) =
        .ok [":app", ":core"] ∧
      (colliding.run looseGraph .empty).2.registry.projectPaths = [":app", ":ui"] := by
    decide +kernel
  obtain ⟨hfailures, hregistered⟩ := hanswer
  obtain ⟨summary, hrun, hpaths⟩ := exists_run_of_map_eq hfailures
  exact ⟨summary, _, hrun, hpaths, hregistered⟩

/-- The library that fails has no folding, and the one that depends on it keeps its variants
apart. -/
theorem failures_specification_colliding :
    ∃ summary after, colliding.run looseGraph .empty = (.ok summary, after) ∧
      ∃ failure ∈ summary.failures, failure.path = ":core" ∧
        after.registry.tests? failure.path = none ∧ after.registry.library? failure.path = none ∧
        ∃ folding, after.registry.library? ":ui" = some folding ∧
          colliding.KeepsApart ⟨":ui", true⟩ "debug" folding := by
  obtain ⟨summary, after, hrun, hpaths, hregistered⟩ := run_colliding
  obtain ⟨failure, hfailure, hcore⟩ : ∃ failure ∈ summary.failures, failure.path = ":core" := by
    apply List.mem_map.mp
    simp [hpaths]
  obtain ⟨htests, paths, project, -, -, -, -, hblocks, -⟩ :=
    failures_specification built_looseGraph hrun hfailure
  have hmissing : after.registry.library? failure.path = none := by
    by_contra hfolding
    obtain ⟨folding, hfolding⟩ := Option.ne_none_iff_exists'.mp hfolding
    have hkey : failure.path ∈ after.registry.projectPaths :=
      OrderedMap.mem_keys_iff.mpr ⟨folding, hfolding⟩
    simp [hcore, hregistered] at hkey
  have hui : ":ui" ∈ after.registry.projectPaths := by simp [hregistered]
  obtain ⟨folding, hfolding⟩ := OrderedMap.mem_keys_iff.mp hui
  have hrelies : colliding.ReliesOn ⟨":ui", true⟩ "debug" failure.path := by
    intro variants data hdata
    obtain ⟨rfl, rfl⟩ := hdata.unique ⟨rfl, rfl⟩
    rw [hcore]
    exact ⟨by decide +kernel, ("freeDebug", _), List.mem_cons_self, "", List.mem_cons_self⟩
  exact ⟨summary, after, hrun, failure, hfailure, hcore, htests, hmissing, folding, hfolding,
    (hblocks hmissing ⟨":ui", true⟩ rfl folding hfolding).1 rfl "debug" hrelies⟩

/-- A project that is listed as failed may have a library folding. -/
theorem registered_though_failed :
    ∃ summary after, colliding.run looseGraph .empty = (.ok summary, after) ∧
      ∃ failure ∈ summary.failures, after.registry.library? failure.path ≠ none := by
  obtain ⟨summary, after, hrun, hpaths, hregistered⟩ := run_colliding
  obtain ⟨failure, hfailure, happ⟩ : ∃ failure ∈ summary.failures, failure.path = ":app" := by
    apply List.mem_map.mp
    simp [hpaths]
  have hkey : failure.path ∈ after.registry.projectPaths := by simp [happ, hregistered]
  obtain ⟨folding, hfolding⟩ := OrderedMap.mem_keys_iff.mp hkey
  exact ⟨summary, after, hrun, failure, hfailure,
    Option.ne_none_iff_exists'.mpr ⟨folding, hfolding⟩⟩

end BuildVariants.Analyzer
