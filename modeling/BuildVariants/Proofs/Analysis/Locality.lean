import BuildVariants.Proofs.Analysis.Blocking
import BuildVariants.Proofs.ProjectGraph.Search

/-!
What a run says of a project depends on the projects that it depends on, and on no other. If two
sources differ only in one project, then a library from which no chain of dependencies reaches that
project has the same foldings and the same entry in the summary under both.
-/

set_option autoImplicit false
set_option relaxedAutoImplicit false

namespace BuildVariants

structure VariantSource.AgreesOn (source other : VariantSource) (project : Project) : Prop where
  matched : ∀ kind, source.matched project kind = other.matched project kind
  library : ∀ variant, source.library project variant = other.library project variant
  unitTest : ∀ variant, source.unitTest project variant = other.unitTest project variant

theorem VariantSource.agreesOn_breakAt (source : VariantSource) {path : String} {project : Project}
    (h : project.path ≠ path) : source.AgreesOn (source.breakAt path) project where
  matched := fun _ => rfl
  library := fun _ => (if_neg h).symm
  unitTest := fun _ => rfl

structure Registry.AgreesOn (r other : Registry) (path : String) : Prop where
  library : r.library? path = other.library? path
  tests : r.tests? path = other.tests? path

def Summary.findingsOn (summary : Summary) (path : String) : List Finding :=
  (summary.projects.filter (·.path = path)).map .analyzed ++
    (summary.failures.filter (·.path = path)).map .failed

theorem Finding.filter_summaries (findings : List Finding) (path : String) :
    (findings.filterMap (·.summary?)).filter (·.path = path) =
      (findings.filter (·.path = path)).filterMap (·.summary?) := by
  rw [List.filter_filterMap, List.filterMap_filter]
  apply List.filterMap_congr
  intro finding hmem
  cases finding with
  | analyzed summary => rfl
  | failed failure => simp [summary?]

theorem Finding.filter_failures (findings : List Finding) (path : String) :
    (findings.filterMap (·.failure?)).filter (·.path = path) =
      (findings.filter (·.path = path)).filterMap (·.failure?) := by
  rw [List.filter_filterMap, List.filterMap_filter]
  apply List.filterMap_congr
  intro finding hmem
  cases finding with
  | analyzed summary => simp [failure?]
  | failed failure => rfl

theorem Summary.findingsOn_eq_singleton {timestamp : String} {earlier later : List Finding}
    {finding : Finding} (hearlier : finding.path ∉ earlier.map (·.path))
    (hlater : finding.path ∉ later.map (·.path)) :
    Summary.findingsOn ⟨timestamp, (earlier ++ finding :: later).filterMap (·.summary?),
      (earlier ++ finding :: later).filterMap (·.failure?)⟩ finding.path = [finding] := by
  have hother : ∀ findings : List Finding, finding.path ∉ findings.map (·.path) →
      findings.filter (·.path = finding.path) = [] := by
    intro findings hpath
    rw [List.filter_eq_nil_iff]
    intro other hmem hsame
    exact hpath (List.mem_map.mpr ⟨other, hmem, of_decide_eq_true hsame⟩)
  have honly : (earlier ++ finding :: later).filter (·.path = finding.path) = [finding] := by
    rw [List.filter_append, hother earlier hearlier, List.nil_append,
      List.filter_cons_of_pos (by simp), hother later hlater]
  rw [findingsOn, Finding.filter_summaries, Finding.filter_failures, honly]
  cases finding with
  | analyzed summary => rfl
  | failed failure => rfl

namespace Analyzer

variable (a : Analyzer) (g : ProjectGraph)

/-- No chain of dependencies from a project reaches a path. -/
def StaysClearOf (project : Project) (path : String) : Prop :=
  ∀ target, Relation.ReflTransGen (a.DependsOnLibrary g) project target → target.path ≠ path

/-- Two registries agree on all projects of the graph that stay clear of a path. -/
def AgreeApartFrom (path : String) (r other : Registry) : Prop :=
  ∀ project, g.project project.path = .ok project → a.StaysClearOf g project path →
    r.AgreesOn other project.path

variable {a g} {s after : Session} {summary : Summary} {other : VariantSource} {r r' : Registry}
  {project : Project} {path : String}

theorem StaysClearOf.of_dependsOn (h : a.StaysClearOf g project path) {dependency : Project}
    (hdepends : a.DependsOnLibrary g project dependency) : a.StaysClearOf g dependency path := by
  intro target hchain
  exact h target (.head hdepends hchain)

theorem dependencyStates_eq_of_dependencies (hbuilt : g.Built) {variants : List MatchedVariant}
    {data : OrderedMap LibraryVariant} (hdata : a.HasVariants project variants data)
    (hdependencies : ∀ dependency, a.DependsOnLibrary g project dependency →
      r.library? dependency.path = r'.library? dependency.path)
    {dependency : String} (h : dependency ∈ LibraryVariant.referencedProjects data.values) :
    r.dependencyStates g dependency = r'.dependencyStates g dependency := by
  rw [Registry.dependencyStates_eq, Registry.dependencyStates_eq]
  cases htracked : g.hasLibrary dependency with
  | false => rfl
  | true =>
    obtain ⟨target, htarget, hlibrary⟩ := ProjectGraph.exists_library htracked
    obtain rfl := hbuilt.path_eq_of_project htarget
    have hrefers : a.RefersTo project target.path :=
      ⟨variants, data, hdata, LibraryVariant.mem_referencedProjects.mp h⟩
    have hsame := hdependencies target ⟨htarget, hlibrary, hrefers⟩
    rw [Registry.stateOf, Registry.stateOf, hsame]

/-- The library report of a project reads the source of the project, and of the registry the
foldings of the libraries that it depends on. -/
theorem libraryReport_withSource (hbuilt : g.Built) (hagrees : a.source.AgreesOn other project)
    (hdependencies : ∀ dependency, a.DependsOnLibrary g project dependency →
      r.library? dependency.path = r'.library? dependency.path) :
    (a.withSource other).libraryReport g r' project = a.libraryReport g r project := by
  have hextract : ∀ variants : List MatchedVariant,
      extractAll other.library project .library variants =
        extractAll a.source.library project .library variants :=
    fun variants => extractAll_congr fun variant _ => (hagrees.library variant).symm
  rw [libraryReport, libraryReport, source_withSource, policy_withSource, ← hagrees.matched]
  cases hvariants : a.source.matched project .library with
  | error failure => rfl
  | ok variants =>
    simp only [hextract]
    cases hdata : extractAll a.source.library project .library variants with
    | error failure => simp [bind, Except.bind, hdata]
    | ok data =>
      have hstates : ∀ dependency ∈ LibraryVariant.referencedProjects data.values,
          r.dependencyStates g dependency = r'.dependencyStates g dependency :=
        fun _ => dependencyStates_eq_of_dependencies hbuilt ⟨hvariants, hdata⟩ hdependencies
      simp [bind, Except.bind, hdata, LibraryVariant.fold_congr hstates]

theorem agreesOn_registerVisit {b : Analyzer} (hpolicy : b.policy = a.policy)
    (hlibrary : b.libraryReport g r' project = a.libraryReport g r project)
    (htests : b.testReport project = a.testReport project) (h : r.AgreesOn r' project.path) :
    (a.registerVisit g r project).AgreesOn (b.registerVisit g r' project) project.path := by
  rw [registerVisit, registerVisit, hlibrary]
  cases a.libraryReport g r project with
  | error failure => exact h
  | ok report =>
    dsimp only
    constructor
    · rw [library?_registerTestsOf, library?_registerTestsOf, Registry.library?_registerLibrary,
        Registry.library?_registerLibrary, if_pos rfl, if_pos rfl]
    · rw [registerTestsOf, registerTestsOf, hpolicy, htests]
      split
      · cases a.testReport project with
        | error failure => exact h.tests
        | ok tests =>
          cases tests with
          | none => exact h.tests
          | some report =>
            dsimp only
            rw [Registry.tests?_registerTests, Registry.tests?_registerTests, if_pos rfl,
              if_pos rfl]
      · exact h.tests

theorem exists_finding_of_run (hbuilt : g.Built) (hrun : a.run g s = (.ok summary, after))
    {order before rest : List Project} (horder : g.topologicalOrder = .ok order)
    (hvisited : order.filter (·.isLibrary) = before ++ project :: rest) :
    ∃ turn finding, turn.registry = before.foldl (a.registerVisit g) .empty ∧
      (a.visit g project turn).1 = .ok finding ∧
      summary.findingsOn project.path = [finding] := by
  obtain ⟨turn, finding, earlier, later, hturn, hvisit, hearlier, hlater, rfl⟩ :=
    exists_turn_of_run hrun horder hvisited
  have hnodup := nodup_libraries hbuilt horder
  rw [hvisited, List.map_append, List.map_cons, List.nodup_middle, List.nodup_cons, List.mem_append,
    not_or] at hnodup
  obtain ⟨⟨hbefore, hrest⟩, -⟩ := hnodup
  refine ⟨turn, finding, hturn, hvisit, ?_⟩
  rw [← path_of_visit hvisit] at hbefore hrest ⊢
  rw [← hearlier] at hbefore
  rw [← hlater] at hrest
  exact Summary.findingsOn_eq_singleton hbefore hrest

/-- In a completed run each library of the graph had one turn. It found what the summary says of the
library, against the registry that the visits to the earlier libraries left. -/
theorem exists_turn_of_library (hbuilt : g.Built) (hrun : a.run g s = (.ok summary, after))
    (hproject : g.project project.path = .ok project) (hlibrary : project.isLibrary = true) :
    ∃ before rest turn finding, ((before ++ project :: rest).map (·.path)).Nodup ∧
      after.registry = (before ++ project :: rest).foldl (a.registerVisit g) .empty ∧
      turn.registry = before.foldl (a.registerVisit g) .empty ∧
      (a.visit g project turn).1 = .ok finding ∧
      summary.findingsOn project.path = [finding] := by
  obtain ⟨order, horder, hregistry⟩ := registry_run hrun
  have hacyclic := hbuilt.acyclic_of_topologicalOrder horder
  have hmem := mem_libraries hbuilt hacyclic horder hproject hlibrary
  obtain ⟨before, rest, hvisited⟩ := List.append_of_mem hmem
  have hnodup := nodup_libraries hbuilt horder
  rw [hvisited] at hregistry hnodup
  obtain ⟨turn, finding, hturn, hvisit, hfinding⟩ :=
    exists_finding_of_run hbuilt hrun horder hvisited
  exact ⟨before, rest, turn, finding, hnodup, hregistry, hturn, hvisit, hfinding⟩

section Comparison

variable (hbuilt : g.Built)
  (hagrees : ∀ project, g.project project.path = .ok project → project.path ≠ path →
    a.source.AgreesOn other project)

include hbuilt hagrees

theorem reports_withSource (h : a.AgreeApartFrom g path r r')
    (hproject : g.project project.path = .ok project) (hclear : a.StaysClearOf g project path) :
    (a.withSource other).libraryReport g r' project = a.libraryReport g r project ∧
      (a.withSource other).testReport project = a.testReport project := by
  have hsame := hagrees project hproject (hclear project .refl)
  constructor
  · apply libraryReport_withSource hbuilt hsame
    intro dependency hdepends
    exact (h dependency hdepends.1 (hclear.of_dependsOn hdepends)).library
  · exact testReport_withSource (hsame.matched .test).symm
      fun variant => (hsame.unitTest variant).symm

/-- One visit under both sources keeps the registries in agreement, also a visit to the project in
which the sources differ. -/
theorem AgreeApartFrom.registerVisit (h : a.AgreeApartFrom g path r r')
    (hproject : g.project project.path = .ok project) :
    a.AgreeApartFrom g path (a.registerVisit g r project)
      ((a.withSource other).registerVisit g r' project) := by
  intro target htarget hclear
  have hbefore := h target htarget hclear
  by_cases hsame : target.path = project.path
  · rw [hsame] at htarget
    obtain rfl : project = target := Except.ok.inj (hproject.symm.trans htarget)
    obtain ⟨hlibrary, htests⟩ := reports_withSource hbuilt hagrees h hproject hclear
    exact agreesOn_registerVisit rfl hlibrary htests hbefore
  · constructor
    · rw [library?_registerVisit_of_ne hsame, library?_registerVisit_of_ne hsame, hbefore.library]
    · rw [tests?_registerVisit_of_ne hsame, tests?_registerVisit_of_ne hsame, hbefore.tests]

theorem AgreeApartFrom.foldl {projects : List Project}
    (hprojects : ∀ project ∈ projects, g.project project.path = .ok project)
    (h : a.AgreeApartFrom g path r r') :
    a.AgreeApartFrom g path (projects.foldl (a.registerVisit g) r)
      (projects.foldl ((a.withSource other).registerVisit g) r') := by
  induction projects generalizing r r' with
  | nil => exact h
  | cons project rest ih =>
    obtain ⟨hproject, hrest⟩ := List.forall_mem_cons.mp hprojects
    rw [List.foldl_cons, List.foldl_cons]
    exact ih hrest (h.registerVisit hbuilt hagrees hproject)

variable {result : Summary} {start last : Session} (hrun : a.run g s = (.ok summary, after))
  (hlast : (a.withSource other).run g start = (.ok result, last))

include hrun hlast

theorem agreeApartFrom_of_runs : a.AgreeApartFrom g path after.registry last.registry := by
  obtain ⟨order, horder, hregistry⟩ := registry_run hrun
  obtain ⟨second, hsecond, hlastRegistry⟩ := registry_run hlast
  obtain rfl : order = second := Except.ok.inj (horder.symm.trans hsecond)
  obtain ⟨-, hprojects⟩ := hbuilt.of_topologicalOrder horder
  have hempty : a.AgreeApartFrom g path .empty .empty := fun _ _ _ => ⟨rfl, rfl⟩
  rw [hregistry, hlastRegistry]
  apply hempty.foldl hbuilt hagrees
  intro visited hvisited
  exact hprojects visited (List.mem_filter.mp hvisited).1

theorem exists_common_finding {order before rest : List Project}
    (horder : g.topologicalOrder = .ok order)
    (hvisited : order.filter (·.isLibrary) = before ++ project :: rest)
    (hproject : g.project project.path = .ok project) (hclear : a.StaysClearOf g project path) :
    ∃ finding, summary.findingsOn project.path = [finding] ∧
      result.findingsOn project.path = [finding] := by
  obtain ⟨turn, finding, hturn, hvisit, hfinding⟩ :=
    exists_finding_of_run hbuilt hrun horder hvisited
  obtain ⟨otherTurn, otherFinding, hotherTurn, hotherVisit, hotherFinding⟩ :=
    exists_finding_of_run hbuilt hlast horder hvisited
  -- The registries agree at both turns, so the reports and the findings are the same.
  have hturns : a.AgreeApartFrom g path turn.registry otherTurn.registry := by
    obtain ⟨-, hprojects⟩ := hbuilt.of_topologicalOrder horder
    have hempty : a.AgreeApartFrom g path .empty .empty := fun _ _ _ => ⟨rfl, rfl⟩
    rw [hturn, hotherTurn]
    apply hempty.foldl hbuilt hagrees
    intro visited hbefore
    have hmem : visited ∈ order.filter (·.isLibrary) := by
      rw [hvisited]
      exact List.mem_append_left _ hbefore
    exact hprojects visited (List.mem_filter.mp hmem).1
  obtain ⟨hreport, htests⟩ := reports_withSource hbuilt hagrees hturns hproject hclear
  have hsame : otherFinding = finding := by
    rw [fst_visit, fst_analyzeLibrary] at hvisit hotherVisit
    rw [hreport, htests] at hotherVisit
    exact Except.ok.inj (hotherVisit.symm.trans hvisit)
  rw [hsame] at hotherFinding
  exact ⟨finding, hfinding, hotherFinding⟩

end Comparison

/-- A run is local. Under two sources that differ only in what they say of one project, and that
report no defect of this library, a library whose dependencies do not lead to that project has the
same library folding, the same test folding and the same single entry in the summary, whether it is
a result or a failure. Under an invalid policy both runs end with the same fault and change
nothing. -/
theorem run_local (hbuilt : g.Built) (hacyclic : g.Acyclic) (hsource : a.source.ReportsNoDefect)
    (hother : other.ReportsNoDefect)
    (hagrees : ∀ project, g.project project.path = .ok project → project.path ≠ path →
      a.source.AgreesOn other project)
    (hproject : g.project project.path = .ok project) (hlibrary : project.isLibrary = true)
    (hclear : a.StaysClearOf g project path) (s start : Session) :
    (∃ fault, a.policy.check = .error fault ∧ a.run g s = (.error (.fault fault), s) ∧
      (a.withSource other).run g start = (.error (.fault fault), start)) ∨
    ∃ summary after result last, a.run g s = (.ok summary, after) ∧
      (a.withSource other).run g start = (.ok result, last) ∧
      after.registry.AgreesOn last.registry project.path ∧
      ∃ finding, summary.findingsOn project.path = [finding] ∧
        result.findingsOn project.path = [finding] := by
  cases hcheck : a.policy.check with
  | error fault =>
    refine Or.inl ⟨fault, rfl, ?_, ?_⟩
    · rw [run, hcheck]
    · rw [run, policy_withSource, hcheck]
  | ok valid =>
    obtain ⟨order, horder⟩ := ProjectGraph.exists_topologicalOrder hacyclic.orderedPaths_eq
    obtain ⟨summary, after, hrun⟩ := exists_run hcheck hsource horder s
    obtain ⟨result, last, hlast⟩ :=
      exists_run (a := a.withSource other) hcheck hother horder start
    refine Or.inr ⟨summary, after, result, last, hrun, hlast, ?_, ?_⟩
    · exact agreeApartFrom_of_runs hbuilt hagrees hrun hlast project hproject hclear
    · have hmem := mem_libraries hbuilt hacyclic horder hproject hlibrary
      obtain ⟨before, rest, hvisited⟩ := List.append_of_mem hmem
      exact exists_common_finding hbuilt hagrees hrun hlast horder hvisited hproject hclear

private theorem staysClearOf_loose : loose.StaysClearOf looseGraph ⟨":ui", true⟩ ":app" := by
  have hui : ∀ path, loose.RefersTo ⟨":ui", true⟩ path → path = ":core" := by
    intro path hrefers
    obtain ⟨variants, data, hdata, item, hitem, suffix, hdep⟩ := hrefers
    have hdeps : ∀ item ∈ data.values, item.deps = [.project ":core" ""] := by
      obtain ⟨rfl, rfl⟩ := hdata.unique ⟨rfl, rfl⟩
      decide +kernel
    rw [hdeps item hitem] at hdep
    cases List.mem_singleton.mp hdep
    rfl
  have hcore : ∀ path, ¬ loose.RefersTo ⟨":core", true⟩ path := by
    intro path hrefers
    obtain ⟨variants, data, hdata, item, hitem, suffix, hdep⟩ := hrefers
    have hdeps : ∀ item ∈ data.values, item.deps = [] := by
      obtain ⟨rfl, rfl⟩ := hdata.unique ⟨rfl, rfl⟩
      decide +kernel
    rw [hdeps item hitem] at hdep
    cases hdep
  intro target hchain
  have hreached : target = ⟨":ui", true⟩ ∨ target = ⟨":core", true⟩ := by
    induction hchain with
    | refl => exact Or.inl rfl
    | tail _ hstep ih =>
      obtain ⟨hfound, -, hrefers⟩ := hstep
      rcases ih with rfl | rfl
      · rw [hui _ hrefers] at hfound
        exact Or.inr (Except.ok.inj hfound).symm
      · exact absurd hrefers (hcore _)
  rcases hreached with rfl | rfl
  · decide
  · decide

/-- The library that the application depends on has the same folding and the same entry if the
application, which is visited before it, cannot be extracted and loses its own folding. -/
theorem run_local_loose :
    ∃ summary after result last, loose.run looseGraph .empty = (.ok summary, after) ∧
      (loose.withSource (loose.source.breakAt ":app")).run looseGraph .empty = (.ok result, last) ∧
      (after.registry.library? ":app").isSome = true ∧
      (last.registry.library? ":app").isSome = false ∧
      (after.registry.library? ":ui").isSome = true ∧
      after.registry.AgreesOn last.registry ":ui" ∧
      ∃ finding, summary.findingsOn ":ui" = [finding] ∧ result.findingsOn ":ui" = [finding] := by
  have hsource : loose.source.ReportsNoDefect := RecordedSource.reportsNoDefect _
  have hagrees : ∀ project, looseGraph.project project.path = .ok project →
      project.path ≠ ":app" → loose.source.AgreesOn (loose.source.breakAt ":app") project :=
    fun project _ hpath => loose.source.agreesOn_breakAt hpath
  have hregistered : ((loose.run looseGraph .empty).2.registry.library? ":app").isSome = true ∧
      ((loose.run looseGraph .empty).2.registry.library? ":ui").isSome = true := by
    decide +kernel
  have hbroken : (((loose.withSource (loose.source.breakAt ":app")).run looseGraph
      .empty).2.registry.library? ":app").isSome = false := by
    decide +kernel
  rcases run_local built_looseGraph acyclic_looseGraph hsource (hsource.breakAt ":app") hagrees rfl
    rfl staysClearOf_loose .empty .empty with
    ⟨fault, hinvalid, -⟩ | ⟨summary, after, result, last, hrun, hlast, hsame, hfinding⟩
  · cases hinvalid
  · rw [hrun] at hregistered
    rw [hlast] at hbroken
    exact ⟨summary, after, result, last, hrun, hlast, hregistered.1, hbroken, hregistered.2, hsame,
      hfinding⟩

end Analyzer

end BuildVariants
