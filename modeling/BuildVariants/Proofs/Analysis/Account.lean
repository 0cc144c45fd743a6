import BuildVariants.Proofs.Analysis.Ending
import BuildVariants.Proofs.Analysis.Locality
import BuildVariants.Proofs.Folding.Assignment
import BuildVariants.Proofs.VariantSource

/-!
The summary of a run, the registry and the log tell the same story. A visit adds one entry to the
summary and closes with one record about the same library: an analyzed library is registered with
what the entry says, and a library that failed has no test folding. Later visits change none of
this, so a run accounts for every library of the graph once and in the order of the visits.
-/

set_option autoImplicit false
set_option relaxedAutoImplicit false

namespace BuildVariants

namespace Finding

theorem sublist_paths_summaries (findings : List Finding) :
    ((findings.filterMap (·.summary?)).map (·.path)).Sublist (findings.map (·.path)) := by
  induction findings with
  | nil => exact List.Sublist.slnil
  | cons finding rest ih =>
    cases finding with
    | analyzed summary => exact ih.cons_cons summary.path
    | failed failure => exact ih.cons failure.path

theorem sublist_paths_failures (findings : List Finding) :
    ((findings.filterMap (·.failure?)).map (·.path)).Sublist (findings.map (·.path)) := by
  induction findings with
  | nil => exact List.Sublist.slnil
  | cons finding rest ih =>
    cases finding with
    | analyzed summary => exact ih.cons summary.path
    | failed failure => exact ih.cons_cons failure.path

theorem perm_paths (findings : List Finding) :
    (findings.map (·.path)).Perm ((findings.filterMap (·.summary?)).map (·.path) ++
      (findings.filterMap (·.failure?)).map (·.path)) := by
  induction findings with
  | nil => exact List.Perm.refl _
  | cons finding rest ih =>
    cases finding with
    | analyzed summary => exact ih.cons summary.path
    | failed failure => exact (ih.cons failure.path).trans List.perm_middle.symm

end Finding

def LogRecord.closesVisit (r : LogRecord) : Bool :=
  r.operation = "library_compressed" || r.operation = "project_failed"

theorem RunLog.forOperation_eq {records closing : List LogRecord} {operation : String}
    (h : records.filter (·.closesVisit) = closing)
    (hcloses : operation = "library_compressed" ∨ operation = "project_failed") :
    RunLog.forOperation ⟨records⟩ operation = closing.filter (·.operation = operation) := by
  rw [← h, forOperation, List.filter_filter]
  apply List.filter_congr
  intro r hr
  simp only [LogRecord.closesVisit]
  grind

namespace Analyzer

variable {a : Analyzer} {g : ProjectGraph} {r : Registry} {project : Project}

/-- What a run says of a library and the record that closes the visit to it agree with a
registry. -/
inductive Accounts (r : Registry) (project : Project) : Finding × LogRecord → Prop
  | analyzed {library : Folding LibraryVariant}
      (hlibrary : r.library? project.path = some library) :
      Accounts r project (.analyzed (summarize project library (r.tests? project.path)),
        .analyzed project.path library)
  | failed {cause : Failure} (htests : r.tests? project.path = none) :
      Accounts r project (.failed (failureOf project cause), .failed project.path cause)

theorem Accounts.of_agreesOn {other : Registry} {entry : Finding × LogRecord}
    (h : Accounts r project entry) (hagrees : other.AgreesOn r project.path) :
    Accounts other project entry := by
  cases h with
  | analyzed hlibrary =>
    rw [← hagrees.tests]
    exact .analyzed (hagrees.library.trans hlibrary)
  | failed htests => exact .failed (hagrees.tests.trans htests)

section Visit

theorem filter_stageRecords (a : Analyzer) (project : Project)
    (library : Except Failure (FoldingReport LibraryVariant))
    (tests : Except Failure (Option TestReport)) :
    (a.stageRecords project library tests).filter (·.closesVisit) = [] := by
  have htests : (a.testRecords project tests).filter (·.closesVisit) = [] := by
    unfold testRecords
    split
    · split
      · rfl
      · rfl
      · rfl
    · rfl
  cases library with
  | error cause => rfl
  | ok report =>
    rw [stageRecords, List.filter_append, htests, List.append_nil, List.filter_eq_nil_iff]
    intro record hrecord
    obtain ⟨decision, -, rfl⟩ := List.mem_map.mp hrecord
    exact Bool.false_ne_true

/-- A visit to a library without a test folding accounts for it, if it does not end the run. -/
theorem exists_accounts_of_visit (hfresh : r.tests? project.path = none) {finding : Finding}
    (h : a.findingAt g project r = .ok finding) :
    ∃ record, (a.recordsAt g project r).filter (·.closesVisit) = [record] ∧
      Accounts (a.registerVisit g r project) project (finding, record) := by
  have hclosing : (a.recordsAt g project r).filter (·.closesVisit) =
      (closingRecords project (a.resultOf (a.libraryReport g r project)
        (a.testReport project))).filter (·.closesVisit) := by
    rw [recordsAt, List.filter_append, filter_stageRecords, List.nil_append]
  have hfailed : ∀ {cause : Failure}, findingOf project (.error cause) = .ok finding →
      finding = .failed (failureOf project cause) ∧
        closingRecords project (.error cause) = [.failed project.path cause] := by
    intro cause hfinding
    obtain ⟨hfailure, hcontinues⟩ := of_findingOf_error hfinding
    exact ⟨hfailure, by rw [closingRecords, hcontinues]; rfl⟩
  rw [hclosing]
  rw [findingAt, summaryOf] at h
  rw [resultOf, registerVisit]
  cases hlibrary : a.libraryReport g r project with
  | error cause =>
    rw [hlibrary] at h
    obtain ⟨rfl, hrecords⟩ := hfailed h
    exact ⟨_, congrArg (List.filter _) hrecords, .failed hfresh⟩
  | ok report =>
    rw [hlibrary] at h
    have hempty : (r.registerLibrary project.path report.folding).tests? project.path = none :=
      hfresh
    have hregistered :
        (a.registerTestsOf (r.registerLibrary project.path report.folding) project).library?
          project.path = some report.folding := by
      rw [library?_registerTestsOf, Registry.library?_registerLibrary, if_pos rfl]
    have htests := tests?_registerTestsOf_self (a := a) hempty
    cases hasked : a.reportIfAsked (a.testReport project) with
    | error cause =>
      simp only [hasked, bind, Except.bind] at h htests ⊢
      obtain ⟨rfl, hrecords⟩ := hfailed h
      exact ⟨_, congrArg (List.filter _) hrecords, .failed htests⟩
    | ok tests =>
      simp only [hasked, bind, Except.bind] at h htests ⊢
      cases h
      refine ⟨.analyzed project.path report.folding, rfl, ?_⟩
      have haccount := Accounts.analyzed hregistered
      rwa [htests] at haccount

end Visit

section Walk

variable {projects : List Project} {findings : List Finding} {s after : Session}

/-- A walk accounts for each library that it visits, in the order of the visits. -/
theorem exists_accounts_of_walk (hnodup : (projects.map (·.path)).Nodup)
    (hfresh : ∀ project ∈ projects, s.registry.tests? project.path = none)
    (h : a.walk g projects s = (.ok findings, after)) :
    ∃ entries records, findings = entries.map (·.1) ∧ after.log = s.log.append records ∧
      records.filter (·.closesVisit) = entries.map (·.2) ∧
      List.Forall₂ (Accounts after.registry) projects entries := by
  induction projects generalizing s findings with
  | nil =>
    cases h
    exact ⟨[], [], rfl, (RunLog.append_nil _).symm, rfl, .nil⟩
  | cons project rest ih =>
    obtain ⟨finding, mid, others, hvisit, hrest, rfl⟩ := walk_cons_eq_ok h
    obtain ⟨hpath, hnodup⟩ := List.nodup_cons.mp hnodup
    obtain ⟨hfirst, hothers⟩ := List.forall_mem_cons.mp hfresh
    rw [visit_eq] at hvisit
    obtain ⟨hfinding, rfl⟩ := Prod.mk.inj hvisit
    obtain ⟨record, hrecord, haccounts⟩ := exists_accounts_of_visit hfirst hfinding
    have hlater : ∀ other ∈ rest,
        (a.registerVisit g s.registry project).tests? other.path = none := by
      intro other hother
      have hne : other.path ≠ project.path := by
        rintro hsame
        exact hpath (List.mem_map.mpr ⟨other, hother, hsame⟩)
      rw [tests?_registerVisit_of_ne hne]
      exact hothers other hother
    obtain ⟨entries, records, rfl, hlog, hclosing, hentries⟩ := ih hnodup hlater hrest
    -- No later visit is to this project, so what was registered for it stays.
    have hkept : after.registry.AgreesOn (a.registerVisit g s.registry project) project.path := by
      rw [registry_walk hrest]
      exact ⟨library?_foldl_of_notMem hpath, tests?_foldl_of_notMem hpath⟩
    refine ⟨(finding, record) :: entries, a.recordsAt g project s.registry ++ records, rfl, ?_, ?_,
      .cons (haccounts.of_agreesOn hkept) hentries⟩
    · rw [hlog, RunLog.append_append]
    · rw [List.filter_append, hrecord, hclosing]
      rfl

end Walk

section Entries

variable {projects : List Project} {entries : List (Finding × LogRecord)}
  (h : List.Forall₂ (Accounts r) projects entries)

include h

theorem paths_of_accounts : (entries.map (·.1)).map (·.path) = projects.map (·.path) := by
  induction h with
  | nil => rfl
  | cons hfirst hrest ih =>
    rw [List.map_cons, List.map_cons, List.map_cons, ih]
    cases hfirst with
    | analyzed hlibrary => rfl
    | failed htests => rfl

theorem projects_of_accounts :
    (entries.map (·.2)).map (·.project) = (projects.map (·.path)).map some := by
  induction h with
  | nil => rfl
  | cons hfirst hrest ih =>
    rw [List.map_cons, List.map_cons, List.map_cons, List.map_cons, ih]
    cases hfirst with
    | analyzed hlibrary => rfl
    | failed htests => rfl

theorem analyzed_of_accounts :
    List.Forall₂ (fun summary record => ∃ library, r.library? summary.path = some library ∧
        record = .analyzed summary.path library)
      ((entries.map (·.1)).filterMap (·.summary?))
      ((entries.map (·.2)).filter (·.operation = "library_compressed")) := by
  induction h with
  | nil => exact .nil
  | cons hfirst hrest ih =>
    cases hfirst with
    | analyzed hlibrary => exact .cons ⟨_, hlibrary, rfl⟩ ih
    | failed htests => exact ih

theorem failed_of_accounts :
    List.Forall₂ (fun failure record => ∃ cause, record = .failed failure.path cause ∧
        failure.message = cause.text ∧ failure.code = cause.code?.map (·.text))
      ((entries.map (·.1)).filterMap (·.failure?))
      ((entries.map (·.2)).filter (·.operation = "project_failed")) := by
  induction h with
  | nil => exact .nil
  | cons hfirst hrest ih =>
    cases hfirst with
    | analyzed hlibrary => exact ih
    | failed htests => exact .cons ⟨_, rfl, rfl, rfl⟩ ih

theorem registered_of_accounts {summary : ProjectSummary}
    (hsummary : summary ∈ (entries.map (·.1)).filterMap (·.summary?)) :
    ∃ library, r.library? summary.path = some library ∧
      summary.variantCount = library.assignment.size ∧ summary.suffixes = library.suffixes ∧
      summary.testSuffixes = ((r.tests? summary.path).map (·.suffixes)).getD [] := by
  induction h with
  | nil => cases hsummary
  | cons hfirst hrest ih =>
    cases hfirst with
    | analyzed hlibrary =>
      rcases List.mem_cons.mp hsummary with rfl | hlater
      · exact ⟨_, hlibrary, rfl, rfl, rfl⟩
      · exact ih hlater
    | failed htests => exact ih hsummary

theorem mem_summaries_of_accounts {path : String} (hpath : path ∈ projects.map (·.path))
    {tests : Folding UnitTestVariant} (htests : r.tests? path = some tests) :
    path ∈ ((entries.map (·.1)).filterMap (·.summary?)).map (·.path) := by
  induction h with
  | nil => cases hpath
  | cons hfirst hrest ih =>
    rcases List.mem_cons.mp hpath with rfl | hlater
    · cases hfirst with
      | analyzed hlibrary => exact List.mem_cons_self
      | failed hnone =>
        rw [hnone] at htests
        cases htests
    · cases hfirst with
      | analyzed hlibrary => exact List.mem_cons_of_mem _ (ih hlater)
      | failed hnone => exact ih hlater

end Entries

end Analyzer

/-- The recorded variants as a source in which the extraction of some of them fails. -/
def RecordedSource.failingWhere (recorded : RecordedSource)
    (fails : VariantKind → Project → MatchedVariant → Option Failure) : VariantSource where
  matched := recorded.source.matched
  library := fun project variant =>
    (fails .library project variant).elim (recorded.source.library project variant) .error
  unitTest := fun project variant =>
    (fails .test project variant).elim (recorded.source.unitTest project variant) .error

namespace Analyzer

variable {a : Analyzer} {g : ProjectGraph} {s after : Session} {summary : Summary}

/-- A summary, a registry and the records of a run agree on the libraries of a graph whose paths are
visited in an order. -/
structure OneAccount (g : ProjectGraph) (recorded : RecordedSource) (paths : List String)
    (summary : Summary) (registry : Registry) (records : List LogRecord) : Prop where
  disjoint : (summary.projects.map (·.path)).Disjoint (summary.failures.map (·.path))
  nodup_projects : (summary.projects.map (·.path)).Nodup
  nodup_failures : (summary.failures.map (·.path)).Nodup
  projects_ordered : (summary.projects.map (·.path)).Sublist paths
  failures_ordered : (summary.failures.map (·.path)).Sublist paths
  libraries : ∀ path,
    (path ∈ summary.projects.map (·.path) ∨ path ∈ summary.failures.map (·.path)) ↔
      ∃ project, g.project path = .ok project ∧ project.isLibrary = true
  /-- What is registered for a library is what its entry in the summary says. -/
  registered : ∀ entry ∈ summary.projects, ∃ library,
    registry.library? entry.path = some library ∧ entry.suffixes = library.suffixes ∧
      entry.variantCount = (recorded.matched entry.path .library).length ∧
      entry.testSuffixes = ((registry.tests? entry.path).map (·.suffixes)).getD []
  tested : ∀ path tests, registry.tests? path = some tests →
    path ∈ summary.projects.map (·.path) ∧ ∃ library, registry.library? path = some library
  /-- The entries and the records of analyzed libraries correspond one to one, in the same order. -/
  analyzed_logged : List.Forall₂ (fun entry record => ∃ library,
      registry.library? entry.path = some library ∧ record = .analyzed entry.path library)
    summary.projects (RunLog.forOperation ⟨records⟩ "library_compressed")
  failed_logged : List.Forall₂ (fun failure record => ∃ cause, record = .failed failure.path cause ∧
      failure.message = cause.text ∧ failure.code = cause.code?.map (·.text))
    summary.failures (RunLog.forOperation ⟨records⟩ "project_failed")
  /-- The records of both kinds together follow the order of the libraries. -/
  logged_ordered : (records.filter (·.closesVisit)).map (·.project) =
    (paths.filter g.hasLibrary).map some

theorem paths_libraries (hbuilt : g.Built) {order : List Project}
    (horder : g.topologicalOrder = .ok order) :
    (order.filter (·.isLibrary)).map (·.path) = (order.map (·.path)).filter g.hasLibrary := by
  obtain ⟨-, hprojects⟩ := hbuilt.of_topologicalOrder horder
  rw [List.filter_map]
  refine congrArg _ (List.filter_congr fun project hproject => ?_)
  exact (ProjectGraph.hasLibrary_eq (hprojects project hproject)).symm

theorem mem_paths_libraries_iff (hbuilt : g.Built) {order : List Project}
    (horder : g.topologicalOrder = .ok order) {path : String} :
    path ∈ (order.filter (·.isLibrary)).map (·.path) ↔
      ∃ project, g.project path = .ok project ∧ project.isLibrary = true := by
  constructor
  · intro hpath
    obtain ⟨project, hproject, rfl⟩ := List.mem_map.mp hpath
    obtain ⟨hmem, hlibrary⟩ := List.mem_filter.mp hproject
    exact ⟨project, (hbuilt.of_topologicalOrder horder).2 project hmem, hlibrary⟩
  · rintro ⟨project, hproject, hlibrary⟩
    obtain rfl := hbuilt.path_eq_of_project hproject
    exact List.mem_map_of_mem
      (mem_libraries hbuilt (hbuilt.acyclic_of_topologicalOrder horder) horder hproject hlibrary)

theorem exists_accounts_of_run (hbuilt : g.Built) (hrun : a.run g s = (.ok summary, after)) :
    ∃ order entries records, g.topologicalOrder = .ok order ∧ after.log = s.log.append records ∧
      records.filter (·.closesVisit) = entries.map (·.2) ∧
      List.Forall₂ (Accounts after.registry) (order.filter (·.isLibrary)) entries ∧
      summary.projects = (entries.map (·.1)).filterMap (·.summary?) ∧
      summary.failures = (entries.map (·.1)).filterMap (·.failure?) := by
  obtain ⟨order, findings, last, horder, hwalk, hsummary, rfl⟩ := walk_of_run hrun
  obtain ⟨entries, records, rfl, hlog, hclosing, hentries⟩ := exists_accounts_of_walk
    (nodup_libraries hbuilt horder) (fun _ _ => Registry.tests?_empty _) hwalk
  refine ⟨order, entries, .started order :: records ++ [.completed summary], horder, ?_, ?_,
    hentries, congrArg Summary.projects hsummary, congrArg Summary.failures hsummary⟩
  · rw [Session.record, hlog, RunLog.append_append, RunLog.append_append]
    rfl
  · rw [List.filter_append, List.filter_cons_of_neg Bool.false_ne_true,
      List.filter_cons_of_neg Bool.false_ne_true, hclosing, List.filter_nil, List.append_nil]

section Recorded

variable {recorded : RecordedSource} (hbuilt : g.Built) (hrecorded : recorded.Built)
  {fails : VariantKind → Project → MatchedVariant → Option Failure}
  (hrun : (a.withSource (recorded.failingWhere fails)).run g s = (.ok summary, after))

include hbuilt hrecorded hrun

theorem size_assignment_of_run {path : String} {library : Folding LibraryVariant}
    (h : after.registry.library? path = some library) :
    library.assignment.size = (recorded.matched path .library).length := by
  obtain ⟨paths, -, hsettles⟩ := settles_run hbuilt hrun
  obtain ⟨project, hproject, -⟩ := ProjectGraph.exists_library (hsettles.visited h).2
  obtain ⟨variants, data, report, hdata, hreport, rfl⟩ := hsettles.foldsTo hproject h
  obtain rfl : recorded.libraries.matched project.path = variants := Except.ok.inj hdata.1
  rw [LibraryVariant.size_assignment hreport,
    size_of_extractAll hdata.2 (hrecorded.named.1.nodup_names_matched project.path),
    hbuilt.path_eq_of_project hproject]
  rfl

end Recorded

/-- A run over recorded variants that returns gives one account in its summary, its registry and its
log, also if the extraction of some of the variants fails. -/
theorem run_accounts {recorded : RecordedSource} (hbuilt : g.Built) (hrecorded : recorded.Built)
    {fails : VariantKind → Project → MatchedVariant → Option Failure}
    (hrun : (a.withSource (recorded.failingWhere fails)).run g s = (.ok summary, after)) :
    ∃ paths records, g.orderedPaths = .ok paths ∧ after.log = s.log.append records ∧
      OneAccount g recorded paths summary after.registry records := by
  obtain ⟨order, entries, records, horder, hlog, hclosing, hentries, hprojects, hfailures⟩ :=
    exists_accounts_of_run hbuilt hrun
  obtain ⟨hordered, -⟩ := hbuilt.of_topologicalOrder horder
  have hpaths := paths_of_accounts hentries
  have hperm := Finding.perm_paths (entries.map (·.1))
  have hprojectsOrder := Finding.sublist_paths_summaries (entries.map (·.1))
  have hfailuresOrder := Finding.sublist_paths_failures (entries.map (·.1))
  have hlibraries : ((order.filter (·.isLibrary)).map (·.path)).Sublist (order.map (·.path)) :=
    List.filter_sublist.map _
  rw [hpaths, ← hprojects] at hprojectsOrder
  rw [hpaths, ← hfailures] at hfailuresOrder
  rw [hpaths, ← hprojects, ← hfailures] at hperm
  obtain ⟨hnodupProjects, hnodupFailures, hdisjoint⟩ :=
    List.nodup_append'.mp (hperm.nodup (nodup_libraries hbuilt horder))
  have hmem : ∀ path,
      (path ∈ summary.projects.map (·.path) ∨ path ∈ summary.failures.map (·.path)) ↔
        ∃ project, g.project path = .ok project ∧ project.isLibrary = true := by
    intro path
    rw [← List.mem_append, ← hperm.mem_iff, mem_paths_libraries_iff hbuilt horder]
  have hregistered : ∀ entry ∈ summary.projects, ∃ library,
      after.registry.library? entry.path = some library ∧ entry.suffixes = library.suffixes ∧
        entry.variantCount = (recorded.matched entry.path .library).length ∧
        entry.testSuffixes = ((after.registry.tests? entry.path).map (·.suffixes)).getD [] := by
    intro entry hentry
    rw [hprojects] at hentry
    obtain ⟨library, hlibrary, hcount, hsuffixes, htests⟩ := registered_of_accounts hentries hentry
    rw [size_assignment_of_run hbuilt hrecorded hrun hlibrary] at hcount
    exact ⟨library, hlibrary, hsuffixes, hcount, htests⟩
  refine ⟨order.map (·.path), records, hordered, hlog, ?_⟩
  constructor
  case disjoint => exact hdisjoint
  case nodup_projects => exact hnodupProjects
  case nodup_failures => exact hnodupFailures
  case projects_ordered => exact hprojectsOrder.trans hlibraries
  case failures_ordered => exact hfailuresOrder.trans hlibraries
  case libraries => exact hmem
  case registered => exact hregistered
  case tested =>
    intro path tests htests
    have hvisited : path ∈ (order.filter (·.isLibrary)).map (·.path) := by
      obtain ⟨paths, hpaths, hsettles⟩ := settles_run hbuilt hrun
      obtain rfl : order.map (·.path) = paths := Except.ok.inj (hordered.symm.trans hpaths)
      rw [paths_libraries hbuilt horder, List.mem_filter]
      exact hsettles.visited_of_tests htests
    have hmemProjects := mem_summaries_of_accounts hentries hvisited htests
    rw [← hprojects] at hmemProjects
    obtain ⟨entry, hentry, rfl⟩ := List.mem_map.mp hmemProjects
    obtain ⟨library, hlibrary, -⟩ := hregistered entry hentry
    exact ⟨hmemProjects, library, hlibrary⟩
  case analyzed_logged =>
    rw [hprojects, RunLog.forOperation_eq hclosing (Or.inl rfl)]
    exact analyzed_of_accounts hentries
  case failed_logged =>
    rw [hfailures, RunLog.forOperation_eq hclosing (Or.inr rfl)]
    exact failed_of_accounts hentries
  case logged_ordered =>
    rw [hclosing, projects_of_accounts hentries, paths_libraries hbuilt horder]

/-- Two recorded flavors of the library with a test, and one variant of the application. -/
def testedCore : RecordedSource :=
  { RecordedSource.freeFirst with
    tests := Records.record .empty ":core" ⟨"freeDebug", "debug", []⟩ { name := "core-free-test" } }

theorem built_testedCore : testedCore.Built :=
  RecordedSource.built_freeFirst.recordTest ":core" ⟨"freeDebug", "debug", []⟩
    { name := "core-free-test" } rfl

/-- An analysis in which the variants of the application cannot be extracted. -/
def withoutApp : Analyzer :=
  sample.withSource (testedCore.failingWhere fun _ project _ =>
    if project.path = ":app" then some (.unexpected "timed out") else none)

theorem run_withoutApp : ∃ summary after, withoutApp.run sampleGraph .empty = (.ok summary, after) ∧
    summary.projects.map (·.path) = [":core"] ∧ summary.failures.map (·.path) = [":app"] := by
  have hanswer : (withoutApp.run sampleGraph .empty).1.map (fun summary =>
      (summary.projects.map (·.path), summary.failures.map (·.path))) =
        .ok ([":core"], [":app"]) := by
    decide +kernel
  obtain ⟨summary, hrun, hpaths⟩ := exists_run_of_map_eq hanswer
  obtain ⟨hprojects, hfailures⟩ := Prod.mk.inj hpaths
  exact ⟨summary, _, hrun, hprojects, hfailures⟩

/-- The library is analyzed and the application fails, and the log has one record for each. -/
theorem run_accounts_withoutApp :
    ∃ summary after paths records, withoutApp.run sampleGraph .empty = (.ok summary, after) ∧
      summary.projects.map (·.path) = [":core"] ∧ summary.failures.map (·.path) = [":app"] ∧
      after.log = Session.empty.log.append records ∧
      OneAccount sampleGraph testedCore paths summary after.registry records ∧
      (records.filter (·.closesVisit)).map (·.project) = [some ":core", some ":app"] := by
  obtain ⟨summary, after, hrun, hprojects, hfailures⟩ := run_withoutApp
  obtain ⟨paths, records, hpaths, hlog, haccount⟩ :=
    run_accounts built_sampleGraph built_testedCore hrun
  have hordered : sampleGraph.orderedPaths = .ok [":core", ":app", ":tools"] := by decide +kernel
  obtain rfl := Except.ok.inj (hordered.symm.trans hpaths)
  exact ⟨summary, after, _, records, hrun, hprojects, hfailures, hlog, haccount,
    haccount.logged_ordered.trans (by decide +kernel)⟩

end Analyzer

end BuildVariants
