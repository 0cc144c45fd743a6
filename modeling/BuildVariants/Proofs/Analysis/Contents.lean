import BuildVariants.Proofs.Analysis.Ending
import BuildVariants.Proofs.Folding.Inputs
import BuildVariants.Proofs.ProjectGraph.Contents
import BuildVariants.Proofs.VariantSource

/-!
A run depends on the contents of its graph and of its recorded variants, and not on the order in
which these were filled. The reports on a project are the same if the graphs have the same projects
and the sources have the same variants with the same data. An acyclic graph determines the order of
the visits, so all that a run returns, registers and logs is the same.
-/

set_option autoImplicit false
set_option relaxedAutoImplicit false

namespace BuildVariants

namespace Records

variable {α : Type} {records others : Records α}

def extract (records : Records α) (kind : VariantKind) (project : Project)
    (variant : MatchedVariant) : Except Failure α :=
  (records.data kind project.path variant.name).mapError .fault

def dataOf (records : Records α) (project : String) : OrderedMap α :=
  .ofList ((records.ofProject project).entries.map fun entry => (entry.1, entry.2.2))

theorem Named.extractAll_eq (h : records.Named) (kind : VariantKind) (project : Project) :
    extractAll (records.extract kind) project kind (records.matched project.path) =
      .ok (records.dataOf project.path) := by
  rw [extractAll, bind_eq_ok_iff]
  refine ⟨_, mapM_eq_ok_iff.mpr ?_, rfl⟩
  rw [matched_eq, List.forall₂_map_left_iff, List.forall₂_map_right_iff, List.forall₂_same]
  intro entry hentry
  rw [extract, h.name_of_mem_entries hentry, data_of_mem_entries kind hentry]
  rfl

theorem get?_dataOf (records : Records α) (project name : String) :
    (records.dataOf project).get? name = ((records.ofProject project).get? name).map (·.2) := by
  have hnodup : (((records.ofProject project).entries.map fun entry =>
      (entry.1, entry.2.2)).map (·.1)).Nodup := by
    rw [List.map_map]
    exact (records.ofProject project).distinct
  apply Option.ext
  intro data
  rw [dataOf, OrderedMap.get?_ofList_of_nodup hnodup, lookup_eq_some_iff hnodup,
    Option.map_eq_some_iff]
  simp only [List.mem_map, OrderedMap.get?_eq_some_iff]
  constructor
  · rintro ⟨⟨other, recorded⟩, hmem, hentry⟩
    obtain ⟨rfl, rfl⟩ := Prod.mk.inj hentry
    exact ⟨recorded, hmem, rfl⟩
  · rintro ⟨recorded, hmem, rfl⟩
    exact ⟨(name, recorded), hmem, rfl⟩

theorem Named.get?_matchedBuildTypes (h : records.Named) (project name : String) :
    (matchedBuildTypes (records.matched project)).get? name =
      ((records.ofProject project).get? name).map (·.1.buildType) := by
  have hnodup : (((records.matched project).map fun variant =>
      (variant.name, variant.buildType)).map (·.1)).Nodup := by
    rw [List.map_map]
    exact h.nodup_names_matched project
  apply Option.ext
  intro buildType
  rw [matchedBuildTypes, SortedMap.get?_ofList_eq_some_iff hnodup, Option.map_eq_some_iff,
    matched_eq]
  simp only [List.map_map, List.mem_map, Function.comp_apply, Prod.mk.injEq]
  constructor
  · rintro ⟨entry, hentry, rfl, rfl⟩
    rw [h.name_of_mem_entries hentry]
    exact ⟨entry.2, OrderedMap.get?_eq_some_iff.mpr hentry, rfl⟩
  · rintro ⟨recorded, hrecorded, rfl⟩
    exact ⟨(name, recorded), OrderedMap.get?_eq_some_iff.mp hrecorded,
      h project name recorded hrecorded, rfl⟩

section SameRecords

variable {project : String}
  (hsame : ∀ name, (records.ofProject project).get? name = (others.ofProject project).get? name)

include hsame

theorem get?_dataOf_eq (name : String) :
    (records.dataOf project).get? name = (others.dataOf project).get? name := by
  rw [get?_dataOf, get?_dataOf, hsame]

theorem matchedBuildTypes_eq (h : records.Named) (hothers : others.Named) :
    matchedBuildTypes (records.matched project) = matchedBuildTypes (others.matched project) := by
  apply SortedMap.eq_of_get?_eq
  intro name
  rw [h.get?_matchedBuildTypes, hothers.get?_matchedBuildTypes, hsame]

theorem isEmpty_matched_eq :
    (records.matched project).isEmpty = (others.matched project).isEmpty := by
  have hlength := (OrderedMap.perm_entries_of_get?_eq hsame).length_eq
  rw [Bool.eq_iff_iff, List.isEmpty_iff_length_eq_zero, List.isEmpty_iff_length_eq_zero, matched_eq,
    matched_eq, List.length_map, List.length_map, hlength]

end SameRecords

end Records

namespace Analyzer

variable {a : Analyzer} {g other : ProjectGraph}

section Recorded

variable {recorded second : RecordedSource}

theorem libraryReport_recorded (h : recorded.libraries.Named) (r : Registry) (project : Project) :
    (a.withSource recorded.source).libraryReport g r project =
      (LibraryVariant.fold a.libraryOptions
        (a.buildTypeOf (recorded.libraries.matched project.path)) (r.dependencyStates g)
        (recorded.libraries.dataOf project.path)).mapError .fault := by
  have hdata := h.extractAll_eq .library project
  have hmatched : (a.withSource recorded.source).source.matched project .library =
      .ok (recorded.libraries.matched project.path) := rfl
  have hextract : (a.withSource recorded.source).source.library =
      recorded.libraries.extract .library := rfl
  rw [libraryReport, hmatched, hextract]
  simp only [bind, Except.bind, hdata]
  rfl

theorem testReport_recorded (h : recorded.tests.Named) (project : Project) :
    (a.withSource recorded.source).testReport project =
      if (recorded.tests.matched project.path).isEmpty then .ok none
      else
        ((UnitTestVariant.fold a.policy.testCrossBuildTypes project.name
          (a.buildTypeOf (recorded.tests.matched project.path))
          (recorded.tests.dataOf project.path)).mapError .fault).map fun report =>
            some ⟨(recorded.tests.dataOf project.path).size, report.folding⟩ := by
  have hdata := h.extractAll_eq .test project
  have hmatched : (a.withSource recorded.source).source.matched project .test =
      .ok (recorded.tests.matched project.path) := rfl
  have hextract : (a.withSource recorded.source).source.unitTest =
      recorded.tests.extract .test := rfl
  rw [testReport, hmatched, hextract]
  simp only [bind, Except.bind, hdata]
  split
  · rfl
  · rfl

end Recorded

section Reports

variable {b : Analyzer} (hpolicy : a.policy = b.policy)
  (hlibrary : ∀ r project, a.libraryReport g r project = b.libraryReport other r project)
  (htests : ∀ project, a.testReport project = b.testReport project)

include hpolicy hlibrary htests

theorem visit_eq_of_reports_eq : a.visit g = b.visit other := by
  funext project s
  have hanalyze : a.analyzeProject g project s = b.analyzeProject other project s := by
    rw [analyzeProject, analyzeProject, hlibrary]
  have hasked : a.analyzeTestsIfAsked = b.analyzeTestsIfAsked := by
    funext project s
    rw [analyzeTestsIfAsked, analyzeTestsIfAsked, analyzeTests, analyzeTests, hpolicy, htests]
  rw [visit, visit, analyzeLibrary, analyzeLibrary, hanalyze, hasked]

theorem walk_eq_of_reports_eq (projects : List Project) (s : Session) :
    a.walk g projects s = b.walk other projects s := by
  induction projects generalizing s with
  | nil => rfl
  | cons project rest ih =>
    rw [walk, walk, visit_eq_of_reports_eq hpolicy hlibrary htests]
    simp only [ih]

/-- Of the graph and the source, a run reads the order of the projects and the reports on them. -/
theorem run_eq_of_reports_eq (htime : a.timestamp = b.timestamp)
    (horder : g.topologicalOrder = other.topologicalOrder) : a.run g = b.run other := by
  funext s
  rw [run, run, hpolicy, htime, horder]
  simp only [walk_eq_of_reports_eq hpolicy hlibrary htests]

end Reports

theorem buildTypeOf_congr {variants others : List MatchedVariant}
    (h : matchedBuildTypes variants = matchedBuildTypes others) :
    a.buildTypeOf variants = a.buildTypeOf others := by
  funext variant
  rw [buildTypeOf, buildTypeOf, h]

section Comparison

variable {recorded second : RecordedSource} (hrecorded : recorded.Built) (hsecond : second.Built)
  (hrecords : recorded.SameRecords second)

include hrecorded hsecond hrecords

theorem libraryReport_eq_of_sameRecords (hprojects : g.project = other.project) (r : Registry)
    (project : Project) :
    (a.withSource recorded.source).libraryReport g r project =
      (a.withSource second.source).libraryReport other r project := by
  have hsame := hrecords.libraries project.path
  have hbuildTypes : a.buildTypeOf (recorded.libraries.matched project.path) =
      a.buildTypeOf (second.libraries.matched project.path) :=
    buildTypeOf_congr (Records.matchedBuildTypes_eq hsame hrecorded.named.1 hsecond.named.1)
  have hstates : r.dependencyStates g = r.dependencyStates other := by
    funext path
    rw [Registry.dependencyStates, Registry.dependencyStates, hprojects]
  rw [libraryReport_recorded hrecorded.named.1, libraryReport_recorded hsecond.named.1, hbuildTypes,
    hstates, LibraryVariant.fold_eq_of_get?_eq (Records.get?_dataOf_eq hsame)]

theorem testReport_eq_of_sameRecords (project : Project) :
    (a.withSource recorded.source).testReport project =
      (a.withSource second.source).testReport project := by
  have hsame := hrecords.tests project.path
  have hbuildTypes : a.buildTypeOf (recorded.tests.matched project.path) =
      a.buildTypeOf (second.tests.matched project.path) :=
    buildTypeOf_congr (Records.matchedBuildTypes_eq hsame hrecorded.named.2 hsecond.named.2)
  have hsize : (recorded.tests.dataOf project.path).size =
      (second.tests.dataOf project.path).size :=
    (OrderedMap.perm_entries_of_get?_eq (Records.get?_dataOf_eq hsame)).length_eq
  rw [testReport_recorded hrecorded.named.2, testReport_recorded hsecond.named.2, hbuildTypes,
    hsize, Records.isEmpty_matched_eq hsame,
    UnitTestVariant.fold_eq_of_get?_eq (Records.get?_dataOf_eq hsame)]

end Comparison

/-- Two graphs with the same contents and two recorded sources with the same contents give the same
run, whatever the order in which they were filled. If the graphs are acyclic, both runs return, and
they return the same summary, leave the same registry and append the same records. If they are
cyclic, both end with a dependency cycle and append nothing. Under a blank default build type both
end with the same fault and change nothing. -/
theorem run_sameContents {recorded second : RecordedSource} (hbuilt : g.Built)
    (hother : other.Built) (hcontents : g.SameContents other) (hrecorded : recorded.Built)
    (hsecond : second.Built) (hrecords : recorded.SameRecords second) (a : Analyzer) :
    (Text.isBlank a.policy.defaultBuildType = true → ∀ s,
      (a.withSource recorded.source).run g s = (.error (.fault .missingDefaultBuildType), s) ∧
      (a.withSource second.source).run other s = (.error (.fault .missingDefaultBuildType), s)) ∧
    (Text.isBlank a.policy.defaultBuildType = false →
      (g.Acyclic → ∃ summary registry records, ∀ s,
        (a.withSource recorded.source).run g s =
          (.ok summary, ⟨registry, s.log.append records⟩) ∧
        (a.withSource second.source).run other s =
          (.ok summary, ⟨registry, s.log.append records⟩)) ∧
      (¬ g.Acyclic → ∃ cycle otherCycle, ∀ s,
        (a.withSource recorded.source).run g s =
          (.error (.fault (.dependencyCycle cycle)), ⟨.empty, s.log⟩) ∧
        (a.withSource second.source).run other s =
          (.error (.fault (.dependencyCycle otherCycle)), ⟨.empty, s.log⟩))) := by
  refine ⟨fun hblank s => ⟨run_of_blank (a := a.withSource recorded.source) hblank s,
    run_of_blank (a := a.withSource second.source) hblank s⟩, fun hvalid => ?_⟩
  have hpolicy := Policy.check_eq_ok_iff.mpr hvalid
  constructor
  · intro hacyclic
    have hrun : (a.withSource recorded.source).run g = (a.withSource second.source).run other :=
      run_eq_of_reports_eq rfl
        (libraryReport_eq_of_sameRecords hrecorded hsecond hrecords hcontents.project_eq)
        (testReport_eq_of_sameRecords hrecorded hsecond hrecords) rfl
        (hcontents.topologicalOrder_eq hacyclic)
    obtain ⟨order, horder⟩ := ProjectGraph.exists_topologicalOrder hacyclic.orderedPaths_eq
    obtain ⟨summary, registry, records, hfirst⟩ := exists_records_of_run
      (a := a.withSource recorded.source) hpolicy recorded.reportsNoDefect horder
    exact ⟨summary, registry, records, fun s => ⟨hfirst s, hrun ▸ hfirst s⟩⟩
  · intro hcyclic
    obtain ⟨cycle, hcycle⟩ := hbuilt.exists_cycle hcyclic
    obtain ⟨otherCycle, hotherCycle⟩ := hother.exists_cycle (mt hcontents.acyclic_iff.mpr hcyclic)
    exact ⟨cycle, otherCycle, fun s =>
      ⟨run_of_topologicalOrder_eq_error (a := a.withSource recorded.source) hpolicy hcycle s,
        run_of_topologicalOrder_eq_error (a := a.withSource second.source) hpolicy hotherCycle s⟩⟩

def reorderedGraph : ProjectGraph where
  nodes := ⟨[(":tools", ⟨⟨":tools", false⟩, []⟩), (":app", ⟨⟨":app", true⟩, []⟩),
    (":core", ⟨⟨":core", true⟩, [":app"]⟩)], by decide⟩

/-- The paid flavor is recorded before the free one, and at first with other data. -/
def paidFirst : RecordedSource where
  libraries := (((Records.record .empty ":app" ⟨"debug", "debug", []⟩
      { name := "app", deps := [.project ":core" ""] }).record
    ":core" ⟨"paidDebug", "debug", []⟩ { name := "core-paid", compose := true }).record
    ":core" ⟨"freeDebug", "debug", []⟩ { name := "core-free" }).record
    ":core" ⟨"paidDebug", "debug", []⟩ { name := "core-paid" }
  tests := .empty

theorem built_reorderedGraph : reorderedGraph.Built := by
  have htools := ProjectGraph.Built.addProject (p := ⟨":tools", false⟩) .empty rfl
  have happ := ProjectGraph.Built.addProject (p := ⟨":app", true⟩) htools rfl
  have hcore := ProjectGraph.Built.addProject (p := ⟨":core", true⟩) happ rfl
  exact hcore.addDependency
    (show ProjectGraph.addDependency _ ":app" ":core" = .ok reorderedGraph from rfl)

theorem sameContents_reorderedGraph : sampleGraph.SameContents reorderedGraph where
  project := by
    intro path p
    rw [ProjectGraph.project_eq_ok_iff, ProjectGraph.project_eq_ok_iff]
    simp only [OrderedMap.get?_eq_some_iff, sampleGraph, reorderedGraph, List.mem_cons,
      List.not_mem_nil, or_false]
    grind
  depends := by
    intro dependent dependency
    rw [ProjectGraph.depends_iff, ProjectGraph.depends_iff]
    simp only [OrderedMap.get?_eq_some_iff, sampleGraph, reorderedGraph, List.mem_cons,
      List.not_mem_nil, or_false]
    grind

theorem built_paidFirst : paidFirst.Built :=
  (((RecordedSource.Built.empty.recordLibrary ":app" ⟨"debug", "debug", []⟩
      { name := "app", deps := [.project ":core" ""] } rfl).recordLibrary
    ":core" ⟨"paidDebug", "debug", []⟩ { name := "core-paid", compose := true } rfl).recordLibrary
    ":core" ⟨"freeDebug", "debug", []⟩ { name := "core-free" } rfl).recordLibrary
    ":core" ⟨"paidDebug", "debug", []⟩ { name := "core-paid" } rfl

theorem sameRecords_paidFirst : RecordedSource.freeFirst.SameRecords paidFirst where
  libraries := by
    intro project name
    simp only [RecordedSource.freeFirst, paidFirst, Records.get?_record]
    grind
  tests := fun _ _ => rfl

/-- The graphs list their projects and the sources their variants in different orders, and the runs
are the same. -/
theorem run_sameContents_reordered :
    RecordedSource.freeFirst.matched ":core" .library ≠ paidFirst.matched ":core" .library ∧
    ∃ summary registry records, ∀ s,
      (sample.withSource RecordedSource.freeFirst.source).run sampleGraph s =
        (.ok summary, ⟨registry, s.log.append records⟩) ∧
      (sample.withSource paidFirst.source).run reorderedGraph s =
        (.ok summary, ⟨registry, s.log.append records⟩) := by
  obtain ⟨-, hvalid⟩ := run_sameContents built_sampleGraph built_reorderedGraph
    sameContents_reorderedGraph RecordedSource.built_freeFirst built_paidFirst sameRecords_paidFirst
    sample
  obtain ⟨hacyclic, -⟩ := hvalid (by decide +kernel)
  exact ⟨by decide +kernel, hacyclic acyclic_sampleGraph⟩

end Analyzer

end BuildVariants
