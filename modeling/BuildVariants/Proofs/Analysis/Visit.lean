import BuildVariants.Analysis
import BuildVariants.Proofs.Folding.Inputs
import BuildVariants.Proofs.Registry

/-!
A visit to a library. What it changes in the registry is the entry of the visited project, and the
library folding of that entry is what the variants of the project fold to against the registry
before the visit. A visit ends the run only if the source of the variants reports a defect of this
library.
-/

set_option autoImplicit false
set_option relaxedAutoImplicit false

namespace BuildVariants

structure VariantSource.ReportsNoDefect (source : VariantSource) : Prop where
  matched : ∀ project kind failure,
    source.matched project kind = .error failure → failure.isInvariant = false
  library : ∀ project variant failure,
    source.library project variant = .error failure → failure.isInvariant = false
  unitTest : ∀ project variant failure,
    source.unitTest project variant = .error failure → failure.isInvariant = false

/-- A source in which the library variants of one path cannot be extracted. -/
def VariantSource.breakAt (source : VariantSource) (path : String) : VariantSource where
  matched := source.matched
  library := fun project variant =>
    if project.path = path then .error (.unexpected "timed out") else source.library project variant
  unitTest := source.unitTest

theorem VariantSource.ReportsNoDefect.breakAt {source : VariantSource} (h : source.ReportsNoDefect)
    (path : String) : (source.breakAt path).ReportsNoDefect where
  matched := h.matched
  library := by
    intro project variant failure hfailure
    simp only [VariantSource.breakAt] at hfailure
    split at hfailure
    · cases hfailure
      rfl
    · exact h.library project variant failure hfailure
  unitTest := h.unitTest

def Finding.path : Finding → String
  | .analyzed summary => summary.path
  | .failed failure => failure.path

theorem Records.isInvariant_of_data_eq_error {α : Type} {records : Records α} {kind : VariantKind}
    {project variant : String} {fault : Fault}
    (h : records.data kind project variant = .error fault) : fault.isInvariant = false := by
  rw [Records.data] at h
  split at h
  · cases h
  · cases h
    rfl

theorem RecordedSource.reportsNoDefect (recorded : RecordedSource) :
    recorded.source.ReportsNoDefect where
  matched := by
    intro project kind failure h
    cases h
  library := by
    intro project variant failure h
    obtain ⟨fault, hfault, rfl⟩ := mapError_eq_error_iff.mp h
    exact Records.isInvariant_of_data_eq_error hfault
  unitTest := by
    intro project variant failure h
    obtain ⟨fault, hfault, rfl⟩ := mapError_eq_error_iff.mp h
    exact Records.isInvariant_of_data_eq_error hfault

section Extraction

variable {α : Type} {extract : Project → MatchedVariant → Except Failure α} {project : Project}
  {kind : VariantKind}

theorem isInvariant_of_extractAll_eq_error {variants : List MatchedVariant}
    (h : ∀ variant ∈ variants, ∀ failure, extract project variant = .error failure →
      failure.isInvariant = false)
    {failure : Failure} (hextract : extractAll extract project kind variants = .error failure) :
    failure.isInvariant = false := by
  rcases bind_eq_error_iff.mp hextract with hvariants | ⟨entries, -, hpure⟩
  · obtain ⟨variant, hmem, hvariant⟩ := exists_mem_of_mapM_eq_error hvariants
    rcases bind_eq_error_iff.mp hvariant with hexplained | ⟨data, -, hpure⟩
    · unfold explainExtraction at hexplained
      split at hexplained
      · cases hexplained
        rfl
      · exact h variant hmem failure hexplained
    · cases hpure
  · cases hpure

theorem exists_ok_of_extractAll {variants : List MatchedVariant} {data : OrderedMap α}
    (h : extractAll extract project kind variants = .ok data) :
    ∀ variant ∈ variants, ∃ item, extract project variant = .ok item := by
  obtain ⟨entries, hentries, -⟩ := bind_eq_ok_iff.mp h
  intro variant hmem
  obtain ⟨entry, hentry⟩ := exists_ok_of_mapM_eq_ok hentries variant hmem
  obtain ⟨item, hitem, -⟩ := bind_eq_ok_iff.mp hentry
  refine ⟨item, ?_⟩
  unfold explainExtraction at hitem
  split at hitem
  · cases hitem
  · exact hitem

theorem extractAll_congr {other : Project → MatchedVariant → Except Failure α}
    {variants : List MatchedVariant}
    (h : ∀ variant ∈ variants, extract project variant = other project variant) :
    extractAll extract project kind variants = extractAll other project kind variants := by
  rw [extractAll, extractAll, mapM_congr fun variant hmem => by rw [h variant hmem]]

theorem mem_keys_of_extractAll {variants : List MatchedVariant} {data : OrderedMap α}
    (h : extractAll extract project kind variants = .ok data) {variant : String} :
    variant ∈ data.keys ↔ variant ∈ variants.map (·.name) := by
  obtain ⟨entries, hentries, hdata⟩ := bind_eq_ok_iff.mp h
  cases hdata
  rw [OrderedMap.mem_keys_ofList]
  have hnames : entries.map (·.1) = variants.map (·.name) := by
    have hstages := mapM_eq_ok_iff.mp hentries
    clear h hentries
    induction hstages with
    | nil => rfl
    | cons hstage hrest ih =>
      obtain ⟨value, -, hvalue⟩ := bind_eq_ok_iff.mp hstage
      cases hvalue
      rw [List.map_cons, List.map_cons, ih]
  rw [hnames]

theorem size_of_extractAll {variants : List MatchedVariant} {data : OrderedMap α}
    (h : extractAll extract project kind variants = .ok data)
    (hnodup : (variants.map (·.name)).Nodup) : data.size = variants.length := by
  have hperm : data.keys.Perm (variants.map (·.name)) :=
    (List.perm_ext_iff_of_nodup data.distinct hnodup).mpr fun _ => mem_keys_of_extractAll h
  have hlength := hperm.length_eq
  rwa [OrderedMap.keys, List.length_map, List.length_map] at hlength

end Extraction

theorem mem_keys_matchedBuildTypes {variants : List MatchedVariant} {variant : String} :
    variant ∈ (matchedBuildTypes variants).keys ↔ variant ∈ variants.map (·.name) := by
  rw [matchedBuildTypes, SortedMap.mem_keys_ofList, List.map_map]
  rfl

namespace Analyzer

variable (a : Analyzer)

def libraryOptions : LibraryOptions :=
  ⟨a.policy.checkDependencies, a.policy.libraryCrossBuildTypes⟩

/-- The build types of matched variants, with the default build type for every other name. -/
def buildTypeOf (variants : List MatchedVariant) (variant : String) : String :=
  ((matchedBuildTypes variants).get? variant).getD a.policy.defaultBuildType

/-- The library variants of a project, which the source lists and whose data it extracts. -/
def HasVariants (project : Project) (variants : List MatchedVariant)
    (data : OrderedMap LibraryVariant) : Prop :=
  a.source.matched project .library = .ok variants ∧
    extractAll a.source.library project .library variants = .ok data

def withSource (source : VariantSource) : Analyzer := { a with source }

def RefersTo (project : Project) (path : String) : Prop :=
  ∃ variants data, a.HasVariants project variants data ∧ ∃ item ∈ data.values, item.DependsOn path

def DependsOnLibrary (g : ProjectGraph) (project dependency : Project) : Prop :=
  g.project dependency.path = .ok dependency ∧ dependency.isLibrary = true ∧
    a.RefersTo project dependency.path

variable {a} {g : ProjectGraph} {r : Registry} {project : Project}

theorem HasVariants.unique {project : Project} {variants others : List MatchedVariant}
    {data values : OrderedMap LibraryVariant} (h : a.HasVariants project variants data)
    (hother : a.HasVariants project others values) : variants = others ∧ data = values := by
  obtain rfl : variants = others := Except.ok.inj (h.1.symm.trans hother.1)
  exact ⟨rfl, Except.ok.inj (h.2.symm.trans hother.2)⟩

theorem libraryReport_eq_ok_iff {report : FoldingReport LibraryVariant} :
    a.libraryReport g r project = .ok report ↔
      ∃ variants data, a.HasVariants project variants data ∧
        LibraryVariant.fold a.libraryOptions (a.buildTypeOf variants) (r.dependencyStates g) data =
          .ok report := by
  rw [libraryReport, bind_eq_ok_iff]
  simp only [bind_eq_ok_iff, mapError_eq_ok_iff]
  constructor
  · rintro ⟨variants, hvariants, data, hdata, hfold⟩
    exact ⟨variants, data, ⟨hvariants, hdata⟩, hfold⟩
  · rintro ⟨variants, data, ⟨hvariants, hdata⟩, hfold⟩
    exact ⟨variants, hvariants, data, hdata, hfold⟩

theorem libraryReport_eq_error_iff {failure : Failure} :
    a.libraryReport g r project = .error failure ↔
      a.source.matched project .library = .error failure ∨
      (∃ variants, a.source.matched project .library = .ok variants ∧
        extractAll a.source.library project .library variants = .error failure) ∨
      ∃ variants data fault, a.HasVariants project variants data ∧
        LibraryVariant.fold a.libraryOptions (a.buildTypeOf variants) (r.dependencyStates g) data =
          .error fault ∧ failure = .fault fault := by
  rw [libraryReport, bind_eq_error_iff]
  simp only [bind_eq_error_iff, mapError_eq_error_iff]
  constructor
  · rintro (hlisting | ⟨variants, hvariants, hextract | ⟨data, hdata, fault, hfold, hfault⟩⟩)
    · exact Or.inl hlisting
    · exact Or.inr (Or.inl ⟨variants, hvariants, hextract⟩)
    · exact Or.inr (Or.inr ⟨variants, data, fault, ⟨hvariants, hdata⟩, hfold, hfault⟩)
  · rintro (hlisting | ⟨variants, hvariants, hextract⟩ |
      ⟨variants, data, fault, ⟨hvariants, hdata⟩, hfold, hfault⟩)
    · exact Or.inl hlisting
    · exact Or.inr ⟨variants, hvariants, Or.inl hextract⟩
    · exact Or.inr ⟨variants, hvariants, Or.inr ⟨data, hdata, fault, hfold, hfault⟩⟩

theorem isInvariant_of_libraryReport_eq_error (hsource : a.source.ReportsNoDefect)
    {failure : Failure} (h : a.libraryReport g r project = .error failure) :
    failure.isInvariant = false := by
  rcases libraryReport_eq_error_iff.mp h with
    hlisting | ⟨variants, -, hextract⟩ | ⟨variants, data, fault, -, hfold, rfl⟩
  · exact hsource.matched _ _ _ hlisting
  · exact isInvariant_of_extractAll_eq_error (fun variant _ => hsource.library project variant)
      hextract
  · obtain ⟨collision, -, rfl⟩ := LibraryVariant.fold_eq_error_iff.mp hfold
    exact collision.isInvariant_fault

theorem isInvariant_of_testReport_eq_error (hsource : a.source.ReportsNoDefect)
    {failure : Failure} (h : a.testReport project = .error failure) :
    failure.isInvariant = false := by
  rw [testReport] at h
  rcases bind_eq_error_iff.mp h with hlisting | ⟨variants, -, h⟩
  · exact hsource.matched _ _ _ hlisting
  · split at h
    · cases h
    · rcases bind_eq_error_iff.mp h with hextract | ⟨data, -, h⟩
      · exact isInvariant_of_extractAll_eq_error (fun variant _ => hsource.unitTest project variant)
          hextract
      · rcases bind_eq_error_iff.mp h with hlifted | ⟨report, -, h⟩
        · obtain ⟨fault, hfold, rfl⟩ := mapError_eq_error_iff.mp hlifted
          obtain ⟨collision, -, rfl⟩ := UnitTestVariant.fold_eq_error_iff.mp hfold
          exact collision.isInvariant_fault
        · cases h

@[simp] theorem source_withSource (source : VariantSource) :
    (a.withSource source).source = source := rfl

@[simp] theorem policy_withSource (source : VariantSource) :
    (a.withSource source).policy = a.policy := rfl

theorem buildTypeOf_eq_of_mem {b : Analyzer} {variants : List MatchedVariant} {variant : String}
    (h : variant ∈ variants.map (·.name)) :
    a.buildTypeOf variants variant = b.buildTypeOf variants variant := by
  obtain ⟨buildType, hbuildType⟩ := SortedMap.mem_keys_iff.mp (mem_keys_matchedBuildTypes.mpr h)
  rw [buildTypeOf, buildTypeOf, hbuildType, Option.getD_some, Option.getD_some]

/-- The test report of a project reads the listed tests of the project and their data, and of the
policy whether tests are folded across build types. -/
theorem testReport_congr {b : Analyzer}
    (hcross : a.policy.testCrossBuildTypes = b.policy.testCrossBuildTypes)
    (hmatched : a.source.matched project .test = b.source.matched project .test)
    (hdata : ∀ variants, a.source.matched project .test = .ok variants → ∀ variant ∈ variants,
      a.source.unitTest project variant = b.source.unitTest project variant) :
    a.testReport project = b.testReport project := by
  rw [testReport, testReport, ← hmatched, hcross]
  cases hvariants : a.source.matched project .test with
  | error failure => rfl
  | ok variants =>
    simp only [bind, Except.bind]
    rw [← extractAll_congr (hdata variants hvariants)]
    cases hextract : extractAll a.source.unitTest project .test variants with
    | error failure => rfl
    | ok data =>
      have hfold : UnitTestVariant.fold b.policy.testCrossBuildTypes project.name
          (a.buildTypeOf variants) data = UnitTestVariant.fold b.policy.testCrossBuildTypes
          project.name (b.buildTypeOf variants) data :=
        UnitTestVariant.fold_congr_buildTypes fun v hv =>
          buildTypeOf_eq_of_mem ((mem_keys_of_extractAll hextract).mp hv)
      unfold buildTypeOf at hfold
      simp only [hfold]

theorem testReport_withSource {other : VariantSource}
    (hmatched : other.matched project .test = a.source.matched project .test)
    (hdata : ∀ variant, other.unitTest project variant = a.source.unitTest project variant) :
    (a.withSource other).testReport project = a.testReport project :=
  testReport_congr rfl hmatched fun _ _ variant _ => hdata variant

section Visit

variable (a g)

def registerTestsOf (r : Registry) (project : Project) : Registry :=
  if a.policy.analyzeTests then
    match a.testReport project with
    | .ok (some report) => r.registerTests project.path report.folding
    | _ => r
  else r

def reportIfAsked (tests : Except Failure (Option TestReport)) :
    Except Failure (Option TestReport) :=
  if a.policy.analyzeTests then tests else .ok none

def testFolding? : Except Failure (Option TestReport) → Option (Folding UnitTestVariant)
  | .ok tests => tests.map (·.folding)
  | .error _ => none

def summaryOf (project : Project) (library : Except Failure (FoldingReport LibraryVariant))
    (tests : Except Failure (Option TestReport)) : Except Failure ProjectSummary := do
  let report ← library
  let tests ← a.reportIfAsked tests
  return summarize project report.folding (tests.map (·.folding))

def failureOf (project : Project) (cause : Failure) : ProjectFailure :=
  ⟨project.path, cause.text, cause.code?.map (·.text)⟩

def findingOf (project : Project) : Except Failure ProjectSummary → Except Failure Finding
  | .ok summary => .ok (.analyzed summary)
  | .error cause =>
    if cause.isInvariant then .error cause else .ok (.failed (failureOf project cause))

/-- Neither report on a project fails for a defect of this library. -/
def ContinuesAt (r : Registry) (project : Project) : Prop :=
  (∀ failure, a.libraryReport g r project = .error failure → failure.isInvariant = false) ∧
    (a.policy.analyzeTests = true → ∀ failure, a.testReport project = .error failure →
      failure.isInvariant = false)

def registerVisit (r : Registry) (project : Project) : Registry :=
  match a.libraryReport g r project with
  | .ok report =>
    a.registerTestsOf (r.registerLibrary project.path report.folding) project
  | .error _ => r

variable {a g} {s : Session}

theorem registry_analyzeTestsIfAsked (a : Analyzer) (project : Project) (s : Session) :
    (a.analyzeTestsIfAsked project s).2.registry = a.registerTestsOf s.registry project := by
  rw [analyzeTestsIfAsked, registerTestsOf]
  split
  · rw [analyzeTests]
    cases a.testReport project with
    | error failure => rfl
    | ok report =>
      cases report with
      | none => rfl
      | some report => rfl
  · rfl

theorem registry_analyzeLibrary :
    (a.analyzeLibrary g project s).2.registry = a.registerVisit g s.registry project := by
  rw [analyzeLibrary, analyzeProject, registerVisit]
  cases a.libraryReport g s.registry project with
  | error failure => rfl
  | ok report =>
    have htests := registry_analyzeTestsIfAsked a project
      ((s.record (report.decisions.map (.decided project.path))).registerLibrary project.path
        report.folding)
    dsimp only
    split
    · next failure after heq =>
      rw [heq] at htests
      exact htests
    · next tests after heq =>
      rw [heq] at htests
      exact htests

theorem registry_visit (a : Analyzer) (g : ProjectGraph) (project : Project) (s : Session) :
    (a.visit g project s).2.registry = a.registerVisit g s.registry project := by
  rw [visit, ← registry_analyzeLibrary]
  split
  · next summary after heq => rw [heq]
  · next failure after heq =>
    rw [heq]
    split
    · rfl
    · rfl

theorem fst_analyzeLibrary (a : Analyzer) (g : ProjectGraph) (project : Project) (s : Session) :
    (a.analyzeLibrary g project s).1 =
      a.summaryOf project (a.libraryReport g s.registry project) (a.testReport project) := by
  rw [analyzeLibrary, analyzeProject, summaryOf]
  cases a.libraryReport g s.registry project with
  | error failure => rfl
  | ok report =>
    dsimp only
    rw [analyzeTestsIfAsked, analyzeTests, reportIfAsked]
    cases a.policy.analyzeTests with
    | false => rfl
    | true =>
      cases a.testReport project with
      | error failure => rfl
      | ok tests =>
        cases tests with
        | none => rfl
        | some report => rfl

theorem report_eq_error_of_analyzeLibrary {failure : Failure}
    (h : (a.analyzeLibrary g project s).1 = .error failure) :
    a.libraryReport g s.registry project = .error failure ∨
      a.policy.analyzeTests = true ∧ a.testReport project = .error failure := by
  rw [fst_analyzeLibrary, summaryOf] at h
  rcases bind_eq_error_iff.mp h with hlibrary | ⟨report, -, h⟩
  · exact Or.inl hlibrary
  · rcases bind_eq_error_iff.mp h with htests | ⟨tests, -, hpure⟩
    · rw [reportIfAsked] at htests
      split at htests
      · next hasked => exact Or.inr ⟨hasked, htests⟩
      · cases htests
    · cases hpure

theorem fst_visit (a : Analyzer) (g : ProjectGraph) (project : Project) (s : Session) :
    (a.visit g project s).1 = findingOf project (a.analyzeLibrary g project s).1 := by
  rw [visit]
  split
  · next summary after heq =>
    rw [heq]
    rfl
  · next cause after heq =>
    rw [heq, findingOf]
    split
    · rfl
    · rfl

theorem of_findingOf_error {cause : Failure} {finding : Finding}
    (h : findingOf project (.error cause) = .ok finding) :
    finding = .failed (failureOf project cause) ∧ cause.isInvariant = false := by
  rw [findingOf] at h
  split at h
  · cases h
  · next hcontinues =>
    cases h
    exact ⟨rfl, eq_false_of_ne_true hcontinues⟩

/-- A visit that does not end the run finds the summary of the project, or a failure that is no
defect of this library. -/
theorem visit_cases {finding : Finding} (h : (a.visit g project s).1 = .ok finding) :
    (∃ summary, (a.analyzeLibrary g project s).1 = .ok summary ∧ finding = .analyzed summary) ∨
      ∃ cause, (a.analyzeLibrary g project s).1 = .error cause ∧ cause.isInvariant = false ∧
        finding = .failed (failureOf project cause) := by
  rw [fst_visit] at h
  cases hsummary : (a.analyzeLibrary g project s).1 with
  | ok summary =>
    rw [hsummary] at h
    cases h
    exact Or.inl ⟨summary, rfl, rfl⟩
  | error cause =>
    rw [hsummary] at h
    obtain ⟨hfinding, hcontinues⟩ := of_findingOf_error h
    exact Or.inr ⟨cause, rfl, hcontinues, hfinding⟩

theorem path_of_visit {finding : Finding} (h : (a.visit g project s).1 = .ok finding) :
    finding.path = project.path := by
  rcases visit_cases h with ⟨summary, hsummary, rfl⟩ | ⟨cause, -, -, rfl⟩
  · rw [fst_analyzeLibrary, summaryOf] at hsummary
    obtain ⟨report, -, hsummary⟩ := bind_eq_ok_iff.mp hsummary
    obtain ⟨tests, -, hsummary⟩ := bind_eq_ok_iff.mp hsummary
    cases hsummary
    rfl
  · rfl

theorem continuesAt_of_reportsNoDefect (hsource : a.source.ReportsNoDefect) (g : ProjectGraph)
    (r : Registry) (project : Project) : a.ContinuesAt g r project :=
  ⟨fun _ hlibrary => isInvariant_of_libraryReport_eq_error hsource hlibrary,
    fun _ _ htests => isInvariant_of_testReport_eq_error hsource htests⟩

theorem exists_finding_of_visit (h : a.ContinuesAt g s.registry project) :
    ∃ finding, (a.visit g project s).1 = .ok finding := by
  rw [fst_visit]
  cases hsummary : (a.analyzeLibrary g project s).1 with
  | ok summary => exact ⟨_, rfl⟩
  | error cause =>
    have hcontinues : cause.isInvariant = false := by
      rcases report_eq_error_of_analyzeLibrary hsummary with hlibrary | ⟨hasked, htests⟩
      · exact h.1 cause hlibrary
      · exact h.2 hasked cause htests
    rw [findingOf, hcontinues]
    exact ⟨_, rfl⟩

@[simp] theorem library?_registerTestsOf (path : String) :
    (a.registerTestsOf r project).library? path = r.library? path := by
  unfold registerTestsOf
  split
  · split
    · rfl
    · rfl
  · rfl

theorem tests?_registerTestsOf_of_ne {path : String} (h : path ≠ project.path) :
    (a.registerTestsOf r project).tests? path = r.tests? path := by
  unfold registerTestsOf
  split
  · split
    · rw [Registry.tests?_registerTests, if_neg h]
    · rfl
  · rfl

theorem tests?_registerTestsOf_self (h : r.tests? project.path = none) :
    (a.registerTestsOf r project).tests? project.path =
      testFolding? (a.reportIfAsked (a.testReport project)) := by
  rw [registerTestsOf, reportIfAsked]
  split
  · cases a.testReport project with
    | error failure => exact h
    | ok tests =>
      cases tests with
      | none => exact h
      | some report =>
        dsimp only
        rw [Registry.tests?_registerTests, if_pos rfl]
        rfl
  · exact h

theorem library?_registerVisit_of_ne {path : String} (h : path ≠ project.path) :
    (a.registerVisit g r project).library? path = r.library? path := by
  unfold registerVisit
  split
  · rw [library?_registerTestsOf, Registry.library?_registerLibrary, if_neg h]
  · rfl

theorem tests?_registerVisit_of_ne {path : String} (h : path ≠ project.path) :
    (a.registerVisit g r project).tests? path = r.tests? path := by
  unfold registerVisit
  split
  · rw [tests?_registerTestsOf_of_ne h, Registry.tests?_registerLibrary]
  · rfl

theorem library?_registerVisit_self (h : r.library? project.path = none)
    {folding : Folding LibraryVariant} :
    (a.registerVisit g r project).library? project.path = some folding ↔
      ∃ report, a.libraryReport g r project = .ok report ∧ report.folding = folding := by
  rw [registerVisit]
  cases a.libraryReport g r project with
  | error failure => simp [h]
  | ok report =>
    dsimp only
    rw [library?_registerTestsOf, Registry.library?_registerLibrary, if_pos rfl]
    simp

end Visit

end Analyzer

end BuildVariants
