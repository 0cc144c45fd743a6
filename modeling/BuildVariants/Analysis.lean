import BuildVariants.Analysis.Records
import BuildVariants.Policy
import BuildVariants.ProjectGraph.Order
import BuildVariants.Registry
import BuildVariants.VariantSource

/-!
The analysis of a graph of projects. A run visits the libraries with dependencies first. It folds
the library variants of each against the foldings that are registered, registers the result and
then folds its test variants. A project that fails is recorded and the run goes on, except where
the failure is a defect of the library itself.
-/

set_option autoImplicit false
set_option relaxedAutoImplicit false

namespace BuildVariants

def Fault.extractionFailed (project variant : String) (kind : VariantKind) (cause : String) :
    Fault where
  kind := .extraction
  message := "Variant data extraction failed."
  hint := some "Check the build model of the project."
  context := .ofList
    [("project", project), ("variant", variant), ("kind", kind.text), ("cause", cause)]

/-- What an analysis works with: the source of the variants, its policy, and the time that its
summary states. -/
structure Analyzer where
  source : VariantSource
  policy : Policy
  timestamp : String

/-- What an analysis leaves behind: the registered foldings and the log. -/
structure Session where
  registry : Registry
  log : RunLog

namespace Session

def empty : Session := ⟨.empty, .empty⟩

def record (s : Session) (records : List LogRecord) : Session :=
  { s with log := s.log.append records }

def registerLibrary (s : Session) (path : String) (folding : Folding LibraryVariant) : Session :=
  { s with registry := s.registry.registerLibrary path folding }

def registerTests (s : Session) (path : String) (folding : Folding UnitTestVariant) : Session :=
  { s with registry := s.registry.registerTests path folding }

end Session

/-- The folded test variants of a project and their number. -/
structure TestReport where
  variantCount : Nat
  folding : Folding UnitTestVariant
  deriving DecidableEq

/-- What a run says about a project. -/
inductive Finding
  | analyzed (summary : ProjectSummary)
  | failed (failure : ProjectFailure)
  deriving DecidableEq

namespace Finding

def summary? : Finding → Option ProjectSummary
  | .analyzed summary => some summary
  | .failed _ => none

def failure? : Finding → Option ProjectFailure
  | .analyzed _ => none
  | .failed failure => some failure

end Finding

/-- What the variants of a project know about a path: a library of the graph is tracked, and it is
missing until its folding is registered. -/
def Registry.dependencyStates (r : Registry) (g : ProjectGraph) : DependencyStates := fun path =>
  match g.project path with
  | .error _ => .untracked
  | .ok project =>
    if project.isLibrary then
      match r.library? path with
      | some folding => .settled folding
      | none => .missing
    else .untracked

/-- An extraction that failed for a reason outside this library becomes an extraction fault. -/
def explainExtraction {α : Type} (project : Project) (variant : MatchedVariant)
    (kind : VariantKind) : Except Failure α → Except Failure α
  | .error (.unexpected cause) =>
    .error (.fault (.extractionFailed project.path variant.name kind cause))
  | answer => answer

/-- The data of the matched variants under their names, unless an extraction fails. -/
def extractAll {α : Type} (extract : Project → MatchedVariant → Except Failure α)
    (project : Project) (kind : VariantKind) (variants : List MatchedVariant) :
    Except Failure (OrderedMap α) := do
  let entries ← variants.mapM fun variant => do
    return (variant.name, ← explainExtraction project variant kind (extract project variant))
  return .ofList entries

def matchedBuildTypes (variants : List MatchedVariant) : SortedMap String :=
  .ofList (variants.map fun variant => (variant.name, variant.buildType))

namespace Analyzer

/-- The folding of the library variants of a project against the registered foldings. -/
def libraryReport (a : Analyzer) (g : ProjectGraph) (r : Registry) (project : Project) :
    Except Failure (FoldingReport LibraryVariant) := do
  let variants ← a.source.matched project .library
  let data ← extractAll a.source.library project .library variants
  let buildTypes := matchedBuildTypes variants
  (LibraryVariant.fold ⟨a.policy.checkDependencies, a.policy.libraryCrossBuildTypes⟩
    (fun variant => (buildTypes.get? variant).getD a.policy.defaultBuildType)
    (r.dependencyStates g) data).mapError .fault

def testReport (a : Analyzer) (project : Project) : Except Failure (Option TestReport) := do
  let variants ← a.source.matched project .test
  if variants.isEmpty then return none
  let data ← extractAll a.source.unitTest project .test variants
  let buildTypes := matchedBuildTypes variants
  let report ← (UnitTestVariant.fold a.policy.testCrossBuildTypes project.name
    (fun variant => (buildTypes.get? variant).getD a.policy.defaultBuildType) data).mapError .fault
  return some ⟨data.size, report.folding⟩

/-- Folds the library variants of a project and records the decisions, without registering the
result. -/
def analyzeProject (a : Analyzer) (g : ProjectGraph) (project : Project) (s : Session) :
    Except Failure (Folding LibraryVariant) × Session :=
  match a.libraryReport g s.registry project with
  | .error failure => (.error failure, s)
  | .ok report =>
    (.ok report.folding, s.record (report.decisions.map (.decided project.path)))

/-- Folds the test variants of a project and registers the result, if it has any. -/
def analyzeTests (a : Analyzer) (project : Project) (s : Session) :
    Except Failure (Option (Folding UnitTestVariant)) × Session :=
  match a.testReport project with
  | .error failure => (.error failure, s)
  | .ok none => (.ok none, s.record [.testsSkipped project.path])
  | .ok (some report) =>
    (.ok (some report.folding),
      (s.record [.testsFolded project.path report.variantCount report.folding]).registerTests
        project.path report.folding)

def analyzeTestsIfAsked (a : Analyzer) (project : Project) (s : Session) :
    Except Failure (Option (Folding UnitTestVariant)) × Session :=
  if a.policy.analyzeTests then a.analyzeTests project s else (.ok none, s)

def summarize (project : Project) (library : Folding LibraryVariant)
    (tests : Option (Folding UnitTestVariant)) : ProjectSummary where
  path := project.path
  variantCount := library.assignment.size
  suffixes := library.suffixes
  testSuffixes := (tests.map (·.suffixes)).getD []

/-- Folds the library variants of a project, registers the result, and then folds its test
variants, which may fail and leave the registered library folding. -/
def analyzeLibrary (a : Analyzer) (g : ProjectGraph) (project : Project) (s : Session) :
    Except Failure ProjectSummary × Session :=
  match a.analyzeProject g project s with
  | (.error failure, s) => (.error failure, s)
  | (.ok library, s) =>
    match a.analyzeTestsIfAsked project (s.registerLibrary project.path library) with
    | (.error failure, s) => (.error failure, s)
    | (.ok tests, s) =>
      (.ok (summarize project library tests), s.record [.analyzed project.path library])

/-- Visits a library. A failure is recorded, except for a defect of this library, which ends the
run. -/
def visit (a : Analyzer) (g : ProjectGraph) (project : Project) (s : Session) :
    Except Failure Finding × Session :=
  match a.analyzeLibrary g project s with
  | (.ok summary, s) => (.ok (.analyzed summary), s)
  | (.error failure, s) =>
    if failure.isInvariant then (.error failure, s)
    else
      (.ok (.failed ⟨project.path, failure.text, failure.code?.map (·.text)⟩),
        s.record [.failed project.path failure])

def walk (a : Analyzer) (g : ProjectGraph) :
    List Project → Session → Except Failure (List Finding) × Session
  | [], s => (.ok [], s)
  | project :: rest, s =>
    match a.visit g project s with
    | (.error failure, s) => (.error failure, s)
    | (.ok finding, s) =>
      match walk a g rest s with
      | (.error failure, s) => (.error failure, s)
      | (.ok findings, s) => (.ok (finding :: findings), s)

/-- Analyzes a graph. The foldings of an earlier run are forgotten, and its log stays. Nothing is
done under an invalid policy, and a graph with a cycle has no order to visit it in. -/
def run (a : Analyzer) (g : ProjectGraph) (s : Session) : Except Failure Summary × Session :=
  match a.policy.check with
  | .error fault => (.error (.fault fault), s)
  | .ok () =>
    let s := { s with registry := .empty }
    match g.topologicalOrder with
    | .error fault => (.error (.fault fault), s)
    | .ok order =>
      match a.walk g (order.filter (·.isLibrary)) (s.record [.started order]) with
      | (.error failure, s) => (.error failure, s)
      | (.ok findings, s) =>
        let summary : Summary :=
          ⟨a.timestamp, findings.filterMap (·.summary?), findings.filterMap (·.failure?)⟩
        (.ok summary, s.record [.completed summary])

end Analyzer

end BuildVariants
