import BuildVariants.Proofs.Analysis.Walk

/-!
What an analysis writes into the log. A visit appends records that follow from the two reports on
its project: those of its stages, and one that closes it. What was in the log before has no
influence, so a walk answers the same, registers the same and appends the same records to every log.
-/

set_option autoImplicit false
set_option relaxedAutoImplicit false

namespace BuildVariants

namespace RunLog

@[simp] theorem append_nil (log : RunLog) : log.append [] = log := by
  simp [append]

@[simp] theorem append_append (log : RunLog) (records others : List LogRecord) :
    (log.append records).append others = log.append (records ++ others) := by
  simp [append]

end RunLog

namespace Analyzer

variable (a : Analyzer) (g : ProjectGraph) (project : Project)

/-- The record of the tests of a project, if tests are analyzed and there is a report on them. -/
def testRecords (tests : Except Failure (Option TestReport)) : List LogRecord :=
  if a.policy.analyzeTests then
    match tests with
    | .error _ => []
    | .ok none => [.testsSkipped project.path]
    | .ok (some report) => [.testsFolded project.path report.variantCount report.folding]
  else []

def stageRecords (library : Except Failure (FoldingReport LibraryVariant))
    (tests : Except Failure (Option TestReport)) : List LogRecord :=
  match library with
  | .error _ => []
  | .ok report => report.decisions.map (.decided project.path) ++ a.testRecords project tests

/-- The library folding of a project whose visit succeeds, or the failure of the visit. -/
def resultOf (library : Except Failure (FoldingReport LibraryVariant))
    (tests : Except Failure (Option TestReport)) : Except Failure (Folding LibraryVariant) := do
  let report ← library
  let _ ← a.reportIfAsked tests
  return report.folding

/-- The record that closes a visit. A defect of this library is not recorded. -/
def closingRecords : Except Failure (Folding LibraryVariant) → List LogRecord
  | .ok folding => [.analyzed project.path folding]
  | .error cause => if cause.isInvariant then [] else [.failed project.path cause]

def findingAt (r : Registry) : Except Failure Finding :=
  findingOf project (a.summaryOf project (a.libraryReport g r project) (a.testReport project))

def recordsAt (r : Registry) : List LogRecord :=
  a.stageRecords project (a.libraryReport g r project) (a.testReport project) ++
    closingRecords project (a.resultOf (a.libraryReport g r project) (a.testReport project))

theorem log_visit (s : Session) :
    (a.visit g project s).2.log = s.log.append (a.recordsAt g project s.registry) := by
  unfold visit analyzeLibrary analyzeProject recordsAt stageRecords resultOf
  cases a.libraryReport g s.registry project with
  | error cause =>
    simp only [bind, Except.bind, closingRecords]
    split <;> simp [Session.record]
  | ok report =>
    unfold analyzeTestsIfAsked testRecords reportIfAsked
    cases a.policy.analyzeTests with
    | false =>
      simp [Session.record, Session.registerLibrary, bind, Except.bind, pure, Except.pure,
        closingRecords]
    | true =>
      unfold analyzeTests
      cases a.testReport project with
      | error cause =>
        simp only [bind, Except.bind, closingRecords, if_true]
        split <;> simp [Session.record, Session.registerLibrary]
      | ok tests =>
        cases tests with
        | none =>
          simp [Session.record, Session.registerLibrary, bind, Except.bind, pure, Except.pure,
            closingRecords]
        | some tests =>
          simp [Session.record, Session.registerLibrary, Session.registerTests, bind, Except.bind,
            pure, Except.pure, closingRecords]

theorem visit_eq (s : Session) :
    a.visit g project s = (a.findingAt g project s.registry,
      ⟨a.registerVisit g s.registry project, s.log.append (a.recordsAt g project s.registry)⟩) := by
  apply Prod.ext
  · rw [fst_visit, fst_analyzeLibrary, findingAt]
  · exact congrArg₂ Session.mk (registry_visit a g project s) (log_visit a g project s)

/-- Whatever the log has before a walk, the walk answers the same, leaves the same registry and
appends the same records. -/
theorem exists_records_of_walk (projects : List Project) (r : Registry) :
    ∃ answer registry records, ∀ log,
      a.walk g projects ⟨r, log⟩ = (answer, ⟨registry, log.append records⟩) := by
  induction projects generalizing r with
  | nil => exact ⟨.ok [], r, [], fun log => by rw [walk, RunLog.append_nil]⟩
  | cons project rest ih =>
    have hvisit := fun log => visit_eq a g project ⟨r, log⟩
    cases hfinding : a.findingAt g project r with
    | error failure =>
      simp only [hfinding] at hvisit
      exact ⟨.error failure, _, _, fun log => by rw [walk, hvisit]⟩
    | ok finding =>
      simp only [hfinding] at hvisit
      obtain ⟨answer, registry, records, hrest⟩ := ih (a.registerVisit g r project)
      refine ⟨answer.map (finding :: ·), registry, a.recordsAt g project r ++ records,
        fun log => ?_⟩
      rw [walk, hvisit]
      dsimp only
      rw [hrest, RunLog.append_append]
      cases answer with
      | error failure => rfl
      | ok findings => rfl

end Analyzer

end BuildVariants
