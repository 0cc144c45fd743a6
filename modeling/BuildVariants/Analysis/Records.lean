import BuildVariants.Fault
import BuildVariants.Folding.Outcome
import BuildVariants.Project
import BuildVariants.RunLog
import BuildVariants.Summary
import BuildVariants.Variant

/-!
What an analysis writes into the log of the run.
-/

set_option autoImplicit false
set_option relaxedAutoImplicit false

namespace BuildVariants.LogRecord

/-- The record of a run that starts, with the order in which the projects are visited. -/
def started (order : List Project) : LogRecord where
  operation := "analyze_start"
  message := "Starting variant compression analysis."
  extra := some [("order", .texts (order.map (·.path)))]

def completed (summary : Summary) : LogRecord where
  operation := "analyze_complete"
  message := "Variant compression analysis complete."
  extra := some [("projects", .int summary.projectCount),
    ("failures", .int summary.failures.length)]

def decided (project : String) (decision : Decision) : LogRecord where
  operation := "compression_decision"
  project := some project
  variantKind := some .library
  buildType := decision.buildType?
  message := project ++ " " ++ decision.text

def analyzed (project : String) (folding : Folding LibraryVariant) : LogRecord where
  operation := "library_compressed"
  project := some project
  variantKind := some .library
  message := "Analyzed " ++ project ++ ": " ++ toString folding.suffixes.length ++
    " targets from " ++ toString folding.assignment.size ++ " variants"
  extra := some [("suffixes", .texts folding.suffixes)]

def testsSkipped (project : String) : LogRecord where
  operation := "tests_skipped"
  project := some project
  variantKind := some .test
  message := "No test variants found for " ++ project ++ ", skipping."

/-- How far test variants are folded. -/
def extent (folding : Folding UnitTestVariant) : String :=
  if folding.isFull then "fully compressed"
  else if folding.expanded.isEmpty then "flavor compressed"
  else "partially expanded"

def testsFolded (project : String) (variantCount : Nat) (folding : Folding UnitTestVariant) :
    LogRecord where
  operation := "tests_compressed"
  project := some project
  variantKind := some .test
  message := project ++ " " ++ extent folding ++ ": " ++ toString folding.suffixes.length ++
    " test targets from " ++ toString variantCount ++ " test variants"
  extra := some [("suffixes", .texts folding.suffixes)]

def failed (project : String) (failure : Failure) : LogRecord where
  level := "warning"
  operation := "project_failed"
  project := some project
  message := "Failed to analyze " ++ project ++ ": " ++ failure.text
  extra := some [("code", .optionalText (failure.code?.map (·.text))),
    ("details", .obj failure.details)]

end BuildVariants.LogRecord
