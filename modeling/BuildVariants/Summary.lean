import BuildVariants.Json.Printer

/-!
The summary of an analysis: the projects that were analyzed and those that failed.
-/

set_option autoImplicit false
set_option relaxedAutoImplicit false

namespace BuildVariants

/-- The suffixes of the targets of an analyzed project. The count is reported as given, and a
summary that was not made by an analysis may give any integer. -/
structure ProjectSummary where
  path : String
  variantCount : Int
  suffixes : List String
  testSuffixes : List String
  deriving DecidableEq

structure ProjectFailure where
  path : String
  message : String
  code : Option String
  deriving DecidableEq

structure Summary where
  timestamp : String
  projects : List ProjectSummary
  failures : List ProjectFailure
  deriving DecidableEq

def ProjectSummary.toJson (p : ProjectSummary) : Json :=
  .obj [("path", .str p.path), ("variant_count", .int p.variantCount),
    ("suffixes", .texts p.suffixes), ("test_suffixes", .texts p.testSuffixes)]

def ProjectFailure.toJson (f : ProjectFailure) : Json :=
  .obj [("path", .str f.path), ("message", .str f.message), ("code", .optionalText f.code)]

namespace Summary

def projectCount (s : Summary) : Nat := s.projects.length

def toJson (s : Summary) : Json :=
  .obj [("analysis_timestamp", .str s.timestamp), ("project_count", .int s.projectCount),
    ("projects", .arr (s.projects.map (·.toJson))),
    ("failures", .arr (s.failures.map (·.toJson)))]

def text (s : Summary) : String := s.toJson.block ++ "\n"

end Summary

end BuildVariants
