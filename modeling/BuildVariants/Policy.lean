import BuildVariants.Fault
import BuildVariants.Text.Blank

/-!
The policy of an analysis: which foldings are attempted, and the build type of a variant that has
none of its own.
-/

set_option autoImplicit false
set_option relaxedAutoImplicit false

namespace BuildVariants

structure Policy where
  libraryCrossBuildTypes : Bool
  testCrossBuildTypes : Bool
  checkDependencies : Bool
  analyzeTests : Bool
  defaultBuildType : String
  deriving DecidableEq

namespace Policy

/-- The policy that attempts every folding. -/
def standard : Policy := ⟨true, true, true, true, "debug"⟩

end Policy

def Fault.missingDefaultBuildType : Fault where
  kind := .validation
  message := "A default build type is required."
  hint := some "Set CompressionPolicy.default_build_type, e.g. 'debug'."
  context := .ofList [("operation", "analyze")]

/-- A policy is valid if its default build type is not blank. -/
def Policy.check (p : Policy) : Except Fault Unit :=
  if Text.isBlank p.defaultBuildType then .error .missingDefaultBuildType else .ok ()

end BuildVariants
