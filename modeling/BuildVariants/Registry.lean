import BuildVariants.Folding.Library
import BuildVariants.Folding.UnitTest

/-!
The registry of the foldings of a run. Library foldings and unit test foldings are kept apart under
the same project paths, and a later registration replaces an earlier one. A dependent asks the
registry for the suffix of the target to refer to.
-/

set_option autoImplicit false
set_option relaxedAutoImplicit false

namespace BuildVariants

/-- The registered foldings, in the order in which their projects were first registered. -/
structure Registry where
  libraries : OrderedMap (Folding LibraryVariant)
  tests : OrderedMap (Folding UnitTestVariant)
  deriving DecidableEq

namespace Folding

/-- The suffix of the target that a dependent refers to for a variant. A variant of the folding has
its own suffix, and the target without a suffix of a full folding stands for every other variant.
What remains is the suffix of the build type, if it is known, not expanded and has a target. -/
def resolve? {α : Type} (f : Folding α) (variant : String) (buildType : Option String) :
    Option String :=
  match f.assignment.get? variant with
  | some suffix => some suffix
  | none =>
    if f.isFull then some ""
    else buildType.bind fun buildType =>
      if !f.isExpanded buildType && f.targets.contains (Suffix.ofName buildType) then
        some (Suffix.ofName buildType)
      else none

end Folding

namespace Registry

def empty : Registry := ⟨.empty, .empty⟩

def registerLibrary (r : Registry) (path : String) (folding : Folding LibraryVariant) : Registry :=
  { r with libraries := r.libraries.put path folding }

def registerTests (r : Registry) (path : String) (folding : Folding UnitTestVariant) : Registry :=
  { r with tests := r.tests.put path folding }

def library? (r : Registry) (path : String) : Option (Folding LibraryVariant) :=
  r.libraries.get? path

def tests? (r : Registry) (path : String) : Option (Folding UnitTestVariant) := r.tests.get? path

def hasLibrary (r : Registry) (path : String) : Bool := r.libraries.contains path

/-- The projects with a library folding, in the order in which they were first registered. -/
def projectPaths (r : Registry) : List String := r.libraries.keys

/-- The suffix of the target of a project that a dependent refers to for a variant, or nothing if
no registered target can stand in for it. -/
def resolveSuffix (r : Registry) (path variant : String) (buildType : Option String) :
    Option String :=
  (r.library? path).bind fun folding => folding.resolve? variant buildType

end Registry

end BuildVariants
