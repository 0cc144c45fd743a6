import BuildVariants.Dependency
import BuildVariants.SortedMap

/-!
Build variants and the data that a build target needs for one of them. Two records are
interchangeable if one target can stand for both: they agree on everything except their names, and
their dependencies refer to the same projects and coordinates.
-/

set_option autoImplicit false
set_option relaxedAutoImplicit false

namespace BuildVariants

inductive VariantKind
  | library | test
  deriving DecidableEq

def VariantKind.text : VariantKind → String
  | .library => "library"
  | .test => "test"

structure MatchedVariant where
  name : String
  buildType : String
  flavors : List String := []
  deriving DecidableEq

structure LintConfig where
  enabled : Bool := true
  config : Option String := none
  baselinePath : Option String := none
  checks : List Dependency := []
  deriving DecidableEq

/-- The data of one library variant. Resource values and build configuration fields are finite maps,
so the order in which they were given is forgotten. -/
structure LibraryVariant where
  name : String
  sources : List String := []
  resourceSets : List String := []
  deps : List Dependency := []
  plugins : List String := []
  dataBinding : Bool := false
  compose : Bool := false
  resValues : SortedMap String := .empty
  buildConfigFields : SortedMap String := .empty
  packageName : Option String := none
  manifestFile : Option String := none
  tags : List String := []
  lintConfig : LintConfig := {}
  deriving DecidableEq

inductive TestSize
  | small | medium | large | enormous
  deriving DecidableEq

def TestSize.text : TestSize → String
  | .small => "small"
  | .medium => "medium"
  | .large => "large"
  | .enormous => "enormous"

structure UnitTestVariant where
  name : String
  sources : List String := []
  additionalSourceSets : List String := []
  deps : List Dependency := []
  tags : List String := []
  customPackage : Option String := none
  associates : List String := []
  resources : List String := []
  compose : Bool := false
  testSize : TestSize := .medium
  deriving DecidableEq

def allAgreeWithFirst {α : Type} (agree : α → α → Bool) : List α → Bool
  | [] => true
  | first :: rest => rest.all (agree first)

namespace LibraryVariant

/-- The record with resource values and build configuration fields as they are given: pairs of a
name and a value in any order, of which the last one under a name counts. -/
def withPairs (v : LibraryVariant) (resValues buildConfigFields : List (String × String)) :
    LibraryVariant :=
  { v with resValues := .ofList resValues, buildConfigFields := .ofList buildConfigFields }

/-- What a library target needs apart from its name: the record without its name and with the
references of its dependencies in place of their list. -/
def content (v : LibraryVariant) : LibraryVariant × References :=
  ({ v with name := "", deps := [] }, .ofDependencies v.deps)

/-- Whether one target can stand for both variants. -/
def interchangeable (a b : LibraryVariant) : Bool := a.content = b.content

def allInterchangeable : List LibraryVariant → Bool := allAgreeWithFirst interchangeable

def rename (v : LibraryVariant) (name : String) : LibraryVariant := { v with name }

end LibraryVariant

namespace UnitTestVariant

/-- What a test target needs apart from its name. The associates are left out, because they name
the library target of the variant. -/
def content (v : UnitTestVariant) : UnitTestVariant × References :=
  ({ v with name := "", deps := [], associates := [] }, .ofDependencies v.deps)

def interchangeable (a b : UnitTestVariant) : Bool := a.content = b.content

def allInterchangeable : List UnitTestVariant → Bool := allAgreeWithFirst interchangeable

def rename (v : UnitTestVariant) (name : String) : UnitTestVariant := { v with name }

end UnitTestVariant

end BuildVariants
