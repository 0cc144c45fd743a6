import BuildVariants.Fault
import BuildVariants.Project
import BuildVariants.Variant

/-!
Where variants come from. A source lists the variants that a project builds and extracts the data of
each, and may fail at either. A `RecordedSource` serves variants that were recorded beforehand.
-/

set_option autoImplicit false
set_option relaxedAutoImplicit false

namespace BuildVariants

/-- A source of variants and their data. -/
structure VariantSource where
  matched : Project → VariantKind → Except Failure (List MatchedVariant)
  library : Project → MatchedVariant → Except Failure LibraryVariant
  unitTest : Project → MatchedVariant → Except Failure UnitTestVariant

namespace Fault

def emptyVariantName : Fault where
  kind := .validation
  message := "Variant names must be non-empty."

def emptyBuildType (variant : String) : Fault where
  kind := .validation
  message := "Variant build type must be non-empty."
  context := .ofList [("variant", variant)]

def notRecorded (project variant : String) (kind : VariantKind) : Fault where
  kind := .extraction
  message := "No recorded variant data for project."
  hint := some "Record the variant with add_library_variant() or add_test_variant()."
  context := .ofList [("project", project), ("variant", variant), ("kind", kind.text)]

end Fault

/-- The recorded variants of each project under their names, each with its data. -/
abbrev Records (α : Type) := OrderedMap (OrderedMap (MatchedVariant × α))

namespace Records

variable {α : Type}

def ofProject (records : Records α) (project : String) : OrderedMap (MatchedVariant × α) :=
  (records.get? project).getD .empty

/-- Records a variant of a project, in the place of one with the same name. -/
def record (records : Records α) (project : String) (variant : MatchedVariant) (data : α) :
    Records α :=
  records.put project ((records.ofProject project).put variant.name (variant, data))

/-- The variants of a project in the order in which their names were first recorded. -/
def matched (records : Records α) (project : String) : List MatchedVariant :=
  (records.ofProject project).values.map (·.1)

def data (records : Records α) (kind : VariantKind) (project variant : String) :
    Except Fault α :=
  match (records.ofProject project).get? variant with
  | some recorded => .ok recorded.2
  | none => .error (.notRecorded project variant kind)

end Records

structure RecordedSource where
  libraries : Records LibraryVariant
  tests : Records UnitTestVariant
  deriving DecidableEq

namespace RecordedSource

def empty : RecordedSource := ⟨.empty, .empty⟩

def checkVariant (variant : MatchedVariant) : Except Fault Unit :=
  if variant.name.isEmpty then .error .emptyVariantName
  else if variant.buildType.isEmpty then .error (.emptyBuildType variant.name)
  else .ok ()

def addLibrary (s : RecordedSource) (project : String) (variant : MatchedVariant)
    (data : LibraryVariant) : Except Fault RecordedSource := do
  checkVariant variant
  return { s with libraries := s.libraries.record project variant data }

def addTest (s : RecordedSource) (project : String) (variant : MatchedVariant)
    (data : UnitTestVariant) : Except Fault RecordedSource := do
  checkVariant variant
  return { s with tests := s.tests.record project variant data }

def matched (s : RecordedSource) (project : String) : VariantKind → List MatchedVariant
  | .library => s.libraries.matched project
  | .test => s.tests.matched project

/-- The recorded variants as a source, which fails only for a variant that was not recorded. -/
def source (s : RecordedSource) : VariantSource where
  matched := fun project kind => .ok (s.matched project.path kind)
  library := fun project variant =>
    (s.libraries.data .library project.path variant.name).mapError .fault
  unitTest := fun project variant =>
    (s.tests.data .test project.path variant.name).mapError .fault

end RecordedSource

end BuildVariants
