import BuildVariants.Folding.Outcome
import BuildVariants.Variant

/-!
Folding library variants. The targets of a library refer to the targets of its dependencies, so a
dependency may block folding: a build type stays expanded if a dependency of its variants has no
folding or has that build type expanded, and folding across build types needs dependencies that are
fully folded. A dependency that is not tracked never blocks.
-/

set_option autoImplicit false
set_option relaxedAutoImplicit false

namespace BuildVariants

/-- What is known about a project that variants depend on: it is not tracked, it should have a
folding and has none, or it has one. -/
inductive DependencyState
  | untracked
  | missing
  | settled (folding : Folding LibraryVariant)
  deriving DecidableEq

namespace DependencyState

/-- Whether a dependency keeps the variants of a build type apart. -/
def blocks (buildType : String) : DependencyState → Bool
  | .untracked => false
  | .missing => true
  | .settled folding => folding.isExpanded buildType

/-- Whether a dependency keeps the build types apart. -/
def blocksCross : DependencyState → Bool
  | .untracked => false
  | .missing => true
  | .settled folding => !folding.isFull

end DependencyState

/-- The state of every project that variants may depend on. -/
abbrev DependencyStates := String → DependencyState

structure LibraryOptions where
  checkDependencies : Bool
  crossBuildTypes : Bool
  deriving DecidableEq

/-- A list of paths after an introduction, if there is at least one. -/
def listedPaths (introduction : String) (paths : List String) : Option String :=
  if paths.isEmpty then none else some (introduction ++ ", ".intercalate paths)

namespace LibraryVariant

def referencedProjects (variants : List LibraryVariant) : List String :=
  projectPaths (variants.map (·.deps))

/-- The dependencies that keep the variants of a build type apart. -/
def blocker (states : DependencyStates) : Blocker LibraryVariant := fun buildType group =>
  listedPaths "blocked by dependencies: "
    ((referencedProjects group.values).filter fun path => (states path).blocks buildType)

/-- The dependencies that keep the build types of a project apart. -/
def crossObjection (states : DependencyStates) (variants : List LibraryVariant) : Option String :=
  listedPaths "blocked by non-fully-compressed dependencies: "
    ((referencedProjects variants).filter fun path => (states path).blocksCross)

def foldRules (buildTypeOf : String → String) : FoldRules LibraryVariant where
  nameOf := name
  rename := rename
  interchangeable := allInterchangeable
  buildTypeOf := buildTypeOf

def crossFold (options : LibraryOptions) (states : DependencyStates)
    (variants : OrderedMap LibraryVariant) : CrossFold LibraryVariant where
  enabled := options.crossBuildTypes
  interchangeable := allInterchangeable
  objection := crossObjection states variants.values

def foldOutcome (options : LibraryOptions) (buildTypeOf : String → String)
    (states : DependencyStates) (variants : OrderedMap LibraryVariant) :
    Except Collision (Outcome LibraryVariant) :=
  (foldRules buildTypeOf).fold
    (if options.checkDependencies then some (blocker states) else none)
    (some (crossFold options states variants)) variants

def fold (options : LibraryOptions) (buildTypeOf : String → String) (states : DependencyStates)
    (variants : OrderedMap LibraryVariant) : Except Fault (FoldingReport LibraryVariant) :=
  match foldOutcome options buildTypeOf states variants with
  | .error collision => .error collision.fault
  | .ok outcome => outcome.report

end LibraryVariant

end BuildVariants
