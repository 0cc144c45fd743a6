import BuildVariants.Names

/-!
What a build target depends on: the target of another project, which carries a suffix, or an
external coordinate. `References` is what a list of dependencies refers to once suffixes, order and
repetitions are forgotten.
-/

set_option autoImplicit false
set_option relaxedAutoImplicit false

namespace BuildVariants

/-- A dependency on the target of a project, or on something outside the build. -/
inductive Dependency
  | project (path suffix : String)
  | external (coordinate : String)
  deriving DecidableEq

namespace Dependency

/-- The name of the target, or the external coordinate. -/
def text : Dependency → String
  | .project path suffix => path ++ suffix
  | .external coordinate => coordinate

def projectPath? : Dependency → Option String
  | .project path _ => some path
  | .external _ => none

def coordinate? : Dependency → Option String
  | .project _ _ => none
  | .external coordinate => some coordinate

end Dependency

/-- The external coordinates and the projects that a list of dependencies refers to. -/
structure References where
  externals : NameSet
  projects : NameSet
  deriving DecidableEq

namespace References

def ofDependencies (deps : List Dependency) : References :=
  ⟨.ofList (deps.filterMap (·.coordinate?)), .ofList (deps.filterMap (·.projectPath?))⟩

end References

/-- The paths of the projects that lists of dependencies refer to, in ascending order. -/
def projectPaths (deps : List (List Dependency)) : List String :=
  (References.ofDependencies deps.flatten).projects.names

end BuildVariants
