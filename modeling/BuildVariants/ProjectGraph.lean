import BuildVariants.Fault
import BuildVariants.Project

/-!
The graph of projects and their dependencies. Projects keep the order in which they were first
added, and each holds the paths of its dependents in the order in which those were linked. Adding a
project again replaces it and keeps its dependents. Both ends of a dependency have to be projects
of the graph.
-/

set_option autoImplicit false
set_option relaxedAutoImplicit false

namespace BuildVariants

/-- A project with the paths of the projects that depend on it. -/
structure ProjectNode where
  project : Project
  dependents : List String
  deriving DecidableEq

/-- Links a dependent to a node, which changes nothing if they are linked. -/
def ProjectNode.link (node : ProjectNode) (dependent : String) : ProjectNode :=
  if node.dependents.contains dependent then node
  else { node with dependents := node.dependents ++ [dependent] }

/-- A graph of projects under their paths. -/
structure ProjectGraph where
  nodes : OrderedMap ProjectNode
  deriving DecidableEq

namespace Fault

def emptyProjectPath : Fault where
  kind := .validation
  message := "Project paths must be non-empty."

def unknownEndpoint (path : String) : Fault where
  kind := .validation
  message := "Dependency edge references an unknown project."
  hint := some "Add both projects with add_project() before linking them."
  context := .ofList [("project", path), ("operation", "add_dependency")]

def unknownProject (path : String) : Fault where
  kind := .validation
  message := "Unknown project."
  context := .ofList [("project", path)]

end Fault

/-- A path whose neighbours were asked for and that is not in the graph. -/
structure UnknownPath where
  path : String
  deriving DecidableEq

def UnknownPath.message (e : UnknownPath) : String :=
  "The node " ++ e.path ++ " is not in the digraph."

namespace ProjectGraph

def empty : ProjectGraph := ⟨.empty⟩

def contains (g : ProjectGraph) (path : String) : Bool := g.nodes.contains path

def size (g : ProjectGraph) : Nat := g.nodes.size

/-- The paths of the projects that depend on a path, in the order in which they were linked. -/
def dependentPaths (g : ProjectGraph) (path : String) : List String :=
  match g.nodes.get? path with
  | some node => node.dependents
  | none => []

/-- Adds a project, or replaces it and keeps its dependents. -/
def addProject (g : ProjectGraph) (p : Project) : Except Fault ProjectGraph :=
  if p.path.isEmpty then .error .emptyProjectPath
  else .ok ⟨g.nodes.put p.path ⟨p, g.dependentPaths p.path⟩⟩

/-- Records that a project depends on another. An unknown dependent is reported first. -/
def addDependency (g : ProjectGraph) (dependent dependency : String) :
    Except Fault ProjectGraph :=
  if !g.contains dependent then .error (.unknownEndpoint dependent)
  else
    match g.nodes.get? dependency with
    | none => .error (.unknownEndpoint dependency)
    | some node => .ok ⟨g.nodes.put dependency (node.link dependent)⟩

def project (g : ProjectGraph) (path : String) : Except Fault Project :=
  match g.nodes.get? path with
  | some node => .ok node.project
  | none => .error (.unknownProject path)

def projects (g : ProjectGraph) : List Project := g.nodes.sorted.values.map (·.project)

/-- The paths in ascending order on which the project of a path depends. -/
def dependencyPaths (g : ProjectGraph) (path : String) : List String :=
  sortNames ((g.nodes.entries.filter fun entry => entry.2.dependents.contains path).map (·.1))

def dependenciesOf (g : ProjectGraph) (path : String) : Except UnknownPath (List String) :=
  if g.contains path then .ok (g.dependencyPaths path) else .error ⟨path⟩

def dependentsOf (g : ProjectGraph) (path : String) : Except UnknownPath (List String) :=
  match g.nodes.get? path with
  | some node => .ok (sortNames node.dependents)
  | none => .error ⟨path⟩

end ProjectGraph

end BuildVariants
