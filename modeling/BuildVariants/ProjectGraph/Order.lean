import BuildVariants.ProjectGraph.Cycle

/-!
The order in which projects are analyzed. Each project stands after all of its dependencies, and of
the projects that may come next the one with the smallest path comes first.
-/

set_option autoImplicit false
set_option relaxedAutoImplicit false

namespace BuildVariants

def Fault.dependencyCycle (cycle : List String) : Fault where
  kind := .dependencyCycle cycle
  message := "Project dependency graph contains a cycle."
  hint := some "Variant compression requires an acyclic project graph."
  context := .ofList [("operation", "topological_order")]

namespace ProjectGraph

/-- A path with those of its dependencies that have not been taken. -/
abbrev Pending := List (String × List String)

/-- Takes a path: it leaves the list, and no other path waits for it. -/
def Pending.take (pending : Pending) (path : String) : Pending :=
  (pending.filter (·.1 ≠ path)).map fun entry => (entry.1, entry.2.filter (· ≠ path))

/-- Takes up to a number of paths, each time the first one that waits for nothing. -/
def Pending.order : Nat → Pending → List String
  | 0, _ => []
  | count + 1, pending =>
    match pending.find? (·.2.isEmpty) with
    | none => []
    | some (path, _) => path :: Pending.order count (pending.take path)

def pending (g : ProjectGraph) : Pending :=
  g.nodes.sorted.keys.map fun path => (path, g.dependencyPaths path)

/-- The paths in the order that always takes the smallest path whose dependencies are taken. -/
def dependencyFirst (g : ProjectGraph) : List String := Pending.order g.size g.pending

/-- The paths with dependencies first, unless the graph has a cycle. -/
def orderedPaths (g : ProjectGraph) : Except Fault (List String) :=
  match g.findCycle with
  | some cycle => .error (.dependencyCycle cycle)
  | none => .ok g.dependencyFirst

def topologicalOrder (g : ProjectGraph) : Except Fault (List Project) := do
  (← g.orderedPaths).mapM g.project

end ProjectGraph

end BuildVariants
