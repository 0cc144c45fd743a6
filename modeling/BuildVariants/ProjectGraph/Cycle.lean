import BuildVariants.ProjectGraph

/-!
The search for a dependency cycle. It goes depth-first from each project in the order in which the
projects were added, and from a project to its dependents in the order in which they were linked.
The first link back to a project on the current path closes a cycle.
-/

set_option autoImplicit false
set_option relaxedAutoImplicit false

namespace BuildVariants.ProjectGraph

/-- The cycle that a link from the head of a trail back to one of its paths closes, listed so that
each path depends on the next. The trail lists the current path of the search backwards. -/
def closedCycle (trail : List String) (back : String) : List String :=
  back :: trail.takeWhile (· ≠ back) ++ [back]

/-- Searches from a project, given the trail that led to it and the projects whose search is done.
The answer is the enlarged list of the latter, or the cycle that was met. The trail has no path
twice, so the number of projects bounds the depth. -/
def search (g : ProjectGraph) :
    Nat → List String → List String → String → Except (List String) (List String)
  | 0, _, done, _ => .ok done
  | depth + 1, trail, done, path => do
    let done ← (g.dependentPaths path).foldlM (fun done next =>
      if (path :: trail).contains next then .error (closedCycle (path :: trail) next)
      else if done.contains next then .ok done
      else search g depth (path :: trail) done next) done
    return path :: done

/-- Searches from each of the given projects that no earlier search has reached. -/
def searchAll (g : ProjectGraph) (paths : List String) : Except (List String) (List String) :=
  paths.foldlM (fun done path =>
    if done.contains path then .ok done else search g g.size [] done path) []

/-- A dependency cycle of the graph, in which each path depends on the next and the last path is
the first one. -/
def findCycle (g : ProjectGraph) : Option (List String) :=
  match g.searchAll g.nodes.keys with
  | .error cycle => some cycle
  | .ok _ => none

end BuildVariants.ProjectGraph
